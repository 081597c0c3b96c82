/-
# What a document depends on

Of its context a document reads the depth and the module alone: the submodule and the
function are entered before they are read, on every way to a function
(`render_eq_of_agree`).  Of its parser it reads what becomes of the prose of the catalog, and
of nothing else that the catalog holds (`render_eq_of_parse_eq`).
-/

import DocTree.Proofs.Contents
import DocTree.Proofs.Selection

namespace DocTree

/-! ### What is selected -/

/-- Whether a catalog has a part. -/
def Catalog.Has (catalog : Catalog) : Selection → Prop
  | .whole => True
  | .submodule name functions => (name, functions) ∈ catalog.entries
  | .function submodule name doc =>
    ∃ functions, (submodule, functions) ∈ catalog.entries ∧ (name, doc) ∈ functions.entries

/-- **What a target selects is a part of the catalog.** -/
theorem Catalog.has_select (catalog : Catalog) (target? : Option String) :
    catalog.Has (catalog.select target?) := by
  rw [select]
  split
  · trivial
  · split
    · trivial
    · next functions hfunctions =>
      have hsubmodule := Listing.get?_eq_some_iff.1 hfunctions
      split
      · next name doc hdoc =>
        obtain ⟨found, -, hget⟩ := Option.bind_eq_some_iff.1 hdoc
        obtain ⟨other, hother, heq⟩ := Option.map_eq_some_iff.1 hget
        obtain ⟨rfl, rfl⟩ := Prod.mk.inj heq
        exact ⟨functions, hsubmodule, Listing.get?_eq_some_iff.1 hother⟩
      · exact hsubmodule

/-! ### Two renderings of a catalog -/

section Catalog

variable {catalog : Catalog} {parse parse' : ProseParser} {ctx ctx' : Context}

/-- **A map that takes one rendering of each submodule and function to another does so for
whatever is selected.** -/
theorem Catalog.render_eq_map {f : Node → Node}
    (hsubmodule : ∀ name functions, (name, functions) ∈ catalog.entries →
      renderSubmodule name functions parse' ctx' =
        (renderSubmodule name functions parse ctx).map f)
    (hfunction : ∀ submodule functions name doc, (submodule, functions) ∈ catalog.entries →
      (name, doc) ∈ functions.entries → doc.render name parse' (ctx'.inSubmodule submodule) =
        (doc.render name parse (ctx.inSubmodule submodule)).map f) (target? : Option String) :
    catalog.render target? parse' ctx' = (catalog.render target? parse ctx).map f := by
  have hpart := catalog.has_select target?
  rw [Catalog.render, Catalog.render]
  cases hselect : catalog.select target? with
  | whole =>
    simp only [renderCatalog, List.map_flatMap]
    exact List.flatMap_congr fun entry hentry => hsubmodule entry.1 entry.2 hentry
  | submodule name functions =>
    rw [hselect] at hpart
    exact hsubmodule name functions hpart
  | function submodule name doc =>
    rw [hselect] at hpart
    obtain ⟨functions, hs, hf⟩ := hpart
    exact hfunction submodule functions name doc hs hf

theorem Catalog.render_congr
    (hsubmodule : ∀ name functions, (name, functions) ∈ catalog.entries →
      renderSubmodule name functions parse ctx = renderSubmodule name functions parse' ctx')
    (hfunction : ∀ submodule functions name doc, (submodule, functions) ∈ catalog.entries →
      (name, doc) ∈ functions.entries → doc.render name parse (ctx.inSubmodule submodule) =
        doc.render name parse' (ctx'.inSubmodule submodule)) (target? : Option String) :
    catalog.render target? parse ctx = catalog.render target? parse' ctx' := by
  have hmap := Catalog.render_eq_map (f := id)
    (fun name functions h => (hsubmodule name functions h).trans (List.map_id _).symm)
    (fun submodule functions name doc hs hf =>
      (hfunction submodule functions name doc hs hf).trans (List.map_id _).symm) target?
  rwa [List.map_id] at hmap

end Catalog

/-! ### Contexts -/

section Context

variable {ctx ctx' : Context} (hdepth : ctx.depth = ctx'.depth)
  (hmodule : ctx.module? = ctx'.module?)

include hdepth hmodule

/-- Contexts that agree on the depth and the module are one as soon as a submodule is entered
and no function is. -/
theorem Context.outsideFunction_inSubmodule_eq (submodule : String) :
    (ctx.inSubmodule submodule).outsideFunction =
      (ctx'.inSubmodule submodule).outsideFunction := by
  rw [outsideFunction, inSubmodule, hdepth, hmodule]
  rfl

theorem renderSubmodule_congr_context (name : String) (functions : Submodule)
    (parse : ProseParser) :
    renderSubmodule name functions parse ctx = renderSubmodule name functions parse ctx' := by
  have hnested : ctx.nested.depth = ctx'.nested.depth := congrArg deeper hdepth
  have hinner := Context.outsideFunction_inSubmodule_eq hnested hmodule name
  rw [renderSubmodule, renderSubmodule, hinner, hdepth]

theorem Docstring.render_congr_context (submodule name : String) (doc : Docstring)
    (parse : ProseParser) :
    doc.render name parse (ctx.inSubmodule submodule) =
      doc.render name parse (ctx'.inSubmodule submodule) := by
  have hinner := Context.outsideFunction_inSubmodule_eq hdepth hmodule submodule
  calc doc.render name parse (ctx.inSubmodule submodule)
      = doc.render name parse (ctx.inSubmodule submodule).outsideFunction :=
        (doc.render_outsideFunction name parse _).symm
    _ = doc.render name parse (ctx'.inSubmodule submodule).outsideFunction := by rw [hinner]
    _ = doc.render name parse (ctx'.inSubmodule submodule) :=
        doc.render_outsideFunction name parse _

end Context

/-- **No document reads what its context was in before.**  In two contexts of the same depth
and the same module, in whatever submodules and functions they are, the same is rendered,
whether the target names a function, a submodule, or nothing that the catalog has. -/
theorem render_eq_of_agree (catalog : Catalog) (target? : Option String) (parse : ProseParser)
    {ctx ctx' : Context} (hdepth : ctx.depth = ctx'.depth) (hmodule : ctx.module? = ctx'.module?) :
    catalog.render target? parse ctx = catalog.render target? parse ctx' := by
  refine Catalog.render_congr ?_ ?_ target?
  · intro name functions _
    exact renderSubmodule_congr_context hdepth hmodule name functions parse
  · intro submodule functions name doc _ _
    exact Docstring.render_congr_context hdepth hmodule submodule name doc parse

/-- A function whose references are resolved, rendered in a context that was in another
function and in one that was nowhere. -/
theorem render_eq_of_agree_sample :
    Catalog.sample.render (some "filters.blur") Markup.parse
        { depth := 3, module? := some "pkg", submodule? := some "io", function? := some "read" } =
      Catalog.sample.render (some "filters.blur") Markup.parse
        { depth := 3, module? := some "pkg" } :=
  render_eq_of_agree Catalog.sample (some "filters.blur") Markup.parse rfl rfl

/-! ### Prose -/

/-- The texts of a docstring that are prose. -/
def Docstring.prose (doc : Docstring) : List String :=
  (doc.summary.map summaryText).toList ++ doc.extendedSummary.toList ++
    (doc.lists.flatMap fun (_, list?) => (list?.getD []).map Parameter.description) ++
      doc.notes.toList ++ (doc.references.map ("\n".intercalate ·)).toList

/-- The texts of a catalog that are prose. -/
def Catalog.prose (catalog : Catalog) : List String :=
  catalog.entries.flatMap fun (_, functions) =>
    functions.entries.flatMap fun (_, doc) => doc.prose

theorem Docstring.description_mem_prose {doc : Docstring} {g : Group} {list : List Parameter}
    (hlist : doc.group g = some list) {p : Parameter} (hp : p ∈ list) :
    p.description ∈ doc.prose := by
  have hentry : (g.title, some list) ∈ doc.lists := by
    rw [← doc.map_group, ← hlist]
    exact List.mem_map_of_mem (by cases g <;> decide)
  have hdescription : p.description ∈
      doc.lists.flatMap fun (_, list?) => (list?.getD []).map Parameter.description :=
    List.mem_flatMap.2 ⟨_, hentry, List.mem_map_of_mem hp⟩
  simp [prose, hdescription]

theorem Catalog.mem_prose {catalog : Catalog} {submodule name : String} {functions : Submodule}
    {doc : Docstring} (hs : (submodule, functions) ∈ catalog.entries)
    (hf : (name, doc) ∈ functions.entries) {source : String} (h : source ∈ doc.prose) :
    source ∈ catalog.prose :=
  List.mem_flatMap.2 ⟨_, hs, List.mem_flatMap.2 ⟨_, hf, h⟩⟩

/-- An optional part is rendered the same by two functions that agree on it. -/
theorem optional_congr {α : Type} {x? : Option α} {f g : α → List Node}
    (h : ∀ x, x? = some x → f x = g x) : (x?.map f).getD [] = (x?.map g).getD [] := by
  cases x? with
  | none => rfl
  | some x => exact h x rfl

section Prose

variable {parse parse' : ProseParser}

theorem Docstring.renderSection_congr {doc : Docstring}
    (h : ∀ source ∈ doc.prose, parse source = parse' source) (name : String) (ctx : Context)
    (part : Section) :
    doc.renderSection name parse ctx part = doc.renderSection name parse' ctx part := by
  cases part with
  | summary =>
    refine optional_congr fun lines hlines => ?_
    rw [renderSummary, renderSummary, h _ (by simp [prose, hlines])]
  | extendedSummary =>
    refine optional_congr fun text htext => ?_
    rw [renderProse, renderProse, h _ (by simp [prose, htext])]
  | group g =>
    refine optional_congr fun list hlist => ?_
    have hentries : list.flatMap (Parameter.render parse) =
        list.flatMap (Parameter.render parse') := by
      refine List.flatMap_congr fun p hp => ?_
      rw [Parameter.render, Parameter.render, h _ (description_mem_prose hlist hp)]
    rw [Parameter.renderList, Parameter.renderList, hentries]
  | notes =>
    refine optional_congr fun text htext => ?_
    rw [renderTitled, renderTitled, h _ (by simp [prose, htext])]
  | references =>
    refine optional_congr fun lines hlines => ?_
    rw [renderReferences, renderReferences, renderTitled, renderTitled,
      h _ (by simp [prose, hlines])]
  | examples => rfl
  | seeAlso => rfl

theorem Docstring.render_congr {doc : Docstring}
    (h : ∀ source ∈ doc.prose, parse source = parse' source) (name : String) (ctx : Context) :
    doc.render name parse ctx = doc.render name parse' ctx := by
  have hsections : doc.renderSection name parse ctx = doc.renderSection name parse' ctx :=
    funext (renderSection_congr h name ctx)
  rw [render, render, hsections]

theorem renderSubmodule_congr {functions : Submodule}
    (h : ∀ entry ∈ functions.entries, ∀ source ∈ entry.2.prose, parse source = parse' source)
    (name : String) (ctx : Context) :
    renderSubmodule name functions parse ctx = renderSubmodule name functions parse' ctx := by
  rw [renderSubmodule, renderSubmodule]
  congr 2
  exact List.flatMap_congr fun entry hentry => Docstring.render_congr (h entry hentry) _ _

/-- **Nothing but prose reaches the parser.**  Two parsers that make the same of the prose of
a catalog make the same document of any part of it, whatever they make of its examples, its
references, the names and types of its parameters, or the names of its functions and
submodules. -/
theorem render_eq_of_parse_eq {catalog : Catalog}
    (h : ∀ source ∈ catalog.prose, parse source = parse' source) (target? : Option String)
    (ctx : Context) :
    catalog.render target? parse ctx = catalog.render target? parse' ctx := by
  have hdoc : ∀ s functions, (s, functions) ∈ catalog.entries → ∀ entry ∈ functions.entries,
      ∀ source ∈ entry.2.prose, parse source = parse' source :=
    fun s functions hs entry hentry source hsource => h source (Catalog.mem_prose hs hentry hsource)
  refine Catalog.render_congr ?_ ?_ target?
  · intro name functions hs
    exact renderSubmodule_congr (hdoc name functions hs) name ctx
  · intro submodule functions name doc hs hf
    exact Docstring.render_congr (hdoc submodule functions hs (name, doc) hf) name _

end Prose

/-- The catalog of two submodules, whose prose is the summary of `blur`, the description of its
parameter, the notes of `sobel` and the references of `read`; a parser that refuses to look at
anything else makes the same document of it. -/
theorem render_eq_of_parse_eq_sample :
    Catalog.sample.prose = ["Blurs an image.", "", "", ""] ∧
      Catalog.sample.render none
          (fun source => if source ∈ ["Blurs an image.", ""] then Markup.parse source
            else { children := [.code "error" source] }) {} =
        Catalog.sample.render none Markup.parse {} := by
  have hprose : Catalog.sample.prose = ["Blurs an image.", "", "", ""] := by decide
  refine ⟨hprose, render_eq_of_parse_eq (fun source hsource => if_pos ?_) none {}⟩
  rw [hprose] at hsource
  simpa using hsource

end DocTree
