/-
# A document in another place

A catalog that is rendered deeper down, and in a module of a name, is the same document moved
there (`render_relocated`): its headings are that much deeper, and the name of the module is
in front of its labels and of the addresses of its links, except those of the qualified names,
which say themselves where they lead.  The moved document is `Node.relocate` of the other one,
a map on trees that knows nothing of how a document is made.
-/

import DocTree.Proofs.Context
import DocTree.Proofs.Dependence
import DocTree.Proofs.Label
import Mathlib.Algebra.Group.Nat.Defs

namespace DocTree

/-! ### Moving a tree -/

/-- Whether a node says where it is, or where something else is. -/
def Node.isPlace : Node → Bool
  | heading .. | target _ | link .. => true
  | _ => false

/-- The text that some trees show. -/
def shownText (nodes : List Node) : List Char :=
  (Node.flatList nodes).flatMap fun
    | .text value | .inlineCode value => value.toList
    | _ => []

/-- The address of a label in a module.  What is no address of a label is left as it is. -/
def addressIn (m url : String) : String :=
  match url.toList with
  | '#' :: label => "#" ++ (m ++ "." ++ String.ofList label)
  | _ => url

namespace Node

mutual

/-- The tree moved into a module and some levels down: its headings are deeper, and its labels
and the addresses of its links are those in the module.  A link that shows a dot leads where
it did. -/
def relocate (m : String) (levels : UInt64) : Node → Node
  | text value => text value
  | emphasis children => emphasis (relocateList m levels children)
  | inlineCode value => inlineCode value
  | link url children =>
    link (if '.' ∈ shownText children then url else addressIn m url)
      (relocateList m levels children)
  | heading depth children => heading (depth + levels) (relocateList m levels children)
  | paragraph children => paragraph (relocateList m levels children)
  | definitionList children => definitionList (relocateList m levels children)
  | definitionTerm children => definitionTerm (relocateList m levels children)
  | definitionDescription children => definitionDescription (relocateList m levels children)
  | code lang value => code lang value
  | admonition kind children => admonition kind (relocateList m levels children)
  | target label => target (m ++ "." ++ label)

/-- Trees moved one by one. -/
def relocateList (m : String) (levels : UInt64) : List Node → List Node
  | [] => []
  | node :: nodes => node.relocate m levels :: relocateList m levels nodes

end

variable {m : String} {levels : UInt64}

theorem relocateList_eq_map (nodes : List Node) :
    relocateList m levels nodes = nodes.map (relocate m levels) := by
  induction nodes with
  | nil => rfl
  | cons node nodes ih => rw [relocateList, ih, List.map_cons]

theorem map_intersperse (f : Node → Node) {separator : Node} (h : f separator = separator) :
    ∀ nodes : List Node, (nodes.intersperse separator).map f = (nodes.map f).intersperse separator
  | [] => rfl
  | [_] => rfl
  | node :: next :: nodes => by
    rw [List.intersperse_cons_cons, List.map_cons, List.map_cons, h,
      map_intersperse f h (next :: nodes), List.map_cons, List.map_cons, List.map_cons,
      List.intersperse_cons_cons]

theorem map_optional {α : Type} (g : Node → Node) (f : α → List Node) (x? : Option α) :
    ((x?.map f).getD []).map g = (x?.map fun x => (f x).map g).getD [] := by
  cases x? <;> rfl

theorem relocate_titled (depth : UInt64) (title : String) :
    (titled depth title).relocate m levels = titled (depth + levels) title :=
  rfl

mutual

/-- **A tree without places stays as it is.** -/
theorem relocate_eq_self : ∀ node : Node, (∀ n ∈ node.flat, n.isPlace = false) →
    node.relocate m levels = node
  | text _, _ | inlineCode _, _ | code .., _ => rfl
  | emphasis children, h | paragraph children, h | definitionList children, h
  | definitionTerm children, h | definitionDescription children, h | admonition _ children, h => by
    rw [relocate, relocateList_eq_self children fun n hn => h n (List.mem_cons_of_mem _ hn)]
  | link url children, h => absurd (h _ (List.mem_cons_self ..)) nofun
  | heading depth children, h => absurd (h _ (List.mem_cons_self ..)) nofun
  | target label, h => absurd (h _ (List.mem_cons_self ..)) nofun

theorem relocateList_eq_self : ∀ nodes : List Node, (∀ n ∈ flatList nodes, n.isPlace = false) →
    relocateList m levels nodes = nodes
  | [], _ => rfl
  | node :: nodes, h => by
    rw [relocateList, relocate_eq_self node fun n hn => h n (List.mem_append_left _ hn),
      relocateList_eq_self nodes fun n hn => h n (List.mem_append_right _ hn)]

end

theorem map_relocate_eq_self {nodes : List Node} (h : pick isPlace nodes = []) :
    nodes.map (relocate m levels) = nodes := by
  rw [← relocateList_eq_map]
  refine relocateList_eq_self nodes fun node hnode => ?_
  exact Bool.eq_false_iff.2 (List.filter_eq_nil_iff.1 h node hnode)

end Node

/-- The context moved into a module and some levels down. -/
def Context.relocated (ctx : Context) (m : String) (levels : UInt64) : Context :=
  { ctx with depth := ctx.depth + levels, module? := some m }

theorem addressIn_label (m label : String) :
    addressIn m ("#" ++ label) = "#" ++ (m ++ "." ++ label) := by
  simp [addressIn]

section Relocation

variable {m : String} {levels : UInt64} {parse : ProseParser}

/-! ### Prose and lists -/

section Lists

variable (hparse : parse.Lacks Node.isPlace)

include hparse

theorem map_relocate_prose (source : String) :
    (parse source).children.map (Node.relocate m levels) = (parse source).children :=
  Node.map_relocate_eq_self (hparse source)

theorem map_relocate_renderTitled (title text : String) (depth : UInt64) :
    (renderTitled title text parse depth).map (Node.relocate m levels) =
      renderTitled title text parse (depth + levels) := by
  rw [renderTitled, List.map_cons, map_relocate_prose hparse]
  rfl

theorem map_relocate_parameter (p : Parameter) :
    (p.render parse).map (Node.relocate m levels) = p.render parse := by
  have hterm : Node.pick Node.isPlace [p.term] = [] := by
    rw [p.term_eq_shownTerm, Parameter.shownTerm]
    split
    · rfl
    · split <;> rfl
  refine Node.map_relocate_eq_self ?_
  rw [Parameter.render, Node.pick_first, hterm, Node.pick_cons, Node.children, hparse]
  rfl

theorem map_relocate_renderList (title : String) (list : List Parameter) (ctx : Context) :
    (Parameter.renderList title list parse ctx).map (Node.relocate m levels) =
      Parameter.renderList title list parse (ctx.relocated m levels) := by
  have hentries : (list.flatMap (Parameter.render parse)).map (Node.relocate m levels) =
      list.flatMap (Parameter.render parse) := by
    rw [List.map_flatMap]
    exact List.flatMap_congr fun p _ => map_relocate_parameter hparse p
  rw [Parameter.renderList, Parameter.renderList]
  split
  · rfl
  · rw [List.map_cons, List.map_cons, Node.relocate, Node.relocateList_eq_map, hentries]
    rfl

end Lists

theorem map_relocate_renderExamples (lines : List String) (depth : UInt64) :
    (renderExamples lines depth).map (Node.relocate m levels) =
      renderExamples lines (depth + levels) := by
  rw [renderExamples, renderExamples]
  split <;> rfl

/-! ### Functions -/

section Function

variable {ctx : Context} {submodule : String} (hm : m ≠ "") (hmodule : ctx.module? = none)
  (hsub : submodule ≠ "") (hcurrent : ctx.submodule? = some submodule)

include hm hmodule hsub hcurrent

/-- Where there is no module, the label of a function of the submodule gets the module in
front when the context is moved into it. -/
theorem Context.label_relocated (function : String) :
    ((ctx.relocated m levels).inFunction function).label =
      m ++ "." ++ (ctx.inFunction function).label := by
  have hlabel := label_some_module hm hsub (some function)
  simpa only [label, relocated, inFunction, hmodule, hcurrent] using hlabel

/-- **A link is moved with the context unless it shows a dot,** for that is how names are told
which say themselves where they lead. -/
theorem SeeAlso.link?_relocated {entry : SeeAlso.Entry} (h : entry.IsProper) :
    SeeAlso.link? (ctx.relocated m levels) entry =
      (SeeAlso.link? ctx entry).map (Node.relocate m levels) := by
  cases entry with
  | text text => rfl
  | reference name qualified =>
    obtain ⟨-, rfl⟩ := h
    have hshown : shownText [.text name] = name.toList := List.append_nil _
    rw [link?, link?, Option.map_some, Node.anchorLink, Node.anchorLink, Node.relocate, hshown,
      addressIn_label, resolve, resolve, List.contains_eq_mem]
    by_cases hdot : '.' ∈ name.toList
    · simp only [hdot, decide_true, if_true]
      rfl
    · simp only [hdot, decide_false, if_false, Bool.false_eq_true]
      rw [Context.label_relocated hm hmodule hsub hcurrent]
      rfl

theorem SeeAlso.map_relocate_links {all : List SeeAlso.Entry} (h : ∀ entry ∈ all, entry.IsProper) :
    (all.filterMap (SeeAlso.link? ctx)).map (Node.relocate m levels) =
      all.filterMap (SeeAlso.link? (ctx.relocated m levels)) := by
  rw [List.map_filterMap]
  refine List.filterMap_congr fun entry hentry => ?_
  exact (link?_relocated hm hmodule hsub hcurrent (h entry hentry)).symm

section Room

variable (hroom : ctx.depth.toNat + levels.toNat + 1 < UInt64.size)

include hroom

omit hm hmodule hsub hcurrent in
theorem Context.depth_nested_relocated :
    (ctx.relocated m levels).nested.depth = ctx.nested.depth + levels :=
  deeper_add hroom

theorem SeeAlso.map_relocate_render (value : Json) :
    (SeeAlso.render value ctx).map (Node.relocate m levels) =
      SeeAlso.render value (ctx.relocated m levels) := by
  have hlinks : ((entries value).filterMap (link? ctx)).map (Node.relocate m levels) =
      (entries value).filterMap (link? (ctx.relocated m levels)) :=
    map_relocate_links hm hmodule hsub hcurrent fun _ => isProper_of_mem_entries
  have hparagraph (links : List Node) :
      (Node.paragraph (links.intersperse (.text ", "))).relocate m levels =
        .paragraph ((links.map (Node.relocate m levels)).intersperse (.text ", ")) := by
    rw [Node.relocate, Node.relocateList_eq_map, Node.map_intersperse _ rfl]
  simp only [render, ← hlinks, List.isEmpty_map, Context.depth_nested_relocated hroom]
  split
  · rfl
  · rw [List.map_cons, List.map_append, Node.relocate_titled]
    congr 2
    · split
      · rfl
      · rw [List.map_singleton, hparagraph]
    · split <;> rfl

variable (hparse : parse.Lacks Node.isPlace)

include hparse

/-- **A section is moved with its function.** -/
theorem Docstring.map_relocate_renderSection (name : String) (doc : Docstring) (part : Section) :
    (doc.renderSection name parse ctx part).map (Node.relocate m levels) =
      doc.renderSection name parse (ctx.relocated m levels) part := by
  have hinner : (ctx.relocated m levels).nested.inFunction name =
      (ctx.nested.inFunction name).relocated m levels := by
    rw [Context.inFunction, Context.nested, Context.relocated, Context.relocated,
      deeper_add hroom]
    rfl
  have hdepth : ((ctx.nested.inFunction name).relocated m levels).depth =
      (ctx.nested.inFunction name).depth + levels := rfl
  cases part with
  | summary =>
    simp only [renderSection, Node.map_optional, renderSummary, map_relocate_prose hparse]
  | extendedSummary =>
    simp only [renderSection, Node.map_optional, renderProse, map_relocate_prose hparse]
  | group g =>
    simp only [renderSection, Node.map_optional, map_relocate_renderList hparse, hinner]
  | notes =>
    simp only [renderSection, Node.map_optional, map_relocate_renderTitled hparse, hinner, hdepth]
  | references =>
    simp only [renderSection, Node.map_optional, renderReferences,
      map_relocate_renderTitled hparse, hinner, hdepth]
  | examples =>
    simp only [renderSection, Node.map_optional, map_relocate_renderExamples, hinner, hdepth]
  | seeAlso =>
    simp only [renderSection, Node.map_optional,
      SeeAlso.map_relocate_render hm hmodule hsub hcurrent hroom]

theorem Docstring.map_relocate_render (name : String) (doc : Docstring) :
    (doc.render name parse ctx).map (Node.relocate m levels) =
      doc.render name parse (ctx.relocated m levels) := by
  have hlabel : ((ctx.relocated m levels).inFunction name).label =
      m ++ "." ++ (ctx.inFunction name).label :=
    Context.label_relocated hm hmodule hsub hcurrent name
  have htarget : (Node.target (ctx.nested.inFunction name).label).relocate m levels =
      .target ((ctx.relocated m levels).nested.inFunction name).label :=
    congrArg Node.target hlabel.symm
  rw [render, render, List.map_cons, List.map_cons, List.map_flatMap, htarget]
  simp only [map_relocate_renderSection hm hmodule hsub hcurrent hroom hparse]
  rfl

end Room
end Function

/-! ### Submodules and catalogs -/

theorem map_relocate_renderSubmodule (hparse : parse.Lacks Node.isPlace) {ctx : Context}
    {name : String} (hm : m ≠ "") (hmodule : ctx.module? = none) (hname : name ≠ "")
    (hroom : ctx.depth.toNat + levels.toNat + 2 < UInt64.size) (functions : Submodule) :
    (renderSubmodule name functions parse ctx).map (Node.relocate m levels) =
      renderSubmodule name functions parse (ctx.relocated m levels) := by
  have hlabel : label (some m) (some name) none =
      m ++ "." ++ label ctx.module? (some name) none := by
    rw [hmodule, label_some_module hm hname]
  have htarget : (Node.target (ctx.nested.inSubmodule name).outsideFunction.label).relocate m
        levels =
      .target ((ctx.relocated m levels).nested.inSubmodule name).outsideFunction.label :=
    congrArg Node.target hlabel.symm
  have hmodule' : (ctx.nested.inSubmodule name).outsideFunction.module? = none := hmodule
  have hnested : (deeper ctx.depth).toNat + levels.toNat + 1 < UInt64.size := by
    rw [toNat_deeper]
    omega
  have hinner : ((ctx.relocated m levels).nested.inSubmodule name).outsideFunction =
      (ctx.nested.inSubmodule name).outsideFunction.relocated m levels := by
    have hdepth : (ctx.relocated m levels).nested.depth = ctx.nested.depth + levels :=
      Context.depth_nested_relocated (by omega)
    rw [Context.outsideFunction, Context.inSubmodule, hdepth]
    rfl
  rw [renderSubmodule, renderSubmodule, List.map_cons, List.map_cons, List.map_flatMap, htarget,
    hinner, Node.relocate_titled]
  congr 2
  refine List.flatMap_congr fun entry _ => ?_
  exact Docstring.map_relocate_render hm hmodule' hname rfl hnested hparse entry.1 entry.2

/-- **The depth and the module of a context do no more than move the document.**  Let a catalog
be rendered in no module at some depth, and then in a module and some levels further down,
without running out of depths.  If its prose has no headings, targets and links, the second
document is the first with every heading that many levels deeper, and the name of the module in
front of every label and of the address of every link that does not show a dot. -/
theorem render_relocated {catalog : Catalog} (hnames : "" ∉ catalog.names)
    (hparse : parse.Lacks Node.isPlace) (hm : m ≠ "") {ctx : Context}
    (hmodule : ctx.module? = none)
    (hroom : ctx.depth.toNat + levels.toNat + 2 ≤ 2 ^ 64 - 1) (target? : Option String) :
    catalog.render target? parse (ctx.relocated m levels) =
      (catalog.render target? parse ctx).map (Node.relocate m levels) := by
  have hsize : UInt64.size = 2 ^ 64 := rfl
  have hname : ∀ name functions, (name, functions) ∈ catalog.entries → name ≠ "" := by
    rintro name functions hmem rfl
    exact hnames (List.mem_map_of_mem hmem)
  refine Catalog.render_eq_map ?_ ?_ target?
  · intro name functions hs
    exact (map_relocate_renderSubmodule hparse hm hmodule (hname name functions hs) (by omega)
      functions).symm
  · intro submodule functions name doc hs _
    have hmodule' : (ctx.inSubmodule submodule).module? = none := hmodule
    have hinside : ctx.depth.toNat + levels.toNat + 1 < UInt64.size := by omega
    exact (Docstring.map_relocate_render hm hmodule' (hname submodule functions hs) rfl hinside
      hparse name doc).symm

end Relocation

/-- A catalog of a function that refers to one beside it and to one elsewhere. -/
def Catalog.crossing : Catalog where
  entries := [("filters", {
    entries := [("blur", {
      notes := some "Slow."
      seeAlso := some (.array [
        .array [.string "sobel", .null], .array [.string "ndimage.sobel", .null]]) })]
    nodup := by decide })]
  nodup := by decide

/-- Three levels down and in a module, the link to the function beside it is another one, and
the link to the function elsewhere is the same. -/
theorem render_relocated_crossing :
    "" ∉ Catalog.crossing.names ∧
      Catalog.crossing.render (some "filters.blur")
          (fun source => { children := [.paragraph [.text source]] })
          (Context.relocated { depth := 2 } "pkg" 3) =
        [.target "pkg.filters.blur", .titled 5 "blur",
          .titled 6 "Notes", .paragraph [.text "Slow."],
          .titled 6 "See Also", .paragraph [.anchorLink "pkg.filters.sobel" "sobel",
            .text ", ", .anchorLink "ndimage.sobel" "ndimage.sobel"]] := by
  have hnames : "" ∉ Catalog.crossing.names := by decide
  have hparse : ProseParser.Lacks (fun source => { children := [.paragraph [.text source]] })
      Node.isPlace := fun _ => rfl
  have hmodule : Context.module? { depth := 2 } = none := rfl
  have hroom : (2 : UInt64).toNat + (3 : UInt64).toNat + 2 ≤ 2 ^ 64 - 1 := by decide
  have hm : "pkg" ≠ "" := by decide
  have h := render_relocated hnames hparse hm hmodule hroom (some "filters.blur")
  refine ⟨hnames, h.trans ?_⟩
  have hfirst : Catalog.crossing.render (some "filters.blur")
          (fun source => { children := [.paragraph [.text source]] }) { depth := 2 } =
        [.target "filters.blur", .titled 2 "blur",
          .titled 3 "Notes", .paragraph [.text "Slow."],
          .titled 3 "See Also", .paragraph [.anchorLink "filters.sobel" "sobel",
            .text ", ", .anchorLink "ndimage.sobel" "ndimage.sobel"]] := by rfl
  rw [hfirst]
  have hlink : (Node.anchorLink "filters.sobel" "sobel").relocate "pkg" 3 =
      .anchorLink "pkg.filters.sobel" "sobel" := by
    rw [Node.anchorLink, Node.relocate, addressIn_label, if_neg (by decide)]
    rfl
  have hother : (Node.anchorLink "ndimage.sobel" "ndimage.sobel").relocate "pkg" 3 =
      .anchorLink "ndimage.sobel" "ndimage.sobel" := by
    rw [Node.anchorLink, Node.relocate, if_pos (by decide)]
    rfl
  simp only [List.map_cons, List.map_nil, Node.relocate_titled, Node.relocate, Node.relocateList,
    hlink, hother]
  rfl

end DocTree
