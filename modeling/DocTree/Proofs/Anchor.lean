/-
# Links and what they land on

A function that refers to another of its submodule links to the target in front of that
one's heading, on every way the two can be rendered (`seeAlso_link_lands`).  The label of
the target is made in a context one level down, that of the link in the context of the
function it stands in; what the two contexts have in common, the module and the
submodule, is all that a label takes from them.
-/

import DocTree.Markup.Block
import DocTree.Proofs.Listing
import DocTree.Proofs.Render
import DocTree.Proofs.SeeAlso

namespace DocTree

/-- Whether a paragraph among some nodes has a link to an address, shown as a text. -/
def HasLink (nodes : List Node) (url display : String) : Prop :=
  ∃ children, .paragraph children ∈ nodes ∧ .link url [.text display] ∈ children

/-- The context in which the functions of a submodule are rendered. -/
def Context.amongFunctions (ctx : Context) (submodule : String) : Context :=
  (ctx.nested.inSubmodule submodule).outsideFunction

/-- What a submodule is rendered to in front of one of its functions. -/
def Submodule.renderBefore (functions : Submodule) (function submodule : String)
    (parse : ProseParser) (ctx : Context) : List Node :=
  .target (label ctx.module? (some submodule) none) :: .titled ctx.depth submodule ::
    (functions.before function).flatMap fun entry =>
      entry.2.render entry.1 parse (ctx.amongFunctions submodule)

/-- What a catalog is rendered to in front of one of its submodules. -/
def Catalog.renderBefore (catalog : Catalog) (submodule : String) (parse : ProseParser)
    (ctx : Context) : List Node :=
  (catalog.before submodule).flatMap fun entry => renderSubmodule entry.1 entry.2 parse ctx

variable {catalog : Catalog} {s f g : String} {functions : Submodule} {doc : Docstring}

/-! ### Where a function stands -/

theorem prefix_renderSubmodule (hf : (f, doc) ∈ functions.entries) (parse : ProseParser)
    (ctx : Context) :
    functions.renderBefore f s parse ctx ++ doc.render f parse (ctx.amongFunctions s) <+:
      renderSubmodule s functions parse ctx := by
  obtain ⟨after, hentries⟩ := Listing.exists_entries_eq hf
  refine ⟨after.flatMap fun entry => entry.2.render entry.1 parse (ctx.amongFunctions s), ?_⟩
  rw [renderSubmodule, hentries, List.flatMap_append, List.flatMap_cons,
    Submodule.renderBefore, List.cons_append, List.cons_append, List.cons_append,
    List.cons_append, List.append_assoc]
  rfl

theorem prefix_renderCatalog (hs : (s, functions) ∈ catalog.entries) (parse : ProseParser)
    (ctx : Context) :
    catalog.renderBefore s parse ctx ++ renderSubmodule s functions parse ctx <+:
      renderCatalog catalog parse ctx := by
  obtain ⟨after, hentries⟩ := Listing.exists_entries_eq hs
  refine ⟨after.flatMap fun entry => renderSubmodule entry.1 entry.2 parse ctx, ?_⟩
  rw [renderCatalog, hentries, List.flatMap_append, List.flatMap_cons, Catalog.renderBefore,
    List.append_assoc]

/-- A function begins with its target and heading. -/
theorem prefix_render (name : String) (doc : Docstring) (parse : ProseParser) (ctx : Context) :
    [.target (label ctx.module? ctx.submodule? (some name)), .titled ctx.depth name] <+:
      doc.render name parse ctx :=
  List.prefix_append [_, _] _

/-- The section of references is the last of a function. -/
theorem suffix_render (name : String) (doc : Docstring) (parse : ProseParser) (ctx : Context) :
    doc.renderSection name parse ctx .seeAlso <:+ doc.render name parse ctx := by
  have hlast : Section.all = Section.all.dropLast ++ [.seeAlso] := rfl
  rw [Docstring.render, hlast, List.flatMap_append, List.flatMap_singleton]
  exact (List.suffix_append _ _).trans
    ((List.suffix_cons _ _).trans (List.suffix_cons _ _))

/-! ### Where a reference leads -/

/-- A reference without a dot is shown as a link to the neighbour of its name. -/
theorem hasLink_of_reference {value : Json} (hvalue : doc.seeAlso = some value)
    (href : .reference g false ∈ SeeAlso.entries value) (name : String) (parse : ProseParser)
    (ctx : Context) :
    HasLink (doc.renderSection name parse ctx .seeAlso)
      ("#" ++ label ctx.module? ctx.submodule? (some g)) g := by
  have hlink : .link ("#" ++ label ctx.module? ctx.submodule? (some g)) [.text g] ∈
      (SeeAlso.entries value).filterMap (SeeAlso.link? ctx) :=
    List.mem_filterMap.2 ⟨_, href, rfl⟩
  have hentries : SeeAlso.entries value ≠ [] := List.ne_nil_of_mem href
  have hlinks : (SeeAlso.entries value).filterMap (SeeAlso.link? ctx) ≠ [] :=
    List.ne_nil_of_mem hlink
  refine ⟨_, ?_, SeeAlso.mem_intersperse (.text ", ") hlink⟩
  rw [Docstring.renderSection, hvalue, Option.map_some, Option.getD_some,
    SeeAlso.render_of_ne_nil hentries, if_neg hlinks]
  exact List.mem_cons_of_mem _ (List.mem_append_left _ (List.mem_singleton_self _))

/-- Whether the references of a function, as they are rendered in a context, stand among
some nodes and link to an address, shown as a text. -/
def Docstring.RefersIn (doc : Docstring) (name : String) (parse : ProseParser) (ctx : Context)
    (nodes : List Node) (url display : String) : Prop :=
  doc.renderSection name parse ctx .seeAlso <:+: nodes ∧
    HasLink (doc.renderSection name parse ctx .seeAlso) url display

/-- **A reference to a neighbour lands on the neighbour.**  Let a function of a submodule
refer, by a name without a dot, to a function of the same submodule.  Then the same
label is that of the target right in front of the neighbour's heading, in the document of
the submodule and in that of the catalog, and that of a link shown as the neighbour's
name in the references of the function, in these two documents and where the function is
rendered alone; whatever submodule and function the context was in before. -/
theorem seeAlso_link_lands {value : Json} (hs : (s, functions) ∈ catalog.entries)
    (hf : (f, doc) ∈ functions.entries) (hg : g ∈ functions.names)
    (hvalue : doc.seeAlso = some value) (href : .reference g false ∈ SeeAlso.entries value)
    (parse : ProseParser) (ctx : Context) :
    ∃ anchor, anchor = label ctx.module? (some s) (some g) ∧
      functions.renderBefore g s parse ctx ++
          [.target anchor, .titled (deeper ctx.depth) g] <+:
        renderSubmodule s functions parse ctx ∧
      catalog.renderBefore s parse ctx ++ (functions.renderBefore g s parse ctx ++
          [.target anchor, .titled (deeper ctx.depth) g]) <+:
        renderCatalog catalog parse ctx ∧
      doc.RefersIn f parse (ctx.amongFunctions s) (renderSubmodule s functions parse ctx)
        ("#" ++ anchor) g ∧
      doc.RefersIn f parse (ctx.amongFunctions s) (renderCatalog catalog parse ctx)
        ("#" ++ anchor) g ∧
      doc.RefersIn f parse (ctx.inSubmodule s) (doc.render f parse (ctx.inSubmodule s))
        ("#" ++ anchor) g := by
  obtain ⟨neighbour, hneighbour⟩ : ∃ neighbour, (g, neighbour) ∈ functions.entries := by
    simpa [Listing.names] using hg
  have hcatalog := prefix_renderCatalog hs parse ctx
  have hlanding : functions.renderBefore g s parse ctx ++
      [.target (label ctx.module? (some s) (some g)), .titled (deeper ctx.depth) g] <+:
        renderSubmodule s functions parse ctx :=
    ((List.prefix_append_right_inj _).2 (prefix_render g neighbour parse _)).trans
      (prefix_renderSubmodule hneighbour parse ctx)
  have hsubmodule : doc.renderSection f parse (ctx.amongFunctions s) .seeAlso <:+:
      renderSubmodule s functions parse ctx := by
    have hsuffix := suffix_render f doc parse (ctx.amongFunctions s)
    have hfunction := (List.suffix_append (functions.renderBefore f s parse ctx)
      (doc.render f parse (ctx.amongFunctions s))).isInfix
    exact hsuffix.isInfix.trans (hfunction.trans (prefix_renderSubmodule hf parse ctx).isInfix)
  have hwithin : renderSubmodule s functions parse ctx <:+: renderCatalog catalog parse ctx :=
    (List.suffix_append _ _).isInfix.trans hcatalog.isInfix
  have hlink := hasLink_of_reference hvalue href f parse
  refine ⟨_, rfl, hlanding, ?_, ⟨hsubmodule, ?_⟩, ⟨hsubmodule.trans hwithin, ?_⟩, ?_, ?_⟩
  · exact ((List.prefix_append_right_inj _).2 hlanding).trans hcatalog
  · exact hlink (ctx.amongFunctions s)
  · exact hlink (ctx.amongFunctions s)
  · exact (suffix_render f doc parse (ctx.inSubmodule s)).isInfix
  · exact hlink (ctx.inSubmodule s)

/-- The reference of `filters.blur` to `filters.sobel`, rendered in a context that was in
another submodule and function. -/
theorem seeAlso_link_lands_sample :
    ("filters", Submodule.sample) ∈ Catalog.sample.entries ∧
      ("blur", Docstring.sample) ∈ Submodule.sample.entries ∧
      "sobel" ∈ Submodule.sample.names ∧
      Submodule.sample.renderBefore "sobel" "filters" Markup.parse
            { module? := some "pkg", submodule? := some "io", function? := some "read" } ++
          [.target "pkg.filters.sobel", .titled 2 "sobel"] <+:
        renderSubmodule "filters" Submodule.sample Markup.parse
          { module? := some "pkg", submodule? := some "io", function? := some "read" } ∧
      Docstring.sample.RefersIn "blur" Markup.parse
        { module? := some "pkg", submodule? := some "filters", function? := some "read" }
        (Docstring.sample.render "blur" Markup.parse
          { module? := some "pkg", submodule? := some "filters", function? := some "read" })
        "#pkg.filters.sobel" "sobel" := by
  have hs : ("filters", Submodule.sample) ∈ Catalog.sample.entries := List.mem_cons_self ..
  have hf : ("blur", Docstring.sample) ∈ Submodule.sample.entries := List.mem_cons_self ..
  have hg : "sobel" ∈ Submodule.sample.names := by decide
  have href : SeeAlso.Entry.reference "sobel" false ∈
      SeeAlso.entries (.array [.array [.string "sobel", .null], .string "Faster."]) := by decide
  obtain ⟨anchor, hanchor, hlanding, -, -, -, halone⟩ := seeAlso_link_lands hs hf hg rfl href
    Markup.parse { module? := some "pkg", submodule? := some "io", function? := some "read" }
  have hlabel : anchor = "pkg.filters.sobel" := hanchor.trans (by decide)
  subst hlabel
  exact ⟨hs, hf, hg, hlanding, halone⟩

end DocTree
