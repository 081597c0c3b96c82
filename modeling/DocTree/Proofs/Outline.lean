/-
# The outline of a document

The landmarks of a document are its targets and headings.  Those of a rendered catalog
are determined by the names in it and by which sections of its functions have something
to show (`outline_renderCatalog`), as long as the prose that is put in between has none
of its own; the markup of this library never has (`outline_markup`).
-/

import DocTree.Proofs.Context
import DocTree.Proofs.Prose
import DocTree.Proofs.Render

namespace DocTree

/-- Whether a node is a target or a heading. -/
def Node.isLandmark : Node → Bool
  | heading .. | target _ => true
  | _ => false

/-- The targets and headings at any level of some trees, in document order. -/
def outline (nodes : List Node) : List Node :=
  Node.pick Node.isLandmark nodes

/-- Whether a parser puts no target and no heading at any level of a tree. -/
def ProseParser.HasNoLandmarks (parse : ProseParser) : Prop :=
  ∀ source, outline (parse source).children = []

/-- Whether a section of a docstring has a heading when it is rendered. -/
def Docstring.showsHeading (doc : Docstring) : Section → Bool
  | .summary | .extendedSummary => false
  | .group g => (doc.group g).any fun list => !list.isEmpty
  | .notes => doc.notes.isSome
  | .references => doc.references.isSome
  | .examples => doc.examples.any fun lines => !lines.isEmpty
  | .seeAlso => doc.seeAlso.any fun value => !(SeeAlso.entries value).isEmpty

/-- The landmarks that a catalog calls for in a module of a name, if it has one, when its
submodules have headings at a depth. -/
def Catalog.outline (catalog : Catalog) (module? : Option String) (depth : UInt64) : List Node :=
  catalog.entries.flatMap fun (s, functions) =>
    .target (label module? (some s) none) :: .titled depth s ::
      functions.entries.flatMap fun (f, doc) =>
        .target (label module? (some s) (some f)) :: .titled (depthBelow depth 1) f ::
          (Section.all.filter doc.showsHeading).map fun part =>
            .titled (depthBelow depth 2) part.title

theorem outline_append (ms ns : List Node) : outline (ms ++ ns) = outline ms ++ outline ns :=
  Node.pick_append ms ns

theorem outline_cons (node : Node) (nodes : List Node) :
    outline (node :: nodes) = outline [node] ++ outline nodes :=
  outline_append [node] nodes

/-! ### Prose -/

theorem isLandmark_eq_false_of_isProse {node : Node} (h : node.isProse = true) :
    node.isLandmark = false := by
  cases node <;> first | rfl | cases h

/-- **The markup of this library has no landmarks.** -/
theorem outline_markup : ProseParser.HasNoLandmarks Markup.parse :=
  Markup.pick_parse fun _ => isLandmark_eq_false_of_isProse

/-! ### Sections -/

variable {parse : ProseParser}

theorem outline_renderTitled (hparse : parse.HasNoLandmarks) (title text : String)
    (depth : UInt64) : outline (renderTitled title text parse depth) = [.titled depth title] := by
  have h : Node.pick Node.isLandmark (parse text).children = [] := hparse text
  rw [renderTitled, outline, Node.pick_cons, h]
  rfl

theorem outline_term (p : Parameter) : outline [p.term] = [] := by
  rw [Parameter.term]
  split <;> rfl

theorem outline_parameter (hparse : parse.HasNoLandmarks) (p : Parameter) :
    outline (p.render parse) = [] := by
  have hterm : Node.pick Node.isLandmark [p.term] = [] := outline_term p
  have hdesc : Node.pick Node.isLandmark (parse p.description).children = [] :=
    hparse p.description
  rw [Parameter.render, outline, Node.pick_first, hterm, Node.pick_cons, Node.children, hdesc]
  rfl

theorem outline_renderList (hparse : parse.HasNoLandmarks) (title : String)
    (list : List Parameter) (ctx : Context) :
    outline (Parameter.renderList title list parse ctx) =
      if list.isEmpty then [] else [.titled ctx.depth title] := by
  rw [Parameter.renderList]
  split
  · rfl
  · have hentries : Node.pick Node.isLandmark (list.flatMap (Parameter.render parse)) = [] := by
      rw [Node.pick_flatMap, List.flatMap_eq_nil_iff]
      exact fun p _ => outline_parameter hparse p
    rw [outline, Node.pick_first, Node.pick_cons (.definitionList _), Node.children, hentries]
    rfl

theorem outline_renderExamples (lines : List String) (depth : UInt64) :
    outline (renderExamples lines depth) =
      if lines.isEmpty then [] else [.titled depth "Examples"] := by
  rw [renderExamples]
  split <;> rfl

theorem outline_seeAlso (value : Json) (ctx : Context) :
    outline (SeeAlso.render value ctx) =
      if (SeeAlso.entries value).isEmpty then [] else [.titled ctx.nested.depth "See Also"] := by
  have hrunning (node : Node) (h : node.isRunningText = true) : node.isLandmark = false := by
    cases node <;> first | rfl | cases h
  exact SeeAlso.pick_render hrunning value ctx

theorem outline_optional {α : Type} (f : α → List Node) (x : Option α) :
    outline ((x.map f).getD []) = (x.map fun a => outline (f a)).getD [] :=
  Node.pick_optional f x

/-- **A section has its heading, if it has one to show, and no other landmark.** -/
theorem outline_renderSection (hparse : parse.HasNoLandmarks) (name : String)
    (doc : Docstring) (ctx : Context) (part : Section) :
    outline (doc.renderSection name parse ctx part) =
      if doc.showsHeading part then [.titled ctx.nested.depth part.title] else [] := by
  have hprose : ∀ source, outline (parse source).children = [] := hparse
  cases part with
  | summary =>
    simp only [Docstring.renderSection, outline_optional, renderSummary, hprose]
    cases doc.summary <;> rfl
  | extendedSummary =>
    simp only [Docstring.renderSection, outline_optional, renderProse, hprose]
    cases doc.extendedSummary <;> rfl
  | group g =>
    have hshows : doc.showsHeading (.group g) = (doc.group g).any fun list => !list.isEmpty := rfl
    rw [hshows, Docstring.renderSection, outline_optional]
    simp only [outline_renderList hparse]
    rcases doc.group g with _ | _ | _ <;> rfl
  | notes =>
    have hshows : doc.showsHeading .notes = doc.notes.isSome := rfl
    rw [hshows, Docstring.renderSection, outline_optional]
    simp only [outline_renderTitled hparse]
    cases doc.notes <;> rfl
  | references =>
    have hshows : doc.showsHeading .references = doc.references.isSome := rfl
    rw [hshows, Docstring.renderSection, outline_optional]
    simp only [renderReferences, outline_renderTitled hparse]
    cases doc.references <;> rfl
  | examples =>
    have hshows : doc.showsHeading .examples = doc.examples.any fun lines => !lines.isEmpty := rfl
    rw [hshows, Docstring.renderSection, outline_optional]
    simp only [outline_renderExamples]
    rcases doc.examples with _ | _ | _ <;> rfl
  | seeAlso =>
    have hshows : doc.showsHeading .seeAlso =
        doc.seeAlso.any fun value => !(SeeAlso.entries value).isEmpty := rfl
    rw [hshows, Docstring.renderSection, outline_optional]
    simp only [outline_seeAlso]
    cases doc.seeAlso with
    | none => rfl
    | some value =>
      rw [Option.map_some, Option.getD_some, Option.any_some]
      cases SeeAlso.entries value <;> rfl

/-! ### Functions, submodules and catalogs -/

theorem outline_sections (hparse : parse.HasNoLandmarks) (name : String) (doc : Docstring)
    (ctx : Context) (parts : List Section) :
    outline (parts.flatMap (doc.renderSection name parse ctx)) =
      (parts.filter doc.showsHeading).map fun part => .titled ctx.nested.depth part.title := by
  induction parts with
  | nil => rfl
  | cons part parts ih =>
    rw [List.flatMap_cons, outline_append, outline_renderSection hparse, ih, List.filter_cons]
    split <;> rfl

theorem outline_target_titled (label : String) (depth : UInt64) (title : String)
    (nodes : List Node) :
    outline (.target label :: .titled depth title :: nodes) =
      .target label :: .titled depth title :: outline nodes := by
  rw [outline_cons, outline_cons (.titled depth title)]
  rfl

theorem outline_function (hparse : parse.HasNoLandmarks) (name : String) (doc : Docstring)
    (ctx : Context) :
    outline (doc.render name parse ctx) =
      .target (label ctx.module? ctx.submodule? (some name)) :: .titled ctx.depth name ::
        (Section.all.filter doc.showsHeading).map fun part =>
          .titled ctx.nested.depth part.title := by
  rw [Docstring.render, outline_target_titled, outline_sections hparse]
  rfl

theorem outline_renderSubmodule (hparse : parse.HasNoLandmarks) (name : String)
    (functions : Submodule) (ctx : Context) :
    outline (renderSubmodule name functions parse ctx) =
      .target (label ctx.module? (some name) none) :: .titled ctx.depth name ::
        functions.entries.flatMap fun (f, doc) =>
          .target (label ctx.module? (some name) (some f)) :: .titled (depthBelow ctx.depth 1) f ::
            (Section.all.filter doc.showsHeading).map fun part =>
              .titled (depthBelow ctx.depth 2) part.title := by
  have hnested : ctx.nested.depth = depthBelow ctx.depth 1 := deeper_eq_depthBelow ctx.depth
  have htwice : ctx.nested.nested.depth = depthBelow ctx.depth 2 := by
    rw [← deeper_depthBelow ctx.depth 1, ← hnested]
    rfl
  rw [renderSubmodule, outline_target_titled, outline, Node.pick_flatMap, ← hnested, ← htwice]
  congr 3
  funext entry
  exact outline_function hparse entry.1 entry.2 _

/-- **The outline of a document is determined by its record.**  Each submodule and each
function has a target and a heading, a function one level below its submodule; the
sections of a function that show a heading have it one level below that, in the order of
the sections.  Nothing else is a landmark where the prose has none, as that of the markup
of this library. -/
theorem outline_renderCatalog (catalog : Catalog) (ctx : Context) :
    ProseParser.HasNoLandmarks Markup.parse ∧
      ∀ parse : ProseParser, parse.HasNoLandmarks →
        outline (renderCatalog catalog parse ctx) = catalog.outline ctx.module? ctx.depth := by
  refine ⟨outline_markup, fun parse hparse => ?_⟩
  rw [renderCatalog, outline, Node.pick_flatMap, Catalog.outline]
  congr 1
  funext entry
  exact outline_renderSubmodule hparse entry.1 entry.2 ctx

/-- The outline of a catalog of two submodules, at the two deepest levels: a section that is
empty shows no heading, and no heading is deeper than the last level. -/
theorem outline_renderCatalog_sample :
    outline (renderCatalog Catalog.sample Markup.parse
        { depth := .ofNat (UInt64.size - 2), module? := some "pkg" }) =
      [.target "pkg.filters", .titled (.ofNat (UInt64.size - 2)) "filters",
        .target "pkg.filters.blur", .titled (.ofNat (UInt64.size - 1)) "blur",
        .titled (.ofNat (UInt64.size - 1)) "Parameters",
        .titled (.ofNat (UInt64.size - 1)) "See Also",
        .target "pkg.filters.sobel", .titled (.ofNat (UInt64.size - 1)) "sobel",
        .titled (.ofNat (UInt64.size - 1)) "Notes",
        .titled (.ofNat (UInt64.size - 1)) "Examples",
        .target "pkg.io", .titled (.ofNat (UInt64.size - 2)) "io",
        .target "pkg.io.read", .titled (.ofNat (UInt64.size - 1)) "read",
        .titled (.ofNat (UInt64.size - 1)) "References"] := by
  have h := outline_renderCatalog Catalog.sample
    { depth := .ofNat (UInt64.size - 2), module? := some "pkg" }
  refine (h.2 Markup.parse h.1).trans ?_
  rfl

end DocTree
