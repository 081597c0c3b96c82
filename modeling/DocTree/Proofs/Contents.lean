/-
# What a document is made of besides prose

Targets, terms and blocks of code are what a reader looks for in a document.  Those of a
rendered catalog are determined by the catalog (`Catalog.contents`), whichever of the three
kinds one asks for, as long as the prose that is put in between has none of that kind
(`pick_renderCatalog`).
-/

import DocTree.Proofs.Prose
import DocTree.Render

namespace DocTree

/-- Whether a node is a target, a term or a block of code. -/
def Node.isContent : Node → Bool
  | target _ | definitionTerm _ | code .. => true
  | _ => false

/-- The term of an entry: its name, or its type if it has no name; and after a name the
type, emphasised, if there is one. -/
def Parameter.shownTerm (p : Parameter) : Node :=
  if p.name = "" then .definitionTerm [.text p.type]
  else if p.type = "" then .definitionTerm [.text p.name]
  else .definitionTerm [.text p.name, .text " : ", .emphasis [.text p.type]]

namespace Docstring

/-- The parameter lists of a docstring under their headings, in the order of the document. -/
def lists (doc : Docstring) : List (String × Option (List Parameter)) :=
  [("Parameters", doc.parameters), ("Other Parameters", doc.otherParameters),
    ("Returns", doc.returns), ("Yields", doc.yields), ("Receives", doc.receives),
    ("Raises", doc.raises), ("Warns", doc.warns), ("Attributes", doc.attributes)]

/-- The terms of a docstring, list by list. -/
def terms (doc : Docstring) : List Node :=
  doc.lists.flatMap fun (_, list?) => (list?.getD []).map Parameter.shownTerm

/-- The block of code of a docstring: its example session, if it has a line. -/
def exampleCode (doc : Docstring) : List Node :=
  match doc.examples with
  | none | some [] => []
  | some lines => [.code "python" ("\n".intercalate lines)]

/-- What a section of a docstring has besides prose. -/
def sectionContents (doc : Docstring) : Section → List Node
  | .group g => ((doc.group g).getD []).map Parameter.shownTerm
  | .examples => doc.exampleCode
  | _ => []

end Docstring

/-- The targets, terms and blocks of code that a catalog calls for in a module of a name, if
it has one. -/
def Catalog.contents (catalog : Catalog) (module? : Option String) : List Node :=
  catalog.entries.flatMap fun (s, functions) =>
    .target (label module? (some s) none) ::
      functions.entries.flatMap fun (f, doc) =>
        .target (label module? (some s) (some f)) :: (doc.terms ++ doc.exampleCode)

theorem Parameter.term_eq_shownTerm (p : Parameter) : p.term = p.shownTerm := by
  by_cases hname : p.name = ""
  · simp [term, displayName, typeRemark?, shownTerm, hname]
  by_cases htype : p.type = ""
  · simp [term, displayName, typeRemark?, shownTerm, hname, htype]
  · simp [term, displayName, typeRemark?, shownTerm, hname, htype]

theorem Docstring.map_group (doc : Docstring) :
    (Group.all.map fun g => (g.title, doc.group g)) = doc.lists :=
  rfl

/-- The contents of all sections are the terms and the block of code. -/
theorem Docstring.flatMap_sectionContents (doc : Docstring) :
    Section.all.flatMap doc.sectionContents = doc.terms ++ doc.exampleCode := by
  have hgroups : (Group.all.map Section.group).flatMap doc.sectionContents = doc.terms := by
    rw [terms, ← doc.map_group, List.flatMap_map, List.flatMap_map]
    rfl
  rw [Section.all, List.flatMap_append, List.flatMap_append, hgroups]
  simp [sectionContents]

/-! ### Trees without contents -/

namespace Node

variable {p q : Node → Bool}

/-- Nothing is picked where nothing passes a weaker test. -/
theorem pick_eq_nil_of_imp (hpq : ∀ node, p node = true → q node = true) {nodes : List Node}
    (h : pick q nodes = []) : pick p nodes = [] := by
  rw [pick, List.filter_eq_nil_iff] at *
  exact fun node hnode hp => h node hnode (hpq node hp)

/-- What is picked from a leaf and what follows it. -/
theorem pick_leaf_cons {leaf : Node} (h : leaf.children = []) {nodes contents : List Node}
    (hrest : pick p nodes = contents.filter p) :
    pick p (leaf :: nodes) = (leaf :: contents).filter p := by
  rw [pick_cons, h, hrest, List.filter_cons, pick_nil, List.append_nil]
  split <;> rfl

end Node

/-! ### Sections -/

/-- Whether no node at any level of what a parser makes of a text passes a test. -/
def ProseParser.Lacks (parse : ProseParser) (p : Node → Bool) : Prop :=
  ∀ source, Node.pick p (parse source).children = []

section Document

variable {p : Node → Bool} {parse : ProseParser}
  (hp : ∀ node, p node = true → node.isContent = true) (hparse : parse.Lacks p)

include hp

theorem eq_false_of_isContent_eq_false {node : Node} (h : node.isContent = false) :
    p node = false := by
  cases hnode : p node with
  | false => rfl
  | true => exact absurd (hp node hnode) (by simp [h])

theorem eq_false_of_isRunningText {node : Node} (h : node.isRunningText = true) :
    p node = false := by
  refine eq_false_of_isContent_eq_false hp ?_
  cases node <;> first | rfl | cases h

theorem pick_titled_cons (depth : UInt64) (title : String) (nodes : List Node) :
    Node.pick p (.titled depth title :: nodes) = Node.pick p nodes := by
  have hheading : Node.pick p [.titled depth title] = [] := Node.pick_eq_nil_of_imp hp rfl
  rw [Node.pick_first, hheading, List.nil_append]

include hparse

/-- Of an entry, nothing but its term is picked. -/
theorem pick_parameter (entry : Parameter) :
    Node.pick p (entry.render parse) = [entry.shownTerm].filter p := by
  have hinside : Node.pick p entry.shownTerm.children = [] := by
    refine Node.pick_eq_nil_of_imp hp ?_
    rw [Parameter.shownTerm]
    split
    · rfl
    · split <;> rfl
  have hdescription : p (.definitionDescription (parse entry.description).children) = false :=
    eq_false_of_isContent_eq_false hp rfl
  rw [Parameter.render, entry.term_eq_shownTerm, Node.pick_cons, Node.pick_cons, hinside,
    hdescription, Node.children, hparse, List.filter_cons]
  simp

theorem pick_renderList (title : String) (list : List Parameter) (ctx : Context) :
    Node.pick p (Parameter.renderList title list parse ctx) =
      (list.map Parameter.shownTerm).filter p := by
  rw [Parameter.renderList]
  split
  · next h => rw [List.isEmpty_iff.1 h]; rfl
  · have hlist : p (.definitionList (list.flatMap (Parameter.render parse))) = false :=
      eq_false_of_isContent_eq_false hp rfl
    have hentries : (list.map Parameter.shownTerm).filter p =
        list.flatMap fun entry => [entry.shownTerm].filter p := by
      rw [List.map_eq_flatMap, List.filter_flatMap]
    rw [pick_titled_cons hp, Node.pick_cons, hlist, Node.children, Node.pick_flatMap, hentries]
    simp only [pick_parameter hp hparse]
    simp

omit hparse in
theorem pick_renderExamples (lines : List String) (depth : UInt64) :
    Node.pick p (renderExamples lines depth) =
      (if lines.isEmpty then [] else [.code "python" ("\n".intercalate lines)]).filter p := by
  rw [renderExamples]
  split
  · rfl
  · rw [pick_titled_cons hp]
    exact Node.pick_leaf_cons rfl rfl

/-- **What is picked from a section is what the section has besides prose.** -/
theorem pick_renderSection (name : String) (doc : Docstring) (ctx : Context)
    (part : Section) :
    Node.pick p (doc.renderSection name parse ctx part) = (doc.sectionContents part).filter p := by
  have hprose : ∀ source, Node.pick p (parse source).children = [] := hparse
  cases part with
  | summary =>
    simp only [Docstring.renderSection, Node.pick_optional, renderSummary, hprose]
    cases doc.summary <;> rfl
  | extendedSummary =>
    simp only [Docstring.renderSection, Node.pick_optional, renderProse, hprose]
    cases doc.extendedSummary <;> rfl
  | group g =>
    simp only [Docstring.renderSection, Node.pick_optional, pick_renderList hp hparse,
      Docstring.sectionContents]
    cases doc.group g <;> rfl
  | notes =>
    simp only [Docstring.renderSection, Node.pick_optional, renderTitled, pick_titled_cons hp,
      hprose]
    cases doc.notes <;> rfl
  | references =>
    simp only [Docstring.renderSection, Node.pick_optional, renderReferences, renderTitled,
      pick_titled_cons hp, hprose]
    cases doc.references <;> rfl
  | examples =>
    simp only [Docstring.renderSection, Node.pick_optional, pick_renderExamples hp,
      Docstring.sectionContents, Docstring.exampleCode]
    rcases doc.examples with _ | _ | _ <;> rfl
  | seeAlso =>
    have hnone (value : Json) : Node.pick p (SeeAlso.render value ctx) = [] := by
      rw [SeeAlso.pick_render fun node => eq_false_of_isRunningText hp, pick_titled_cons hp]
      split <;> rfl
    simp only [Docstring.renderSection, Node.pick_optional, hnone]
    cases doc.seeAlso <;> rfl

/-! ### Functions, submodules and catalogs -/

theorem pick_function (name : String) (doc : Docstring) (ctx : Context) :
    Node.pick p (doc.render name parse ctx) =
      (.target (label ctx.module? ctx.submodule? (some name)) ::
        (doc.terms ++ doc.exampleCode)).filter p := by
  have hsections : Node.pick p (Section.all.flatMap (doc.renderSection name parse ctx)) =
      (doc.terms ++ doc.exampleCode).filter p := by
    rw [← doc.flatMap_sectionContents, Node.pick_flatMap, List.filter_flatMap]
    simp only [pick_renderSection hp hparse]
  rw [Docstring.render]
  exact Node.pick_leaf_cons rfl ((pick_titled_cons hp _ _ _).trans hsections)

theorem pick_renderSubmodule (name : String) (functions : Submodule) (ctx : Context) :
    Node.pick p (renderSubmodule name functions parse ctx) =
      (.target (label ctx.module? (some name) none) ::
        functions.entries.flatMap fun (f, doc) =>
          .target (label ctx.module? (some name) (some f)) ::
            (doc.terms ++ doc.exampleCode)).filter p := by
  have hfunctions : Node.pick p (functions.entries.flatMap fun entry =>
        entry.2.render entry.1 parse (ctx.nested.inSubmodule name).outsideFunction) =
      (functions.entries.flatMap fun (f, doc) =>
        .target (label ctx.module? (some name) (some f)) ::
          (doc.terms ++ doc.exampleCode)).filter p := by
    rw [Node.pick_flatMap, List.filter_flatMap]
    simp only [pick_function hp hparse]
    rfl
  rw [renderSubmodule]
  exact Node.pick_leaf_cons rfl ((pick_titled_cons hp _ _ _).trans hfunctions)

/-- **What a document is made of is determined by its catalog.**  For a test on targets,
terms and blocks of code, the nodes of a rendered catalog that pass are, in order, those that
the catalog calls for, if no node of the prose passes. -/
theorem pick_renderCatalog (catalog : Catalog) (ctx : Context) :
    Node.pick p (renderCatalog catalog parse ctx) = (catalog.contents ctx.module?).filter p := by
  rw [renderCatalog, Node.pick_flatMap, Catalog.contents, List.filter_flatMap]
  simp only [pick_renderSubmodule hp hparse]

end Document

end DocTree
