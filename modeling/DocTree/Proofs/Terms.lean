/-
# Terms and what they stand among

A term of a document is read with what stands around it: the heading above its list, the
list, and the description after it (`Node.TermSite`).  A rendered catalog has the terms of its
parameter lists, each in a list of its own under its own heading and with its own description,
and the blocks of code of its example sessions (`terms_renderCatalog`), as long as the prose
has no terms and no code.
-/

import DocTree.Proofs.Contents
import DocTree.Proofs.Context
import DocTree.Proofs.Render

namespace DocTree
namespace Node

/-- Whether a node is a term. -/
def isTerm : Node → Bool
  | definitionTerm _ => true
  | _ => false

/-- Whether a node is a block of code. -/
def isCode : Node → Bool
  | code .. => true
  | _ => false

/-- A term with what it stands among. -/
structure TermSite where
  /-- The node right before the one that the term is in. -/
  heading? : Option Node
  /-- The node that the term is in. -/
  list? : Option Node
  /-- The term. -/
  term : Node
  /-- The node right after the term. -/
  description? : Option Node

mutual

/-- The terms below a node that stands right after another. -/
def sitesBelow (previous? : Option Node) : Node → List TermSite
  | emphasis children => sitesAmong previous? (some (emphasis children)) none children
  | link url children => sitesAmong previous? (some (link url children)) none children
  | heading depth children => sitesAmong previous? (some (heading depth children)) none children
  | paragraph children => sitesAmong previous? (some (paragraph children)) none children
  | definitionList children => sitesAmong previous? (some (definitionList children)) none children
  | definitionTerm children => sitesAmong previous? (some (definitionTerm children)) none children
  | definitionDescription children =>
    sitesAmong previous? (some (definitionDescription children)) none children
  | admonition kind children =>
    sitesAmong previous? (some (admonition kind children)) none children
  | text _ | inlineCode _ | code _ _ | target _ => []

/-- The terms at any level of some trees, in document order.  The trees stand right after one
and are in one that stands right after another. -/
def sitesAmong (above? within? previous? : Option Node) : List Node → List TermSite
  | [] => []
  | node :: nodes =>
    (if node.isTerm then [⟨above?, within?, node, nodes.head?⟩] else []) ++
      node.sitesBelow previous? ++ sitesAmong above? within? (some node) nodes

end

/-- The terms at any level of a document, in order, with what they stand among. -/
def sites (nodes : List Node) : List TermSite :=
  sitesAmong none none none nodes

theorem sitesBelow_eq (previous? : Option Node) (node : Node) :
    node.sitesBelow previous? = sitesAmong previous? (some node) none node.children := by
  cases node <;> rfl

mutual

theorem map_term_sitesBelow (previous? : Option Node) :
    ∀ node : Node, (node.sitesBelow previous?).map TermSite.term = pick isTerm node.children
  | emphasis children | link _ children | heading _ children | paragraph children
  | definitionList children | definitionTerm children | definitionDescription children
  | admonition _ children => map_term_sitesAmong previous? _ none children
  | text _ | inlineCode _ | code _ _ | target _ => rfl

/-- **Every term has a site.** -/
theorem map_term_sitesAmong (above? within? previous? : Option Node) : ∀ nodes : List Node,
    (sitesAmong above? within? previous? nodes).map TermSite.term = pick isTerm nodes
  | [] => rfl
  | node :: nodes => by
    rw [sitesAmong, List.map_append, List.map_append, map_term_sitesBelow previous? node,
      map_term_sitesAmong above? within? (some node) nodes, pick_cons]
    split <;> rfl

end

theorem sitesAmong_eq_nil {nodes : List Node} (h : pick isTerm nodes = [])
    (above? within? previous? : Option Node) : sitesAmong above? within? previous? nodes = [] :=
  List.map_eq_nil_iff.1 ((map_term_sitesAmong above? within? previous? nodes).trans h)

/-! ### Parts of a document -/

/-- Whether some nodes of a document have terms at some sites, whatever stands before them
and after them.  The terms are all below the nodes. -/
structure HasSites (nodes : List Node) (sites : List TermSite) : Prop where
  isTerm_eq_false : ∀ node ∈ nodes, node.isTerm = false
  sitesAmong_eq : ∀ previous?, sitesAmong none none previous? nodes = sites

/-- What follows a part of a document stands right after the last node of it. -/
theorem sitesAmong_append {nodes : List Node} (h : ∀ node ∈ nodes, node.isTerm = false)
    (previous? : Option Node) (rest : List Node) :
    sitesAmong none none previous? (nodes ++ rest) =
      sitesAmong none none previous? nodes ++
        sitesAmong none none (nodes.getLast?.or previous?) rest := by
  induction nodes generalizing previous? with
  | nil => rfl
  | cons node nodes ih =>
    rw [List.forall_mem_cons] at h
    have hlast : (node :: nodes).getLast?.or previous? = nodes.getLast?.or (some node) := by
      rw [List.getLast?_cons]
      cases nodes.getLast? <;> rfl
    rw [List.cons_append, sitesAmong, sitesAmong, ih h.2, hlast, h.1, List.append_assoc]
    simp

namespace HasSites

variable {nodes : List Node} {sites : List TermSite}

theorem of_pick_eq_nil (h : pick isTerm nodes = []) : HasSites nodes [] where
  isTerm_eq_false node hnode := by
    obtain ⟨front, back, rfl⟩ := List.append_of_mem hnode
    rw [pick_append, pick_cons, List.append_eq_nil_iff, List.append_eq_nil_iff,
      List.append_eq_nil_iff] at h
    simpa using h.2.1.1
  sitesAmong_eq := sitesAmong_eq_nil h none none

theorem append (h : HasSites nodes sites) {rest : List Node} {more : List TermSite}
    (hrest : HasSites rest more) : HasSites (nodes ++ rest) (sites ++ more) where
  isTerm_eq_false := List.forall_mem_append.2 ⟨h.isTerm_eq_false, hrest.isTerm_eq_false⟩
  sitesAmong_eq previous? := by
    rw [sitesAmong_append h.isTerm_eq_false, h.sitesAmong_eq, hrest.sitesAmong_eq]

theorem flatMap {α : Type} {f : α → List Node} {g : α → List TermSite}
    (h : ∀ x, HasSites (f x) (g x)) (xs : List α) : HasSites (xs.flatMap f) (xs.flatMap g) := by
  induction xs with
  | nil => exact of_pick_eq_nil rfl
  | cons x xs ih => exact (h x).append ih

end HasSites
end Node

open Node (HasSites TermSite)

/-! ### What a catalog calls for -/

namespace Parameter

/-- The description of an entry: whatever a parser makes of its prose. -/
def shownDescription (p : Parameter) (parse : ProseParser) : Node :=
  .definitionDescription (parse p.description).children

/-- A parameter list as it is shown. -/
def shownList (list : List Parameter) (parse : ProseParser) : Node :=
  .definitionList (list.flatMap fun p => [p.shownTerm, p.shownDescription parse])

/-- The terms of a parameter list under a heading, each with its own description. -/
def listSites (list : List Parameter) (title : String) (parse : ProseParser) (depth : UInt64) :
    List TermSite :=
  list.map fun p =>
    { heading? := some (.titled depth title)
      list? := some (shownList list parse)
      term := p.shownTerm
      description? := some (p.shownDescription parse) }

end Parameter

/-- The terms of a section of a docstring, under a heading at a depth. -/
def Docstring.sectionSites (doc : Docstring) (parse : ProseParser) (depth : UInt64) :
    Section → List TermSite
  | .group g => Parameter.listSites ((doc.group g).getD []) g.title parse depth
  | _ => []

/-- The terms of a docstring, list by list, under headings at a depth. -/
def Docstring.termSites (doc : Docstring) (parse : ProseParser) (depth : UInt64) :
    List TermSite :=
  doc.lists.flatMap fun (title, list?) =>
    Parameter.listSites (list?.getD []) title parse depth

namespace Catalog

/-- The terms of a catalog, function by function, under headings at a depth. -/
def termSites (catalog : Catalog) (parse : ProseParser) (depth : UInt64) : List TermSite :=
  catalog.entries.flatMap fun (_, functions) =>
    functions.entries.flatMap fun (_, doc) => doc.termSites parse depth

/-- The terms of a catalog, function by function. -/
def terms (catalog : Catalog) : List Node :=
  catalog.entries.flatMap fun (_, functions) =>
    functions.entries.flatMap fun (_, doc) => doc.terms

/-- The blocks of code of a catalog, function by function. -/
def exampleCode (catalog : Catalog) : List Node :=
  catalog.entries.flatMap fun (_, functions) =>
    functions.entries.flatMap fun (_, doc) => doc.exampleCode

end Catalog

theorem Node.isContent_of_isTerm (node : Node) (h : node.isTerm = true) :
    node.isContent = true := by
  cases node <;> first | rfl | cases h

theorem Node.isContent_of_isCode (node : Node) (h : node.isCode = true) :
    node.isContent = true := by
  cases node <;> first | rfl | cases h

theorem Parameter.isTerm_shownTerm (p : Parameter) : p.shownTerm.isTerm = true := by
  rw [shownTerm]
  split
  · rfl
  · split <;> rfl

theorem Parameter.isCode_shownTerm (p : Parameter) : p.shownTerm.isCode = false := by
  rw [shownTerm]
  split
  · rfl
  · split <;> rfl

theorem Docstring.exists_of_mem_terms {doc : Docstring} {node : Node} (h : node ∈ doc.terms) :
    ∃ p : Parameter, node = p.shownTerm := by
  obtain ⟨_, -, hnode⟩ := List.mem_flatMap.1 h
  obtain ⟨p, -, rfl⟩ := List.mem_map.1 hnode
  exact ⟨p, rfl⟩

theorem Docstring.filter_isTerm_exampleCode (doc : Docstring) :
    doc.exampleCode.filter Node.isTerm = [] := by
  rw [exampleCode]
  split <;> rfl

theorem Docstring.filter_isCode_exampleCode (doc : Docstring) :
    doc.exampleCode.filter Node.isCode = doc.exampleCode := by
  rw [exampleCode]
  split <;> rfl

theorem Catalog.filter_isTerm_contents (catalog : Catalog) (module? : Option String) :
    (catalog.contents module?).filter Node.isTerm = catalog.terms := by
  have hdoc (doc : Docstring) : (doc.terms ++ doc.exampleCode).filter Node.isTerm = doc.terms := by
    have hterms : doc.terms.filter Node.isTerm = doc.terms := by
      refine List.filter_eq_self.2 fun node hnode => ?_
      obtain ⟨p, rfl⟩ := Docstring.exists_of_mem_terms hnode
      exact p.isTerm_shownTerm
    rw [List.filter_append, hterms, doc.filter_isTerm_exampleCode, List.append_nil]
  simp only [contents, terms, List.filter_flatMap, List.filter_cons, Node.isTerm, hdoc]
  simp

theorem Catalog.filter_isCode_contents (catalog : Catalog) (module? : Option String) :
    (catalog.contents module?).filter Node.isCode = catalog.exampleCode := by
  have hdoc (doc : Docstring) :
      (doc.terms ++ doc.exampleCode).filter Node.isCode = doc.exampleCode := by
    have hterms : doc.terms.filter Node.isCode = [] := by
      refine List.filter_eq_nil_iff.2 fun node hnode => ?_
      obtain ⟨p, rfl⟩ := Docstring.exists_of_mem_terms hnode
      simp [p.isCode_shownTerm]
    rw [List.filter_append, hterms, doc.filter_isCode_exampleCode, List.nil_append]
  simp only [contents, exampleCode, List.filter_flatMap, List.filter_cons, Node.isCode, hdoc]
  simp

/-- The terms of all sections are those of the parameter lists. -/
theorem Docstring.flatMap_sectionSites (doc : Docstring) (parse : ProseParser) (depth : UInt64) :
    Section.all.flatMap (doc.sectionSites parse depth) = doc.termSites parse depth := by
  have hgroups : (Group.all.map Section.group).flatMap (doc.sectionSites parse depth) =
      doc.termSites parse depth := by
    rw [termSites, ← doc.map_group, List.flatMap_map, List.flatMap_map]
    rfl
  rw [Section.all, List.flatMap_append, List.flatMap_append, hgroups]
  simp [sectionSites]

/-! ### What is rendered -/

section Document

variable {parse : ProseParser} (hparse : parse.Lacks Node.isTerm)

include hparse

/-- The terms of a list are among its children, each right before its description. -/
theorem sitesAmong_entries (above? within? previous? : Option Node) (list : List Parameter) :
    Node.sitesAmong above? within? previous?
        (list.flatMap fun p => [p.shownTerm, p.shownDescription parse]) =
      list.map fun p => ⟨above?, within?, p.shownTerm, some (p.shownDescription parse)⟩ := by
  induction list generalizing previous? with
  | nil => rfl
  | cons p list ih =>
    have hterm (previous? : Option Node) : p.shownTerm.sitesBelow previous? = [] := by
      rw [Node.sitesBelow_eq]
      refine Node.sitesAmong_eq_nil ?_ _ _ _
      rw [Parameter.shownTerm]
      split
      · rfl
      · split <;> rfl
    have hdescription (previous? : Option Node) :
        (p.shownDescription parse).sitesBelow previous? = [] :=
      Node.sitesAmong_eq_nil (hparse p.description) _ _ _
    have hplain : (p.shownDescription parse).isTerm = false := rfl
    rw [List.flatMap_cons, List.map_cons, List.cons_append, List.cons_append, List.nil_append,
      Node.sitesAmong, Node.sitesAmong, hterm, hdescription, p.isTerm_shownTerm, hplain, ih]
    rfl

theorem hasSites_renderList (title : String) (list : List Parameter) (ctx : Context) :
    HasSites (Parameter.renderList title list parse ctx)
      (Parameter.listSites list title parse ctx.depth) := by
  have hrender : Parameter.render parse =
      fun p => [p.shownTerm, p.shownDescription parse] := by
    funext p
    rw [Parameter.render, p.term_eq_shownTerm]
    rfl
  rw [Parameter.renderList, hrender]
  split
  · next h =>
    rw [List.isEmpty_iff.1 h]
    exact .of_pick_eq_nil rfl
  · refine ⟨by simp [Node.titled, Node.isTerm], fun previous? => ?_⟩
    have hheading : (Node.titled ctx.depth title).sitesBelow previous? = [] := rfl
    have hlist : (Parameter.shownList list parse).sitesBelow (some (.titled ctx.depth title)) =
        Parameter.listSites list title parse ctx.depth :=
      sitesAmong_entries hparse _ _ _ list
    show Node.sitesAmong none none previous?
      [.titled ctx.depth title, Parameter.shownList list parse] = _
    rw [Node.sitesAmong, Node.sitesAmong, hheading, hlist]
    exact List.append_nil _

theorem hasSites_renderSection (name : String) (doc : Docstring) (ctx : Context)
    (part : Section) :
    HasSites (doc.renderSection name parse ctx part)
      (doc.sectionSites parse ctx.nested.depth part) := by
  have hpick := pick_renderSection Node.isContent_of_isTerm hparse name doc ctx part
  cases part with
  | group g =>
    rw [Docstring.renderSection, Docstring.sectionSites]
    cases doc.group g with
    | none => exact .of_pick_eq_nil Node.pick_nil
    | some list => exact hasSites_renderList hparse g.title list (ctx.nested.inFunction name)
  | examples => exact .of_pick_eq_nil (hpick.trans doc.filter_isTerm_exampleCode)
  | summary | extendedSummary | notes | references | seeAlso => exact .of_pick_eq_nil hpick

theorem hasSites_function (name : String) (doc : Docstring) (ctx : Context) :
    HasSites (doc.render name parse ctx) (doc.termSites parse ctx.nested.depth) := by
  have hsections := HasSites.flatMap (hasSites_renderSection hparse name doc ctx) Section.all
  have hstart : HasSites [.target (ctx.nested.inFunction name).label, .titled ctx.depth name] [] :=
    .of_pick_eq_nil rfl
  rw [← doc.flatMap_sectionSites]
  exact hstart.append hsections

theorem hasSites_renderSubmodule (name : String) (functions : Submodule) (ctx : Context) :
    HasSites (renderSubmodule name functions parse ctx)
      (functions.entries.flatMap fun (_, doc) =>
        doc.termSites parse (depthBelow ctx.depth 2)) := by
  have hdepth : (ctx.nested.inSubmodule name).outsideFunction.nested.depth =
      depthBelow ctx.depth 2 := by
    rw [← deeper_depthBelow ctx.depth 1, ← deeper_eq_depthBelow]
    rfl
  have hstart : HasSites [.target (ctx.nested.inSubmodule name).outsideFunction.label,
      .titled ctx.depth name] [] :=
    .of_pick_eq_nil rfl
  refine hstart.append (HasSites.flatMap (fun entry => ?_) functions.entries)
  exact hdepth ▸ hasSites_function hparse entry.1 entry.2 _

theorem hasSites_renderCatalog (catalog : Catalog) (ctx : Context) :
    HasSites (renderCatalog catalog parse ctx)
      (catalog.termSites parse (depthBelow ctx.depth 2)) := by
  refine HasSites.flatMap (fun entry => ?_) catalog.entries
  exact hasSites_renderSubmodule hparse entry.1 entry.2 ctx

end Document

/-- **No entry and no example session is lost, doubled or moved.**  The terms of a rendered
catalog are those of its parameter lists, in order; each stands in the list of its own group,
right under the heading of the group, and its own description is right after it, if the prose
has no terms.  The blocks of code are those of the example sessions, in order, if the prose
has no code either. -/
theorem terms_renderCatalog {parse : ProseParser} (hparse : parse.Lacks Node.isTerm)
    (catalog : Catalog) (ctx : Context) :
    Node.pick Node.isTerm (renderCatalog catalog parse ctx) = catalog.terms ∧
      Node.sites (renderCatalog catalog parse ctx) =
        catalog.termSites parse (depthBelow ctx.depth 2) ∧
      (parse.Lacks Node.isCode →
        Node.pick Node.isCode (renderCatalog catalog parse ctx) = catalog.exampleCode) := by
  refine ⟨?_, (hasSites_renderCatalog hparse catalog ctx).sitesAmong_eq none, fun hcode => ?_⟩
  · rw [pick_renderCatalog Node.isContent_of_isTerm hparse, catalog.filter_isTerm_contents]
  · rw [pick_renderCatalog Node.isContent_of_isCode hcode, catalog.filter_isCode_contents]

/-- The parser for which every text is one paragraph as it stands. -/
def ProseParser.plain : ProseParser :=
  fun source => { children := [.paragraph [.text source]] }

/-- The terms and the code of a catalog of two submodules, with prose that has neither. -/
theorem terms_renderCatalog_sample :
    ProseParser.plain.Lacks Node.isTerm ∧ ProseParser.plain.Lacks Node.isCode ∧
      Node.sites (renderCatalog Catalog.sample .plain { module? := some "pkg" }) =
        Catalog.sample.termSites .plain 3 ∧
      Node.pick Node.isTerm (renderCatalog Catalog.sample .plain { module? := some "pkg" }) =
        [.definitionTerm [.text "radius", .text " : ", .emphasis [.text "float"]]] ∧
      Node.pick Node.isCode (renderCatalog Catalog.sample .plain { module? := some "pkg" }) =
        [.code "python" "sobel(image)"] := by
  have hterm : ProseParser.plain.Lacks Node.isTerm := fun _ => rfl
  have hcode : ProseParser.plain.Lacks Node.isCode := fun _ => rfl
  obtain ⟨hterms, hsites, hblocks⟩ :=
    terms_renderCatalog hterm Catalog.sample { module? := some "pkg" }
  exact ⟨hterm, hcode, hsites, hterms.trans rfl, (hblocks hcode).trans rfl⟩

end DocTree
