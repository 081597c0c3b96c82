/-
# No two anchors are the same

A target stands for a submodule or for a function of one.  The things that the targets of a
document stand for are distinct because the names in a listing are (`Catalog.nodup_things`),
and the labels are distinct because they tell the things apart (`eq_of_label_eq`).
-/

import DocTree.Proofs.Contents
import DocTree.Proofs.Label
import Mathlib.Data.List.Nodup
import Mathlib.Data.List.Basic

namespace DocTree

/-- The label of a target. -/
def Node.anchor? : Node → Option String
  | target label => some label
  | _ => none

/-- Whether a node is a target. -/
def Node.isTarget (node : Node) : Bool :=
  node.anchor?.isSome

/-- The labels of the targets at any level of some trees, in document order. -/
def anchors (nodes : List Node) : List String :=
  (Node.pick Node.isTarget nodes).filterMap Node.anchor?

/-- What the targets of a catalog stand for: each submodule, alone and with each of its
functions. -/
def Catalog.things (catalog : Catalog) : List (String × Option String) :=
  catalog.entries.flatMap fun (s, functions) =>
    (s, none) :: functions.names.map fun f => (s, some f)

/-! ### The anchors of a catalog -/

theorem isContent_of_isTarget (node : Node) (h : node.isTarget = true) :
    node.isContent = true := by
  cases node <;> first | rfl | cases h

theorem lacks_isTarget {parse : ProseParser}
    (hparse : ∀ source, anchors (parse source).children = []) : parse.Lacks Node.isTarget := by
  intro source
  rw [List.eq_nil_iff_forall_not_mem]
  intro node hnode
  have htarget : node.anchor?.isSome = true := (List.mem_filter.1 hnode).2
  have hnone := List.filterMap_eq_nil_iff.1 (hparse source) node hnode
  rw [hnone] at htarget
  cases htarget

theorem filterMap_anchor?_contents (doc : Docstring) :
    (doc.terms ++ doc.exampleCode).filterMap Node.anchor? = [] := by
  have hterm (p : Parameter) : p.shownTerm.anchor? = none := by
    rw [Parameter.shownTerm]
    split
    · rfl
    · split <;> rfl
  have hcode : doc.exampleCode.filterMap Node.anchor? = [] := by
    rw [Docstring.exampleCode]
    split <;> rfl
  rw [List.filterMap_append, hcode, List.append_nil, Docstring.terms, List.filterMap_flatMap,
    List.flatMap_eq_nil_iff]
  intro entry _
  rw [List.filterMap_map, List.filterMap_eq_nil_iff]
  exact fun p _ => hterm p

theorem filterMap_anchor?_functions (module? : Option String) (s : String)
    (functions : Submodule) :
    (functions.entries.flatMap fun (f, doc) =>
        .target (label module? (some s) (some f)) ::
          (doc.terms ++ doc.exampleCode)).filterMap Node.anchor? =
      functions.names.map fun f => label module? (some s) (some f) := by
  rw [List.filterMap_flatMap, Listing.names, List.map_map, List.map_eq_flatMap]
  refine List.flatMap_congr fun entry _ => ?_
  rw [List.filterMap_cons, filterMap_anchor?_contents]
  rfl

/-- The anchors of a document are the labels of what its catalog lists. -/
theorem anchors_renderCatalog {parse : ProseParser}
    (hparse : ∀ source, anchors (parse source).children = []) (catalog : Catalog)
    (ctx : Context) :
    anchors (renderCatalog catalog parse ctx) =
      catalog.things.map fun (s, f?) => label ctx.module? (some s) f? := by
  have hkept : ∀ node : Node, (if node.isTarget = true then node.anchor? else none) =
      node.anchor? := by
    intro node
    cases node <;> rfl
  rw [anchors, pick_renderCatalog isContent_of_isTarget (lacks_isTarget hparse),
    List.filterMap_filter]
  simp only [hkept]
  rw [Catalog.contents, Catalog.things, List.filterMap_flatMap, List.map_flatMap]
  refine List.flatMap_congr fun entry _ => ?_
  rw [List.filterMap_cons, filterMap_anchor?_functions, List.map_cons, List.map_map]
  rfl

/-! ### Distinctness -/

theorem Catalog.nodup_things (catalog : Catalog) : catalog.things.Nodup := by
  rw [things, List.nodup_flatMap]
  constructor
  · intro entry _
    have hnone : (entry.1, none) ∉ entry.2.names.map fun f => (entry.1, some f) := by
      simp
    have hinjective : Function.Injective fun f : String => (entry.1, some f) := by
      intro f g h
      simpa using h
    exact List.nodup_cons.2 ⟨hnone, entry.2.nodup.map hinjective⟩
  · refine (List.pairwise_map.1 catalog.nodup).imp fun {entry other} hne thing h h' => ?_
    have hfirst {s : String} {names : List String}
        (hmem : thing ∈ (s, none) :: names.map fun f => (s, some f)) : thing.1 = s := by
      rcases List.mem_cons.1 hmem with rfl | hmem
      · rfl
      · obtain ⟨f, -, rfl⟩ := List.mem_map.1 hmem
        rfl
    exact hne ((hfirst h).symm.trans (hfirst h'))

theorem Catalog.HasPlainNames.of_mem_things {catalog : Catalog} (h : catalog.HasPlainNames)
    {thing : String × Option String} (hthing : thing ∈ catalog.things) :
    IsPlainName thing.1 ∧ ∀ name ∈ thing.2, IsPlainName name := by
  obtain ⟨entry, hentry, hmem⟩ := List.mem_flatMap.1 hthing
  rcases List.mem_cons.1 hmem with rfl | hmem
  · exact ⟨(h entry hentry).1, nofun⟩
  · obtain ⟨f, hf, rfl⟩ := List.mem_map.1 hmem
    refine ⟨(h entry hentry).1, ?_⟩
    intro name hname
    obtain rfl := Option.some.inj hname
    exact (h entry hentry).2 f hf

/-- **No two targets of a document have the same label,** if the names in its catalog can be
told apart in a label and the prose has no targets of its own.  The module may have any name
or none, and the context may have been in any submodule and function before. -/
theorem nodup_anchors {catalog : Catalog} (h : catalog.HasPlainNames) {parse : ProseParser}
    (hparse : ∀ source, anchors (parse source).children = []) (ctx : Context) :
    (anchors (renderCatalog catalog parse ctx)).Nodup := by
  rw [anchors_renderCatalog hparse]
  refine catalog.nodup_things.map_on fun thing hthing other hother hlabel => ?_
  have hplain := h.of_mem_things hthing
  have hplain' := h.of_mem_things hother
  obtain ⟨hsub, hfun⟩ := eq_of_label_eq hplain.1 hplain'.1 hplain.2 hplain'.2 hlabel
  exact Prod.ext hsub hfun

/-- The anchors of a catalog of two submodules, in a module whose name has a dot. -/
theorem nodup_anchors_sample :
    Catalog.sample.HasPlainNames ∧
      (∀ source, anchors (Markup.parse source).children = []) ∧
      (anchors (renderCatalog Catalog.sample Markup.parse
        { module? := some "io.read", submodule? := some "io" })).Nodup := by
  have hplain : Catalog.sample.HasPlainNames := by decide
  have hprose : ∀ source, anchors (Markup.parse source).children = [] := by
    intro source
    have hnone (node : Node) (h : node.isProse = true) : node.isTarget = false := by
      cases node <;> first | rfl | cases h
    rw [anchors, Markup.pick_parse hnone]
    rfl
  exact ⟨hplain, hprose, nodup_anchors hplain hprose _⟩

end DocTree
