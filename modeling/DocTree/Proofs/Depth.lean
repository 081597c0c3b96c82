/-
# Depths of headings

The headings of a document are at most two levels below the outermost ones, at whatever level
of the tree they stand (`hasHeadingsWithin_render`).  A heading is a landmark, so its depth can be
read off the outline of what was rendered.
-/

import DocTree.Proofs.Outline
import DocTree.Selection

namespace DocTree

theorem mem_outline_heading {depth : UInt64} {children nodes : List Node} :
    Node.heading depth children ∈ outline nodes ↔
      Node.heading depth children ∈ Node.flatList nodes := by
  rw [outline, Node.pick, List.mem_filter]
  exact and_iff_left rfl

/-- Whether the headings at any level of some trees are at most some levels below a depth. -/
def HasHeadingsWithin (depth : UInt64) (levels : Nat) (nodes : List Node) : Prop :=
  ∀ below children, Node.heading below children ∈ Node.flatList nodes →
    ∃ level ≤ levels, below = depthBelow depth level

variable {parse : ProseParser}

theorem hasHeadingsWithin_function (hparse : parse.HasNoLandmarks) (name : String)
    (doc : Docstring) (ctx : Context) :
    HasHeadingsWithin ctx.depth 1 (doc.render name parse ctx) := by
  intro below children hmem
  rw [← mem_outline_heading, outline_function hparse] at hmem
  rcases List.mem_cons.1 hmem with h | hmem
  · cases h
  rcases List.mem_cons.1 hmem with h | hmem
  · obtain ⟨rfl, -⟩ := Node.heading.inj h
    exact ⟨0, Nat.zero_le 1, (depthBelow_zero _).symm⟩
  · obtain ⟨part, -, h⟩ := List.mem_map.1 hmem
    obtain ⟨rfl, -⟩ := Node.heading.inj h
    exact ⟨1, Nat.le_refl 1, deeper_eq_depthBelow ctx.depth⟩

theorem hasHeadingsWithin_submodule (hparse : parse.HasNoLandmarks) (name : String)
    (functions : Submodule) (ctx : Context) :
    HasHeadingsWithin ctx.depth 2 (renderSubmodule name functions parse ctx) := by
  intro below children hmem
  rw [← mem_outline_heading, outline_renderSubmodule hparse] at hmem
  rcases List.mem_cons.1 hmem with h | hmem
  · cases h
  rcases List.mem_cons.1 hmem with h | hmem
  · obtain ⟨rfl, -⟩ := Node.heading.inj h
    exact ⟨0, by decide, (depthBelow_zero _).symm⟩
  obtain ⟨entry, -, hmem⟩ := List.mem_flatMap.1 hmem
  rcases List.mem_cons.1 hmem with h | hmem
  · cases h
  rcases List.mem_cons.1 hmem with h | hmem
  · obtain ⟨rfl, -⟩ := Node.heading.inj h
    exact ⟨1, by decide, rfl⟩
  · obtain ⟨part, -, h⟩ := List.mem_map.1 hmem
    obtain ⟨rfl, -⟩ := Node.heading.inj h
    exact ⟨2, Nat.le_refl 2, rfl⟩

theorem hasHeadingsWithin_flatMap {α : Type} {depth : UInt64} {levels : Nat}
    {f : α → List Node} {xs : List α} (h : ∀ x ∈ xs, HasHeadingsWithin depth levels (f x)) :
    HasHeadingsWithin depth levels (xs.flatMap f) := by
  intro below children hmem
  rw [← mem_outline_heading, outline, Node.pick_flatMap, List.mem_flatMap] at hmem
  obtain ⟨x, hx, hmem⟩ := hmem
  exact h x hx below children (mem_outline_heading.1 hmem)

/-- **No heading is more than two levels below the outermost ones,** whichever part of a catalog
is rendered. -/
theorem hasHeadingsWithin_render (hparse : parse.HasNoLandmarks) (catalog : Catalog)
    (target? : Option String) (ctx : Context) :
    HasHeadingsWithin ctx.depth 2 (catalog.render target? parse ctx) := by
  rw [Catalog.render]
  split
  · next submodule name doc _ =>
    intro below children hmem
    obtain ⟨level, hlevel, rfl⟩ :=
      hasHeadingsWithin_function hparse name doc (ctx.inSubmodule submodule) below children hmem
    exact ⟨level, Nat.le_succ_of_le hlevel, rfl⟩
  · exact hasHeadingsWithin_submodule hparse _ _ ctx
  · exact hasHeadingsWithin_flatMap fun entry _ =>
      hasHeadingsWithin_submodule hparse entry.1 entry.2 ctx

/-- The depths of headings as numbers. -/
theorem HasHeadingsWithin.bounds {depth below : UInt64} {levels : Nat} {nodes children : List Node}
    (h : HasHeadingsWithin depth levels nodes)
    (hmem : Node.heading below children ∈ Node.flatList nodes) :
    depth.toNat ≤ below.toNat ∧ below.toNat ≤ depth.toNat + levels := by
  obtain ⟨level, hlevel, rfl⟩ := h below children hmem
  have hlt : depth.toNat < UInt64.size := depth.toNat_lt_size
  rw [toNat_depthBelow]
  omega

end DocTree
