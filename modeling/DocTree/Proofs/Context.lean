/-
# Depths of a context

Going one level down adds one to the depth until it cannot grow (`toNat_deeper`), so a
number of levels can be counted at once (`depthBelow`).
-/

import DocTree.Context

namespace DocTree

/-- The depth a number of levels further down, at most the deepest there is. -/
def depthBelow (depth : UInt64) (levels : Nat) : UInt64 :=
  .ofNat (min (depth.toNat + levels) (UInt64.size - 1))

theorem toNat_depthBelow (depth : UInt64) (levels : Nat) :
    (depthBelow depth levels).toNat = min (depth.toNat + levels) (UInt64.size - 1) := by
  have hsize : UInt64.size = 2 ^ 64 := rfl
  rw [depthBelow, UInt64.toNat_ofNat']
  exact Nat.mod_eq_of_lt (by omega)

/-- **The next depth is one more, and at most the deepest.**  The sum cannot wrap, since
the one depth where it would is kept. -/
theorem toNat_deeper (depth : UInt64) :
    (deeper depth).toNat = min (depth.toNat + 1) (UInt64.size - 1) := by
  have hsize : UInt64.size = 2 ^ 64 := rfl
  have hlt : depth.toNat < UInt64.size := depth.toNat_lt_size
  unfold deeper
  split
  · next h =>
    have hmax : depth.toNat = UInt64.size - 1 := by rw [h]; rfl
    omega
  · next h =>
    have hne : depth.toNat ≠ UInt64.size - 1 := fun he => h (UInt64.toNat_inj.1 (he.trans rfl))
    have hone : (1 : UInt64).toNat = 1 := rfl
    rw [UInt64.toNat_add, hone, Nat.mod_eq_of_lt (by omega)]
    omega

/-- As long as it is not the deepest, a depth that is moved down as a whole has the next depth
moved down. -/
theorem deeper_add {depth shift : UInt64} (h : depth.toNat + shift.toNat + 1 < UInt64.size) :
    deeper (depth + shift) = deeper depth + shift := by
  have hsize : UInt64.size = 2 ^ 64 := rfl
  apply UInt64.toNat_inj.1
  rw [toNat_deeper, UInt64.toNat_add, UInt64.toNat_add, toNat_deeper]
  omega

theorem depthBelow_zero (depth : UInt64) : depthBelow depth 0 = depth := by
  have hlt : depth.toNat < UInt64.size := depth.toNat_lt_size
  apply UInt64.toNat_inj.1
  rw [toNat_depthBelow]
  omega

theorem deeper_depthBelow (depth : UInt64) (levels : Nat) :
    deeper (depthBelow depth levels) = depthBelow depth (levels + 1) := by
  apply UInt64.toNat_inj.1
  rw [toNat_deeper, toNat_depthBelow, toNat_depthBelow]
  omega

theorem deeper_eq_depthBelow (depth : UInt64) : deeper depth = depthBelow depth 1 := by
  have h := deeper_depthBelow depth 0
  rwa [depthBelow_zero] at h

/-- Going down some levels and then some more is going down all of them. -/
theorem depthBelow_depthBelow (depth : UInt64) (levels more : Nat) :
    depthBelow (depthBelow depth levels) more = depthBelow depth (levels + more) := by
  apply UInt64.toNat_inj.1
  rw [toNat_depthBelow, toNat_depthBelow, toNat_depthBelow]
  omega

end DocTree
