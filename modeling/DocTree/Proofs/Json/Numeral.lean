/-
# Numerals of natural numbers

The numeral of a natural number is a JSON number (`Numeral.isGrammatical_ofNat`) from which
the number is read again (`Numeral.toNat?_ofNat`), and it is in range if the number has 64
bits (`Numeral.inRange_ofNat`).
-/

import DocTree.Proofs.Json.Digits

namespace DocTree
namespace Json
namespace Numeral

theorem head?_toDigits_ne {n : Nat} (h : 0 < n) : (Nat.toDigits 10 n).head? ≠ some '0' := by
  induction n using Nat.strongRecOn with
  | ind n ih =>
    by_cases hn : n < 10
    · have hdigit : ∀ m < 10, 0 < m → [Nat.digitChar m].head? ≠ some '0' := by decide
      rw [Nat.toDigits_of_lt_base hn]
      exact hdigit n hn h
    · have hlead := ih (n / 10) (by omega) (by omega)
      rw [Nat.toDigits_of_base_le (by decide) (by omega)]
      obtain ⟨c, cs, hcs⟩ :=
        List.exists_cons_of_ne_nil (Nat.toDigits_ne_nil (n := n / 10) (b := 10))
      rwa [hcs, List.cons_append, List.head?_cons, ← List.head?_cons, ← hcs]

theorem isGrammatical_ofNat (n : Nat) : (ofNat n).IsGrammatical where
  whole := Nat.toDigits_ne_nil
  zero h := by
    cases n with
    | zero => rfl
    | succ n => exact absurd h (head?_toDigits_ne n.succ_pos)
  digits c hc := by
    rw [ofNat, List.append_nil] at hc
    exact Nat.isDigit_of_mem_toDigits (by decide) (by decide) hc

theorem toNat?_ofNat (n : Nat) : (ofNat n).toNat? = some n := by
  rw [toNat?, ofNat, Nat.ofDigitChars_ten_toDigits]
  rfl

/-- More digits make a number no smaller. -/
theorem le_ofDigitChars (cs : List Char) (n : Nat) : n ≤ Nat.ofDigitChars 10 cs n := by
  induction cs generalizing n with
  | nil => exact Nat.le_refl n
  | cons c cs ih =>
    rw [Nat.ofDigitChars_cons]
    exact Nat.le_trans (by omega) (ih _)

/-- As long as they make a number of 64 bits, all digits fit. -/
theorem foldl_pushWhole {cs : List Char} {n : Nat} (h : Nat.ofDigitChars 10 cs n < UInt64.size) :
    cs.foldl Leading.pushWhole { significand := n } =
      { significand := Nat.ofDigitChars 10 cs n } := by
  induction cs generalizing n with
  | nil => rfl
  | cons c cs ih =>
    have hcons : Nat.ofDigitChars 10 (c :: cs) n =
        Nat.ofDigitChars 10 cs (n * 10 + digitValue c) := by
      rw [Nat.ofDigitChars_cons, Nat.mul_comm, digitValue]
    rw [hcons] at h
    have hfits : ¬UInt64.size ≤ n * 10 + digitValue c :=
      Nat.not_le.2 (Nat.lt_of_le_of_lt (le_ofDigitChars cs _) h)
    have hpush : Leading.pushWhole { significand := n } c =
        { significand := n * 10 + digitValue c } := by
      simp [Leading.pushWhole, hfits]
    rw [List.foldl_cons, hpush, ih h, hcons]

theorem inRange_ofNat {n : Nat} (h : n < UInt64.size) : (ofNat n).inRange = true := by
  have hvalue : Nat.ofDigitChars 10 (Nat.toDigits 10 n) 0 = n := Nat.ofDigitChars_ten_toDigits
  have hleading : (ofNat n).leading = { significand := n } := by
    rw [leading, ofNat, foldl_pushWhole (hvalue.symm ▸ h), hvalue]
    rfl
  simp [inRange, hleading]

end Numeral
end Json
end DocTree
