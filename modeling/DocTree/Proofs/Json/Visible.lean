/-
# No control characters in a value on one line

Strings are written with escapes for the control characters below U+0020, and nothing else in
a value on one line is one (`isVisible_compactText`); so such a text is a line.
-/

import DocTree.Json.Text
import DocTree.Proofs.Json.Draft
import DocTree.Proofs.Json.Digits

namespace DocTree
namespace Json

/-- Whether a text has no control characters below U+0020. -/
def IsVisible (cs : List Char) : Prop :=
  ∀ c ∈ cs, 0x20 ≤ c.toNat

instance (cs : List Char) : Decidable (IsVisible cs) :=
  List.decidableBAll (fun c : Char => 0x20 ≤ c.toNat) cs

theorem isVisible_append {cs ds : List Char} :
    IsVisible (cs ++ ds) ↔ IsVisible cs ∧ IsVisible ds :=
  List.forall_mem_append

theorem isVisible_cons {c : Char} {cs : List Char} :
    IsVisible (c :: cs) ↔ 0x20 ≤ c.toNat ∧ IsVisible cs :=
  List.forall_mem_cons

theorem isVisible_of_isDigit {cs : List Char} (h : ∀ c ∈ cs, c.isDigit = true) :
    IsVisible cs := by
  intro c hc
  have hdigit := h c hc
  rw [Char.isDigit_iff_toNat] at hdigit
  exact Nat.le_trans (by decide) hdigit.1

/-- What stands for a character inside a string is visible. -/
theorem isVisible_escape (c : Char) : IsVisible (escape c) := by
  have hhex : ∀ n < 16, 0x20 ≤ (Nat.digitChar n).toNat := by decide
  unfold escape
  iterate 7
    split
    next => decide
  split
  · next hcontrol =>
    have hhigh := hhex (c.toNat / 16) (by omega)
    have hlow := hhex (c.toNat % 16) (by omega)
    have hmark : IsVisible ['\\', 'u', '0', '0'] := by decide
    have hdigits : IsVisible [Nat.digitChar (c.toNat / 16), Nat.digitChar (c.toNat % 16)] :=
      isVisible_cons.2 ⟨hhigh, isVisible_cons.2 ⟨hlow, List.forall_mem_nil _⟩⟩
    exact isVisible_append.2 ⟨hmark, hdigits⟩
  · next hcontrol => exact isVisible_cons.2 ⟨Nat.not_lt.1 hcontrol, List.forall_mem_nil _⟩

theorem isVisible_quote (s : String) : IsVisible (quote s) := by
  have htext : IsVisible (s.toList.flatMap escape) := by
    intro c hc
    obtain ⟨d, -, hd⟩ := List.mem_flatMap.1 hc
    exact isVisible_escape d c hd
  exact isVisible_cons.2 ⟨by decide, isVisible_append.2 ⟨htext, by decide⟩⟩

theorem isVisible_exponentText (exponent : Int) : IsVisible (Numeral.exponentText exponent) := by
  have hdigits (n : Nat) : IsVisible (Nat.toDigits 10 n) :=
    isVisible_of_isDigit fun c hc => Nat.isDigit_of_mem_toDigits (by decide) (by decide) hc
  match exponent with
  | .ofNat 0 => exact List.forall_mem_nil _
  | .ofNat (n + 1) => exact isVisible_cons.2 ⟨by decide, hdigits (n + 1)⟩
  | .negSucc n =>
    exact isVisible_cons.2 ⟨by decide, isVisible_cons.2 ⟨by decide, hdigits (n + 1)⟩⟩

theorem isVisible_numeral {n : Numeral} (h : n.IsGrammatical) : IsVisible n.text := by
  have hwhole : IsVisible n.whole :=
    isVisible_of_isDigit fun c hc => h.digits c (List.mem_append_left _ hc)
  have hfraction : IsVisible n.fraction :=
    isVisible_of_isDigit fun c hc => h.digits c (List.mem_append_right _ hc)
  refine isVisible_append.2 ⟨isVisible_append.2 ⟨isVisible_append.2 ⟨?_, hwhole⟩, ?_⟩,
    isVisible_exponentText n.exponent⟩
  · split <;> decide
  · split
    · decide
    · exact isVisible_cons.2 ⟨by decide, hfraction⟩

mutual

/-- **A value on one line is visible,** if its numbers are JSON numbers. -/
theorem isVisible_compactText : ∀ value : Json, (∀ n ∈ value.numbers, n.IsGrammatical) →
    IsVisible value.compactText
  | .null, _ => by decide
  | .bool true, _ => by decide
  | .bool false, _ => by decide
  | .number n, h => isVisible_numeral (h n (List.mem_singleton_self n))
  | .string s, _ => isVisible_quote s
  | .array items, h => by
    have hitems := isVisible_compactItems items h
    exact isVisible_cons.2 ⟨by decide, isVisible_append.2 ⟨hitems, by decide⟩⟩
  | .object members, h => by
    have hmembers := isVisible_compactMembers members h
    exact isVisible_cons.2 ⟨by decide, isVisible_append.2 ⟨hmembers, by decide⟩⟩

theorem isVisible_compactItems : ∀ items : List Json,
    (∀ n ∈ numbersOfItems items, n.IsGrammatical) → IsVisible (compactItems items)
  | [], _ => List.forall_mem_nil _
  | [item], h => isVisible_compactText item fun n hn => h n (List.mem_append_left _ hn)
  | item :: next :: items, h => by
    have hitem := isVisible_compactText item fun n hn => h n (List.mem_append_left _ hn)
    have hitems := isVisible_compactItems (next :: items)
      fun n hn => h n (List.mem_append_right _ hn)
    exact isVisible_append.2 ⟨hitem, isVisible_cons.2 ⟨by decide, hitems⟩⟩

theorem isVisible_compactMembers : ∀ members : List (String × Json),
    (∀ n ∈ numbersOfMembers members, n.IsGrammatical) → IsVisible (compactMembers members)
  | [], _ => List.forall_mem_nil _
  | [(key, value)], h => by
    have hvalue := isVisible_compactText value fun n hn => h n (List.mem_append_left _ hn)
    exact isVisible_append.2 ⟨isVisible_quote key, isVisible_cons.2 ⟨by decide, hvalue⟩⟩
  | (key, value) :: next :: members, h => by
    have hvalue := isVisible_compactText value fun n hn => h n (List.mem_append_left _ hn)
    have hmembers := isVisible_compactMembers (next :: members)
      fun n hn => h n (List.mem_append_right _ hn)
    exact isVisible_append.2 ⟨isVisible_append.2 ⟨isVisible_quote key,
      isVisible_cons.2 ⟨by decide, hvalue⟩⟩, isVisible_cons.2 ⟨by decide, hmembers⟩⟩

end

end Json
end DocTree
