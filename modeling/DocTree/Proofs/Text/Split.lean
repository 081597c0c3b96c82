/-
# Splitting what was joined

Splitting at a character undoes putting it between two texts (`Text.split_append_cons`) or
between any number of them (`Text.split_intercalate`), and leaves a text without the
character in one piece.  Joining the parts of a text gives the text back
(`Text.intercalate_split`).  A part is empty where the character stands at an end of the text
or next to itself (`Text.nil_mem_split_iff`).
-/

import DocTree.Text.Split
import Mathlib.Data.List.Infix

namespace DocTree
namespace Text

theorem split_ne_nil (mark : Char) (cs : List Char) : split mark cs ≠ [] := by
  induction cs with
  | nil => simp [split]
  | cons c cs ih =>
    rw [split]
    split
    · simp
    · split <;> simp

/-- A text without the mark is one part. -/
theorem split_of_not_mem {mark : Char} {cs : List Char} (h : mark ∉ cs) :
    split mark cs = [cs] := by
  induction cs with
  | nil => rfl
  | cons c cs ih =>
    rw [List.mem_cons, not_or] at h
    rw [split, if_neg (Ne.symm h.1), ih h.2]

/-- **The parts of two texts with the mark between them** are those of the first and those
of the second. -/
theorem split_append_cons (mark : Char) (cs ds : List Char) :
    split mark (cs ++ mark :: ds) = split mark cs ++ split mark ds := by
  induction cs with
  | nil => simp [split]
  | cons c cs ih =>
    by_cases hc : c = mark
    · simp [split, hc, ih]
    · obtain ⟨part, parts, hparts⟩ := List.exists_cons_of_ne_nil (split_ne_nil mark cs)
      simp [split, hc, ih, hparts]

/-- **The parts of texts with the mark between them** are those of one text after the other. -/
theorem split_intercalate_eq_flatMap {mark : Char} {texts : List (List Char)} (hne : texts ≠ []) :
    split mark ([mark].intercalate texts) = texts.flatMap (split mark) := by
  induction texts with
  | nil => exact absurd rfl hne
  | cons text texts ih =>
    rw [List.flatMap_cons]
    cases texts with
    | nil => rw [List.intercalate_singleton, List.flatMap_nil, List.append_nil]
    | cons next texts =>
      rw [List.intercalate_cons_cons, List.append_assoc, List.singleton_append, split_append_cons,
        ih (List.cons_ne_nil _ _)]

/-- **Splitting undoes joining,** if there is something to join and no part holds the mark. -/
theorem split_intercalate {mark : Char} {parts : List (List Char)} (hne : parts ≠ [])
    (h : ∀ part ∈ parts, mark ∉ part) : split mark ([mark].intercalate parts) = parts := by
  have hwhole : parts.flatMap (split mark) = parts.flatMap fun part => [part] :=
    List.flatMap_congr fun part hpart => split_of_not_mem (h part hpart)
  rw [split_intercalate_eq_flatMap hne, hwhole, List.flatMap_singleton']

/-- **Joining undoes splitting.** -/
theorem intercalate_split (mark : Char) (cs : List Char) :
    [mark].intercalate (split mark cs) = cs := by
  induction cs with
  | nil => rfl
  | cons c cs ih =>
    obtain ⟨part, parts, hparts⟩ := List.exists_cons_of_ne_nil (split_ne_nil mark cs)
    rw [split]
    split
    · next hc => rw [hparts, List.intercalate_cons_cons, ← hparts, ih, hc]; rfl
    · rw [hparts] at ih ⊢
      cases parts with
      | nil => simpa using ih
      | cons next parts =>
        rw [List.intercalate_cons_cons] at ih ⊢
        exact congrArg (c :: ·) ih

/-! ### Stray marks -/

/-- Whether a text begins or ends with a mark, or has two of them in a row. -/
def HasStray (mark : Char) (cs : List Char) : Prop :=
  [mark] <+: cs ∨ [mark] <:+ cs ∨ [mark, mark] <:+: cs

instance (mark : Char) (cs : List Char) : Decidable (HasStray mark cs) :=
  inferInstanceAs (Decidable (_ ∨ _ ∨ _))

section Stray

variable {mark : Char} {cs : List Char}

/-- The first part of a text is empty if a mark is in front of it. -/
theorem head?_split_eq_nil_iff :
    (split mark cs).head? = some [] ↔ cs = [] ∨ [mark] <+: cs := by
  cases cs with
  | nil => simp [split]
  | cons c cs =>
    rw [split]
    split
    · next hc => simp [hc]
    · next hc => split <;> simp [Ne.symm hc]

/-- A further part is empty if a mark is at the end of the text, or right behind another mark. -/
theorem nil_mem_tail_split_iff :
    [] ∈ (split mark cs).tail ↔ [mark] <:+ cs ∨ [mark, mark] <:+: cs := by
  induction cs with
  | nil => simp [split]
  | cons c cs ih =>
    have hhead := @head?_split_eq_nil_iff mark cs
    obtain ⟨part, parts, hparts⟩ := List.exists_cons_of_ne_nil (split_ne_nil mark cs)
    rw [hparts] at ih hhead
    rw [split, hparts, List.suffix_cons_iff, List.infix_cons_iff, List.cons_prefix_cons]
    by_cases hc : c = mark
    · -- What was the first part is a further one behind the mark.
      subst hc
      rw [if_pos rfl]
      simp only [List.head?_cons, Option.some.injEq] at hhead
      simp only [List.tail_cons] at ih ⊢
      rw [List.mem_cons, ih, eq_comm, hhead]
      simp only [List.cons.injEq, true_and, eq_comm]
      tauto
    · rw [if_neg hc]
      simp only [List.tail_cons] at ih ⊢
      simp [ih, Ne.symm hc]

/-- **A part of a text is empty if there is a stray mark,** or nothing at all. -/
theorem nil_mem_split_iff : [] ∈ split mark cs ↔ cs = [] ∨ HasStray mark cs := by
  have hhead := @head?_split_eq_nil_iff mark cs
  have htail := @nil_mem_tail_split_iff mark cs
  obtain ⟨part, parts, hparts⟩ := List.exists_cons_of_ne_nil (split_ne_nil mark cs)
  rw [hparts] at hhead htail ⊢
  rw [List.mem_cons, HasStray, eq_comm, ← or_assoc, ← htail, ← hhead]
  simp

end Stray

/-! ### Parts by position -/

theorem part?_zero_cons {name : String} (h : name ≠ "") (parts : List (List Char)) :
    part? (name.toList :: parts) 0 = some name := by
  have hne : name.toList.isEmpty = false := by simpa using h
  simp [part?, Option.filter, hne]

theorem part?_succ_cons (part : List Char) (parts : List (List Char)) (i : Nat) :
    part? (part :: parts) (i + 1) = part? parts i := by
  rw [part?, part?, List.getElem?_cons_succ]

end Text
end DocTree
