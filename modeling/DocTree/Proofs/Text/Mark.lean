/-
# Before and behind a mark

The first part of a text that is split at a mark is what comes before the first one
(`Text.part?_zero_split`), and the second what comes before the next one behind it
(`Text.part?_one_split`).  Where the first mark is can be told from what is in front of it
(`Text.upTo_append`, `Text.beyond_append`).
-/

import DocTree.Proofs.Text.Split
import Mathlib.Data.List.TakeWhile

namespace DocTree
namespace Text

/-- What comes before the first mark of a text, which is all of it if there is none. -/
def upTo (mark : Char) (text : String) : String :=
  String.ofList (text.toList.takeWhile (· ≠ mark))

/-- What comes behind the first mark of a text, which is nothing if there is none. -/
def beyond (mark : Char) (text : String) : String :=
  String.ofList (text.toList.dropWhile (· ≠ mark)).tail

/-- A text, unless it is empty. -/
def nonempty? (text : String) : Option String :=
  if text = "" then none else some text

theorem getD_nonempty? (text : String) : (nonempty? text).getD "" = text := by
  rw [nonempty?]
  split
  · next h => exact h.symm
  · rfl

/-- The first part of a text is what comes before the first mark, and the others are the parts of
what comes behind it. -/
theorem split_eq_cons (mark : Char) (cs : List Char) :
    split mark cs = cs.takeWhile (· ≠ mark) ::
      match cs.dropWhile (· ≠ mark) with
      | [] => []
      | _ :: rest => split mark rest := by
  induction cs with
  | nil => rfl
  | cons c cs ih =>
    rw [split]
    by_cases hc : c = mark
    · simp [hc]
    · rw [if_neg hc, ih]
      simp [hc]

theorem part?_zero_split (mark : Char) (text : String) :
    part? (split mark text.toList) 0 = nonempty? (upTo mark text) := by
  rw [split_eq_cons, part?, nonempty?, upTo, List.getElem?_cons_zero]
  generalize text.toList.takeWhile (· ≠ mark) = front
  cases front <;> simp [Option.filter]

theorem part?_one_split (mark : Char) (text : String) :
    part? (split mark text.toList) 1 = nonempty? (upTo mark (beyond mark text)) := by
  rw [← part?_zero_split, split_eq_cons, part?_succ_cons, beyond, String.toList_ofList]
  cases text.toList.dropWhile (· ≠ mark) <;> rfl

theorem headD_split (mark : Char) (text : String) :
    String.ofList ((split mark text.toList).headD []) = upTo mark text := by
  rw [split_eq_cons, List.headD_cons, upTo]

section Mark

variable {mark : Char} {text front : String}

theorem forall_ne_of_not_mem (h : mark ∉ front.toList) :
    ∀ c ∈ front.toList, decide (c ≠ mark) = true :=
  fun _ hc => decide_eq_true fun heq => h (heq ▸ hc)

/-- What has no mark comes before the first mark of a text that begins with it. -/
theorem upTo_append (h : mark ∉ front.toList) (rest : String) :
    upTo mark (front ++ rest) = front ++ upTo mark rest := by
  rw [upTo, String.toList_append, List.takeWhile_append_of_pos (forall_ne_of_not_mem h),
    String.ofList_append, String.ofList_toList, upTo]

theorem beyond_append (h : mark ∉ front.toList) (rest : String) :
    beyond mark (front ++ rest) = beyond mark rest := by
  rw [beyond, String.toList_append, List.dropWhile_append_of_pos (forall_ne_of_not_mem h), beyond]

/-- Nothing comes before the first mark of a text that begins with the mark. -/
theorem upTo_mark_append (h : front.toList = [mark]) (rest : String) :
    upTo mark (front ++ rest) = "" := by
  rw [upTo, String.toList_append, h, List.singleton_append, List.takeWhile_cons_of_neg (by simp),
    String.ofList_nil]

theorem beyond_mark_append (h : front.toList = [mark]) (rest : String) :
    beyond mark (front ++ rest) = rest := by
  rw [beyond, String.toList_append, h, List.singleton_append, List.dropWhile_cons_of_neg (by simp),
    List.tail_cons, String.ofList_toList]

theorem upTo_of_not_mem (h : mark ∉ text.toList) : upTo mark text = text := by
  have happend := upTo_append h ""
  rwa [String.append_empty, show upTo mark "" = "" from rfl, String.append_empty] at happend

theorem beyond_of_not_mem (h : mark ∉ text.toList) : beyond mark text = "" := by
  have happend := beyond_append h ""
  rwa [String.append_empty] at happend

theorem not_mem_upTo (mark : Char) (text : String) : mark ∉ (upTo mark text).toList := by
  rw [upTo, String.toList_ofList]
  intro hmem
  have hne := List.mem_takeWhile_imp hmem
  simp at hne

end Mark

end Text
end DocTree
