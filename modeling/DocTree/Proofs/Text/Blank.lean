/-
# Blanks at the ends

Blanks around a text do not matter once it is trimmed (`Text.trim_append_left`,
`Text.trim_append_right`), which takes off nothing else (`Text.exists_eq_append_trim`), and
nothing is left of a text only if it was blank (`Text.trimEnd_ne_nil`).
-/

import DocTree.Text.Blank
import Mathlib.Data.List.TakeWhile

namespace DocTree
namespace Text

variable {cs blanks : List Char}

theorem trimStart_append_left (h : isBlankText blanks = true) (cs : List Char) :
    trimStart (blanks ++ cs) = trimStart cs :=
  List.dropWhile_append_of_pos (List.all_eq_true.1 h)

theorem trimEnd_append_right (h : isBlankText blanks = true) (cs : List Char) :
    trimEnd (cs ++ blanks) = trimEnd cs := by
  have hback : ∀ c ∈ blanks.reverse, isBlank c = true := fun c hc =>
    List.all_eq_true.1 h c (List.mem_reverse.1 hc)
  rw [trimEnd, List.reverse_append, List.dropWhile_append_of_pos hback, trimEnd]

theorem isBlankText_append (cs ds : List Char) :
    isBlankText (cs ++ ds) = (isBlankText cs && isBlankText ds) :=
  List.all_append

theorem isBlankText_concat {c : Char} (hc : isBlank c = true) (cs : List Char) :
    isBlankText (cs ++ [c]) = isBlankText cs := by
  rw [isBlankText_append, isBlankText, isBlankText, List.all_cons, hc, List.all_nil, Bool.and_self,
    Bool.and_true]

theorem trimStart_eq_nil_iff : trimStart cs = [] ↔ isBlankText cs = true := by
  rw [trimStart, List.dropWhile_eq_nil_iff, isBlankText, List.all_eq_true]

/-- Blanks before a text are trimmed off. -/
theorem trim_append_left (h : isBlankText blanks = true) (cs : List Char) :
    trim (blanks ++ cs) = trim cs := by
  rw [trim, trimStart_append_left h, trim]

/-- Blanks after a text are trimmed off. -/
theorem trim_append_right (h : isBlankText blanks = true) (cs : List Char) :
    trim (cs ++ blanks) = trim cs := by
  by_cases hcs : isBlankText cs = true
  · have hall : isBlankText (cs ++ blanks) = true := by rw [isBlankText_append, hcs, h]; rfl
    rw [trim, trim, trimStart_eq_nil_iff.2 hall, trimStart_eq_nil_iff.2 hcs]
  · have hne : (cs.dropWhile isBlank).isEmpty ≠ true := fun hnil =>
      hcs (trimStart_eq_nil_iff.1 (List.isEmpty_iff.1 hnil))
    rw [trim, trimStart, List.dropWhile_append, if_neg hne, trimEnd_append_right h, trim, trimStart]

/-- **Trimming takes blanks off the ends,** and nothing else. -/
theorem exists_eq_append_trim (cs : List Char) :
    ∃ before after, isBlankText before = true ∧ isBlankText after = true ∧
      cs = before ++ trim cs ++ after := by
  have hstart : cs.takeWhile isBlank ++ trimStart cs = cs := List.takeWhile_append_dropWhile
  have hend : trim cs ++ ((trimStart cs).reverse.takeWhile isBlank).reverse = trimStart cs := by
    rw [trim, trimEnd, ← List.reverse_append, List.takeWhile_append_dropWhile, List.reverse_reverse]
  refine ⟨cs.takeWhile isBlank, ((trimStart cs).reverse.takeWhile isBlank).reverse,
    List.all_takeWhile, ?_, ?_⟩
  · rw [isBlankText, List.all_reverse, List.all_takeWhile]
  · rw [List.append_assoc, hend, hstart]

/-- What is trimmed has no blanks at its ends. -/
theorem trim_trim (cs : List Char) : trim (trim cs) = trim cs := by
  obtain ⟨before, after, hbefore, hafter, hcs⟩ := exists_eq_append_trim cs
  calc
    trim (trim cs) = trim (before ++ trim cs ++ after) := by
      rw [trim_append_right hafter, trim_append_left hbefore]
    _ = trim cs := by rw [← hcs]

theorem isBlankText_trim (cs : List Char) : isBlankText (trim cs) = isBlankText cs := by
  obtain ⟨before, after, hbefore, hafter, hcs⟩ := exists_eq_append_trim cs
  calc
    isBlankText (trim cs) = isBlankText (before ++ trim cs ++ after) := by
      rw [isBlankText_append, isBlankText_append, hbefore, hafter, Bool.true_and, Bool.and_true]
    _ = isBlankText cs := by rw [← hcs]

theorem not_mem_trim {c : Char} {cs : List Char} (h : c ∉ cs) : c ∉ trim cs := by
  obtain ⟨before, after, -, -, hcs⟩ := exists_eq_append_trim cs
  intro hmem
  rw [hcs] at h
  exact h (List.mem_append_left _ (List.mem_append_right _ hmem))

theorem trimEnd_ne_nil (h : isBlankText cs = false) : trimEnd cs ≠ [] := by
  intro htrim
  rw [trimEnd, List.reverse_eq_nil_iff, List.dropWhile_eq_nil_iff] at htrim
  have hblank : isBlankText cs = true :=
    List.all_eq_true.2 fun c hc => htrim c (List.mem_reverse.2 hc)
  rw [h] at hblank
  cases hblank

end Text
end DocTree
