/-
# Words

The words of a text are what blanks separate, and the first of them is what is read as such
(`Text.firstWord_eq`).  No blank is a word character (`Text.isBlank_eq_false_of_isWord`), so a
name of word characters is a word.
-/

import DocTree.Proofs.Text.Blank
import DocTree.Text.Word

namespace DocTree
namespace Text

/-! ### The words of a text -/

/-- The runs of characters that are not blank, as blanks separate them. -/
def words (cs : List Char) : List (List Char) :=
  (cs.splitOnP isBlank).filter (!·.isEmpty)

variable {c : Char} {cs : List Char}

/-- The first piece of a text that is cut at its blanks is what stands before the first of them. -/
theorem head?_splitOnP_isBlank (cs : List Char) :
    (cs.splitOnP isBlank).head? = some (cs.takeWhile fun c => !isBlank c) := by
  induction cs with
  | nil => rw [List.splitOnP_nil]; rfl
  | cons c cs ih =>
    obtain ⟨piece, pieces, hpieces⟩ := List.exists_cons_of_ne_nil (List.splitOnP_ne_nil isBlank cs)
    rw [hpieces, List.head?_cons, Option.some.injEq] at ih
    rw [List.splitOnP_cons_eq_if_modifyHead, hpieces]
    by_cases hc : isBlank c = true
    · simp [hc]
    · simp [hc, ih]

/-- **The words on both sides of a blank** are those of the one side and those of the other. -/
theorem words_append_cons (hc : isBlank c = true) (cs ds : List Char) :
    words (cs ++ c :: ds) = words cs ++ words ds := by
  rw [words, List.splitOnP_append_cons cs ds hc, List.filter_append, words, words]

theorem words_cons_of_isBlank (hc : isBlank c = true) (cs : List Char) :
    words (c :: cs) = words cs :=
  words_append_cons hc [] cs

/-- What a text that begins with another character begins with is its first word. -/
theorem head?_words_cons (hc : ¬isBlank c = true) (cs : List Char) :
    (words (c :: cs)).head? = some ((c :: cs).takeWhile fun c => !isBlank c) := by
  have hhead := head?_splitOnP_isBlank (c :: cs)
  obtain ⟨pieces, hpieces⟩ := List.head?_eq_some_iff.1 hhead
  rw [words, hpieces, List.filter_cons_of_pos (by simp [hc]), List.head?_cons]

/-- **The first word of a text** is the first of its words, and empty if there is none. -/
theorem firstWord_eq (cs : List Char) : firstWord cs = (words cs).headD [] := by
  induction cs with
  | nil => simp [firstWord, trimStart, words]
  | cons c cs ih =>
    by_cases hc : isBlank c = true
    · rw [words_cons_of_isBlank hc, ← ih, firstWord, trimStart, List.dropWhile_cons_of_pos hc,
        firstWord, trimStart]
    · rw [firstWord, trimStart, List.dropWhile_cons_of_neg hc, List.headD_eq_head?_getD,
        head?_words_cons hc, Option.getD_some]

/-- A text has no words if it is blank. -/
theorem words_eq_nil_iff : words cs = [] ↔ isBlankText cs = true := by
  induction cs with
  | nil => simp [words, isBlankText]
  | cons c cs ih =>
    by_cases hc : isBlank c = true
    · rw [words_cons_of_isBlank hc, ih, isBlankText, isBlankText, List.all_cons, hc, Bool.true_and]
    · have hwords : words (c :: cs) ≠ [] := fun hnil => by
        have hhead := head?_words_cons hc cs
        rw [hnil] at hhead
        cases hhead
      simp [hwords, isBlankText, hc]

/-- Blanks in front of a text and behind it separate nothing. -/
theorem words_append_blanks {before after : List Char} (hbefore : isBlankText before = true)
    (hafter : isBlankText after = true) (cs : List Char) :
    words (before ++ cs ++ after) = words cs := by
  have hfront (ds : List Char) : words (before ++ ds) = words ds := by
    induction before with
    | nil => rfl
    | cons c before ih =>
      rw [isBlankText, List.all_cons, Bool.and_eq_true] at hbefore
      rw [List.cons_append, words_cons_of_isBlank hbefore.1, ih hbefore.2]
  rw [List.append_assoc, hfront]
  cases after with
  | nil => rw [List.append_nil]
  | cons c after =>
    rw [isBlankText, List.all_cons, Bool.and_eq_true] at hafter
    rw [words_append_cons hafter.1, words_eq_nil_iff.2 hafter.2, List.append_nil]

theorem words_trim (cs : List Char) : words (trim cs) = words cs := by
  obtain ⟨before, after, hbefore, hafter, hcs⟩ := exists_eq_append_trim cs
  rw [← words_append_blanks hbefore hafter, ← hcs]

/-- No piece of a text that is cut at its blanks has a blank in it. -/
theorem isBlank_eq_false_of_mem_piece {piece : List Char} (h : piece ∈ cs.splitOnP isBlank) :
    ∀ d ∈ piece, isBlank d = false := by
  induction cs generalizing piece with
  | nil =>
    obtain rfl : piece = [] := by simpa using h
    simp
  | cons c cs ih =>
    rw [List.splitOnP_cons_eq_if_modifyHead] at h
    obtain ⟨first, pieces, hpieces⟩ := List.exists_cons_of_ne_nil (List.splitOnP_ne_nil isBlank cs)
    rw [hpieces] at h ih
    split at h
    · rcases List.mem_cons.1 h with rfl | h
      · simp
      · exact ih h
    · next hc =>
      rcases List.mem_cons.1 h with rfl | h
      · exact List.forall_mem_cons.2 ⟨Bool.eq_false_iff.2 hc, ih List.mem_cons_self⟩
      · exact ih (List.mem_cons_of_mem _ h)

/-- **A word is not empty and has no blank in it.** -/
theorem of_mem_words {word : List Char} (h : word ∈ words cs) :
    word ≠ [] ∧ ∀ d ∈ word, isBlank d = false := by
  obtain ⟨hpiece, hne⟩ := List.mem_filter.1 h
  exact ⟨by simpa using hne, isBlank_eq_false_of_mem_piece hpiece⟩

/-! ### Word characters -/

/-- The codes of the blank characters. -/
def blankCodes : List Nat :=
  List.range' 0x9 5 ++ List.range' 0x2000 11 ++
    [0x20, 0x85, 0xA0, 0x1680, 0x2028, 0x2029, 0x202F, 0x205F, 0x3000]

theorem toNat_mem_blankCodes (h : isBlank c = true) : c.toNat ∈ blankCodes := by
  simp only [isBlank, Bool.or_eq_true, Bool.and_eq_true, decide_eq_true_eq, beq_iff_eq] at h
  simp only [blankCodes, List.mem_append, List.mem_range'_1, List.mem_cons, List.not_mem_nil,
    or_false]
  omega

/-- There is no blank in a class of characters that has none of their codes. -/
theorem isBlank_eq_false_of_codes {p : Char → Bool}
    (hcodes : ∀ n ∈ blankCodes, p (Char.ofNat n) = false) (h : p c = true) : isBlank c = false := by
  refine Bool.eq_false_iff.2 fun hblank => ?_
  have hnot := hcodes _ (toNat_mem_blankCodes hblank)
  rw [Char.ofNat_toNat, h] at hnot
  cases hnot

/-- **No blank is a word character.** -/
theorem isBlank_eq_false_of_isWord (h : isWord c = true) : isBlank c = false :=
  isBlank_eq_false_of_codes (by decide +kernel) h

theorem isBlank_eq_false_of_isAlpha (h : c.isAlpha = true) : isBlank c = false :=
  isBlank_eq_false_of_codes (by decide) h

end Text
end DocTree
