/-
# The lines of a text and its parts

The lines of a text are its parts between line feeds, less the carriage returns before those;
the last part is a line only if it is not empty (`Text.lines_of_split`).  So a text that goes on
after a line feed has the lines of both sides (`Text.lines_append_cons`), where every part
before the line feed is a line that has ended (`Text.endedLines`).
-/

import DocTree.Proofs.Text.Blank
import DocTree.Proofs.Text.Split
import DocTree.Text.Line

namespace DocTree
namespace Text

/-- What comes before a line feed, without the carriage return right before it. -/
def withoutReturn (line : List Char) : List Char :=
  if line.getLast? = some '\r' then line.dropLast else line

/-- The lines of a text with a line feed after it. -/
def endedLines (cs : List Char) : List (List Char) :=
  (split '\n' cs).map withoutReturn

theorem withoutReturn_of_ne {line : List Char} (h : line.getLast? ≠ some '\r') :
    withoutReturn line = line :=
  if_neg h

theorem withoutReturn_append_return (line : List Char) :
    withoutReturn (line ++ ['\r']) = line := by
  rw [withoutReturn, if_pos (by simp), List.dropLast_concat]

/-- A line that is not left as it is had a carriage return at its end. -/
theorem withoutReturn_cases (line : List Char) :
    withoutReturn line = line ∨ line = withoutReturn line ++ ['\r'] := by
  by_cases h : line.getLast? = some '\r'
  · obtain ⟨front, rfl⟩ := List.getLast?_eq_some_iff.1 h
    rw [withoutReturn_append_return]
    exact .inr rfl
  · exact .inl (withoutReturn_of_ne h)

theorem withoutReturn_append {front : List Char} (hfront : front.getLast? ≠ some '\r')
    (line : List Char) : withoutReturn (front ++ line) = front ++ withoutReturn line := by
  rcases List.eq_nil_or_concat line with rfl | ⟨line, c, rfl⟩
  · rw [List.append_nil, withoutReturn_of_ne hfront]
    exact (List.append_nil front).symm
  · by_cases hc : c = '\r'
    · rw [hc, List.concat_eq_append, ← List.append_assoc, withoutReturn_append_return,
        withoutReturn_append_return]
    · rw [withoutReturn_of_ne (by simpa using hc), withoutReturn_of_ne (by simpa using hc)]

/-- The carriage return is a blank at the end of the line. -/
theorem trim_withoutReturn (line : List Char) : trim (withoutReturn line) = trim line := by
  rcases withoutReturn_cases line with hsame | hreturn
  · rw [hsame]
  · rw [hreturn, withoutReturn_append_return, trim_append_right rfl]

theorem closeLine_eq (line : List Char) : closeLine line = withoutReturn line.reverse := by
  cases line with
  | nil => rfl
  | cons c line =>
    by_cases hc : c = '\r'
    · rw [hc, closeLine, List.reverse_cons, withoutReturn_append_return]
    · rw [withoutReturn_of_ne (by simpa using hc)]
      simp [closeLine, hc]

theorem exists_split_eq_append (mark : Char) (cs : List Char) :
    ∃ ended last, split mark cs = ended ++ [last] :=
  ⟨_, _, (List.dropLast_concat_getLast (split_ne_nil mark cs)).symm⟩

theorem linesFrom_of_split {line cs last : List Char} {ended : List (List Char)}
    (hline : '\n' ∉ line) (hsplit : split '\n' (line.reverse ++ cs) = ended ++ [last]) :
    linesFrom line cs = ended.map withoutReturn ++ if last = [] then [] else [last] := by
  induction cs generalizing line ended with
  | nil =>
    rw [List.append_nil, split_of_not_mem (by simpa using hline)] at hsplit
    obtain ⟨rfl, hlast⟩ | ⟨-, hnil⟩ := List.append_eq_singleton_iff.1 hsplit.symm
    · obtain rfl : last = line.reverse := by simpa using hlast
      simp [linesFrom]
    · cases hnil
  | cons c cs ih =>
    by_cases hc : c = '\n'
    · -- The part that ends here is the first one, and the rest is split by itself.
      obtain ⟨rest, last', hrest⟩ := exists_split_eq_append '\n' cs
      rw [hc, split_append_cons, split_of_not_mem (by simpa using hline), hrest,
        ← List.append_assoc] at hsplit
      obtain ⟨rfl, rfl⟩ := List.append_singleton_inj.1 hsplit
      rw [linesFrom, if_pos hc, ih List.not_mem_nil hrest, closeLine_eq]
      rfl
    · have hmem : '\n' ∉ c :: line := by simpa [hline] using Ne.symm hc
      rw [linesFrom, if_neg hc, ih hmem (by simpa using hsplit)]

/-- **The lines of a text are its parts,** the last of them only if it is not empty, and the
others without the carriage return at their ends. -/
theorem lines_of_split {cs last : List Char} {ended : List (List Char)}
    (h : split '\n' cs = ended ++ [last]) :
    lines cs = ended.map withoutReturn ++ if last = [] then [] else [last] :=
  linesFrom_of_split List.not_mem_nil h

/-- A text without line feeds is one line, unless it is empty. -/
theorem lines_of_not_mem {cs : List Char} (h : '\n' ∉ cs) :
    lines cs = if cs = [] then [] else [cs] :=
  @lines_of_split cs cs [] (split_of_not_mem h)

/-- **A text that goes on after a line feed** has the lines of what comes before, all of which
have ended, and the lines of what comes after. -/
theorem lines_append_cons (cs ds : List Char) :
    lines (cs ++ '\n' :: ds) = endedLines cs ++ lines ds := by
  obtain ⟨ended, last, hds⟩ := exists_split_eq_append '\n' ds
  have hsplit : split '\n' (cs ++ '\n' :: ds) = (split '\n' cs ++ ended) ++ [last] := by
    rw [split_append_cons, hds, List.append_assoc]
  rw [lines_of_split hsplit, lines_of_split hds, List.map_append, List.append_assoc, endedLines]

theorem mem_of_mem_closeLine {line : List Char} {c : Char} (h : c ∈ closeLine line) : c ∈ line := by
  rw [closeLine_eq] at h
  rcases withoutReturn_cases line.reverse with hsame | hreturn
  · rw [hsame] at h
    exact List.mem_reverse.1 h
  · have hwhole := List.mem_append_left ['\r'] h
    rw [← hreturn] at hwhole
    exact List.mem_reverse.1 hwhole

theorem not_mem_of_mem_linesFrom {line cs other : List Char} (hline : '\n' ∉ line)
    (h : other ∈ linesFrom line cs) : '\n' ∉ other := by
  induction cs generalizing line with
  | nil =>
    rw [linesFrom] at h
    split at h
    · cases h
    · obtain rfl := List.mem_singleton.1 h
      exact fun hmem => hline (List.mem_reverse.1 hmem)
  | cons c cs ih =>
    rw [linesFrom] at h
    split at h
    · rcases List.mem_cons.1 h with rfl | h
      · exact fun hmem => hline (mem_of_mem_closeLine hmem)
      · exact ih List.not_mem_nil h
    · next hc => exact ih (by simpa [hline] using Ne.symm hc) h

/-- There is no line feed in a line. -/
theorem not_mem_of_mem_lines {cs line : List Char} (h : line ∈ lines cs) : '\n' ∉ line :=
  not_mem_of_mem_linesFrom List.not_mem_nil h

theorem joinLines_split (cs : List Char) : joinLines (split '\n' cs) = cs :=
  intercalate_split '\n' cs

theorem joinLines_ne_nil {lines : List (List Char)} (h : lines ≠ []) (hlines : [] ∉ lines) :
    joinLines lines ≠ [] := by
  cases lines with
  | nil => exact absurd rfl h
  | cons line lines =>
    have hline : line ≠ [] := fun hnil => hlines (hnil ▸ List.mem_cons_self ..)
    cases lines with
    | nil => rwa [joinLines, List.intercalate_singleton]
    | cons next lines =>
      rw [joinLines, List.intercalate_cons_cons]
      simp [hline]

end Text
end DocTree
