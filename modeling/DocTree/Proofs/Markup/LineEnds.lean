/-
# Line ends

A line may end with a line feed, or with a carriage return and a line feed.  Putting carriage
returns in front of the line feeds of a text that has none does not change its lines
(`Text.lines_withReturns`), and so not its tree (`Markup.parse_withReturns`): whatever kind of
line a return ends, it is gone before the kind is told.
-/

import DocTree.Markup.Block
import DocTree.Proofs.Text.Line

namespace DocTree
namespace Text

/-- A text with a carriage return put in front of every line feed. -/
def withReturns : List Char → List Char
  | [] => []
  | c :: cs => if c = '\n' then '\r' :: '\n' :: withReturns cs else c :: withReturns cs

/-- A line that has no carriage return is closed as it stands. -/
theorem closeLine_of_not_mem {line : List Char} (h : '\r' ∉ line) :
    closeLine line = line.reverse := by
  have hlast : line.reverse.getLast? ≠ some '\r' := fun hlast =>
    h (List.mem_reverse.1 (List.mem_of_getLast? hlast))
  rw [closeLine_eq, withoutReturn_of_ne hlast]

theorem linesFrom_withReturns {line cs : List Char} (hline : '\r' ∉ line) (hcs : '\r' ∉ cs) :
    linesFrom line (withReturns cs) = linesFrom line cs := by
  induction cs generalizing line with
  | nil => rfl
  | cons c cs ih =>
    rw [List.mem_cons, not_or] at hcs
    rw [withReturns]
    by_cases hc : c = '\n'
    · -- The return is the last character of the line that is closed here, and is left out of it.
      have hreturn : linesFrom line ('\r' :: '\n' :: withReturns cs) =
          line.reverse :: linesFrom [] (withReturns cs) := rfl
      rw [if_pos hc, hreturn, ih List.not_mem_nil hcs.2, linesFrom, if_pos hc,
        closeLine_of_not_mem hline]
    · have hmem : '\r' ∉ c :: line := by simpa [hline] using hcs.1
      rw [if_neg hc, linesFrom, linesFrom, if_neg hc, if_neg hc, ih hmem hcs.2]

/-- **Carriage returns in front of the line feeds do not change the lines.** -/
theorem lines_withReturns {cs : List Char} (h : '\r' ∉ cs) : lines (withReturns cs) = lines cs :=
  linesFrom_withReturns List.not_mem_nil h

end Text

namespace Markup

/-- **A tree does not depend on how the lines of its text end:** with a carriage return in front of
every line feed, a text that had none is read as it was. -/
theorem parse_withReturns {source : String} (h : '\r' ∉ source.toList) :
    parse (String.ofList (Text.withReturns source.toList)) = parse source := by
  rw [parse, parse, String.toList_ofList, Text.lines_withReturns h]

/-- Emphasis that goes on over the end of a line, a line of blanks, code with blanks and an empty
line in it, and a fence that is never closed, whose last line has no end. -/
theorem parse_withReturns_sample :
    '\r' ∉ "a *b\nc*\n \n```py\nx \n\n```\n``` \ny".toList ∧
      String.ofList (Text.withReturns "a *b\nc*\n \n```py\nx \n\n```\n``` \ny".toList) =
        "a *b\r\nc*\r\n \r\n```py\r\nx \r\n\r\n```\r\n``` \r\ny" ∧
      parse "a *b\r\nc*\r\n \r\n```py\r\nx \r\n\r\n```\r\n``` \r\ny" =
        ⟨[.paragraph [.text "a ", .emphasis [.text "b\nc"]], .code "py" "x \n", .code "" "y"]⟩ := by
  have hreturns : '\r' ∉ "a *b\nc*\n \n```py\nx \n\n```\n``` \ny".toList := by decide
  have hwith :
      String.ofList (Text.withReturns "a *b\nc*\n \n```py\nx \n\n```\n``` \ny".toList) =
        "a *b\r\nc*\r\n \r\n```py\r\nx \r\n\r\n```\r\n``` \r\ny" := rfl
  have hparse := parse_withReturns hreturns
  rw [hwith] at hparse
  exact ⟨hreturns, hwith, hparse.trans (by cbv)⟩

end Markup
end DocTree
