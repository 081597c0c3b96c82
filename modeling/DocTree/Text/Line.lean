/-
# Lines

A text as its lines.  A line feed ends a line, together with one carriage return
right before it; a carriage return anywhere else is a character of its line.  What
follows the last line feed is a line only if it is not empty.

Source: the lines that `markup.MarkupParser` goes through and joins.
-/

namespace DocTree
namespace Text

/-- The line whose characters, newest first, are given, once its line feed is read. -/
def closeLine : List Char → List Char
  | '\r' :: line => line.reverse
  | line => line.reverse

/-- The lines of a text that continues a line whose characters, newest first, are `line`. -/
def linesFrom (line : List Char) : List Char → List (List Char)
  | [] => if line.isEmpty then [] else [line.reverse]
  | c :: cs => if c = '\n' then closeLine line :: linesFrom [] cs else linesFrom (c :: line) cs

/-- The lines of a text, without their ends. -/
def lines (cs : List Char) : List (List Char) :=
  linesFrom [] cs

/-- The lines put together again, with a line feed between each two. -/
def joinLines (ls : List (List Char)) : List Char :=
  ['\n'].intercalate ls

end Text
end DocTree
