/-
# Blocks

Prose as blocks: paragraphs, which blank lines separate, and fenced blocks, which run
from a line that begins with three backticks to the next such line or to the end.
Blanks before the backticks do not matter, nor does what follows those that close a
block.

Source: `markup.MarkupParser` with `parse`, and `markup.flush_paragraph`.
-/

import DocTree.Markup.Fence
import DocTree.Markup.Inline
import DocTree.Text.Line

namespace DocTree
namespace Markup

/-- A line of a text, without its end. -/
abbrev Line := List Char

/-- The characters that open and close a fenced block. -/
def fenceMark : List Char :=
  [backtick, backtick, backtick]

/-- What follows the mark on a line that opens a fenced block. -/
def fenceInfo? (line : Line) : Option (List Char) :=
  let start := Text.trimStart line
  if fenceMark.isPrefixOf start then some (start.drop fenceMark.length) else none

/-- Whether a line opens or closes a fenced block. -/
def isFence (line : Line) : Bool :=
  (fenceInfo? line).isSome

/-- A block of prose. -/
inductive Block where
  /-- Lines of running text, without the blanks at their ends. -/
  | paragraph (lines : List Line)
  /-- A fenced block: its info string without blanks at either end, and its lines. -/
  | fenced (info : List Char) (body : List Line)
  deriving Repr, DecidableEq, Inhabited

/-- The node of a block. -/
def Block.toNode : Block → Node
  | paragraph lines => .paragraph (inlineNodes (Text.joinLines lines))
  | fenced info body => fencedBlock info (Text.joinLines body)

/-- The block that the next line may belong to, with its lines newest first. -/
inductive Open where
  /-- A paragraph, which has not begun if it has no lines. -/
  | paragraph (lines : List Line)
  /-- A fenced block. -/
  | fenced (info : List Char) (body : List Line)
  deriving Repr, DecidableEq, Inhabited

/-- The block that was open when another one or the end of the text comes. -/
def Open.close : Open → List Block
  | paragraph [] => []
  | paragraph lines => [.paragraph lines.reverse]
  | fenced info body => [.fenced info body.reverse]

/-- The blocks of lines that follow an open block. -/
def blocksFrom : Open → List Line → List Block
  | block, [] => block.close
  | .fenced info body, line :: lines =>
    if isFence line then (Open.fenced info body).close ++ blocksFrom (.paragraph []) lines
    else blocksFrom (.fenced info (line :: body)) lines
  | .paragraph ls, line :: lines =>
    match fenceInfo? line with
    | some info => (Open.paragraph ls).close ++ blocksFrom (.fenced (Text.trim info) []) lines
    | none =>
      if Text.isBlankText line then (Open.paragraph ls).close ++ blocksFrom (.paragraph []) lines
      else blocksFrom (.paragraph (Text.trimEnd line :: ls)) lines

/-- The blocks of some lines. -/
def blocks (lines : List Line) : List Block :=
  blocksFrom (.paragraph []) lines

/-- The tree of a piece of prose. -/
def parse (source : String) : Root :=
  { children := (blocks (Text.lines source.toList)).map Block.toNode }

end Markup
end DocTree
