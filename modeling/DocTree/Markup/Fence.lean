/-
# Fenced blocks

What a fenced block means is told by its info string, the text after the opening
fence.  One of the form `{name} argument` is a directive: a version directive is a
note that the version in its argument, and any other is a block of code.  The
language of a block of code is the first word of the argument, or the name if there is
no argument, or the first word of an info string that is no directive.

Source: `markup.fenced_block` and `markup.RE_DIRECTIVE`.
-/

import DocTree.Text.Blank
import DocTree.Text.Word
import DocTree.Version

namespace DocTree
namespace Markup

/-- Whether a character may follow the first letter of a directive name. -/
def isNameChar (c : Char) : Bool :=
  Text.isWord c || c = '-'

/-- The name and the argument of a directive, if the info string is one. -/
def directive? : List Char → Option (List Char × List Char)
  | '\x7b' :: first :: cs =>
    if first.isAlpha then
      match cs.dropWhile isNameChar with
      | '\x7d' :: rest => some (first :: cs.takeWhile isNameChar, Text.trim rest)
      | _ => none
    else none
  | _ => none

/-- The language of a directive that is a block of code. -/
def directiveLanguage (name argument : List Char) : List Char :=
  match Text.firstWord argument with
  | [] => name
  | word => word

/-- The node of a fenced block. -/
def fencedBlock (info body : List Char) : Node :=
  match directive? info with
  | some (name, argument) =>
    match VersionChange.ofDirective? (String.ofList name) with
    | some change => change.note (String.ofList argument)
    | none => .code (String.ofList (directiveLanguage name argument)) (String.ofList body)
  | none => .code (String.ofList (Text.firstWord info)) (String.ofList body)

end Markup
end DocTree
