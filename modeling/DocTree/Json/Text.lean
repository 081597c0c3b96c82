/-
# The text of a JSON value

Two layouts of a value: on one line (`Json.compact`), and with one item or member to
a line, each level indented by two blanks (`Json.pretty`).  Strings escape the
quotation mark, the backslash and the control characters below U+0020, the latter by
their short names where they have one; every other character stands for itself.

Source: the two JSON writers that `main.main` calls.
-/

import DocTree.Json.Value

namespace DocTree
namespace Json

/-- The characters that stand for `c` inside a string. -/
def escape (c : Char) : List Char :=
  if c = '"' then ['\\', '"']
  else if c = '\\' then ['\\', '\\']
  else if c.toNat = 0x8 then ['\\', 'b']
  else if c = '\t' then ['\\', 't']
  else if c = '\n' then ['\\', 'n']
  else if c.toNat = 0xC then ['\\', 'f']
  else if c = '\r' then ['\\', 'r']
  else if c.toNat < 0x20 then
    ['\\', 'u', '0', '0', Nat.digitChar (c.toNat / 16), Nat.digitChar (c.toNat % 16)]
  else [c]

/-- A string between quotation marks. -/
def quote (s : String) : List Char :=
  '"' :: s.toList.flatMap escape ++ ['"']

mutual

/-- The characters of a value on one line. -/
def compactText : Json → List Char
  | null => "null".toList
  | bool value => (if value then "true" else "false").toList
  | number value => value.text
  | string value => quote value
  | array items => '[' :: compactItems items ++ [']']
  | object members => '\x7b' :: compactMembers members ++ ['\x7d']

/-- The items of an array on one line. -/
def compactItems : List Json → List Char
  | [] => []
  | item :: [] => item.compactText
  | item :: items => item.compactText ++ ',' :: compactItems items

/-- The members of an object on one line. -/
def compactMembers : List (String × Json) → List Char
  | [] => []
  | (key, value) :: [] => quote key ++ ':' :: value.compactText
  | (key, value) :: members =>
    quote key ++ ':' :: value.compactText ++ ',' :: compactMembers members

end

/-- The beginning of a line at an indentation level. -/
def newLine (level : Nat) : List Char :=
  '\n' :: List.replicate (2 * level) ' '

mutual

/-- The characters of a value that stands at an indentation level. -/
def prettyText (level : Nat) : Json → List Char
  | null => "null".toList
  | bool value => (if value then "true" else "false").toList
  | number value => value.text
  | string value => quote value
  | array [] => ['[', ']']
  | array (item :: items) =>
    '[' :: newLine (level + 1) ++ item.prettyText (level + 1) ++ prettyItems (level + 1) items ++
      newLine level ++ [']']
  | object [] => ['\x7b', '\x7d']
  | object ((key, value) :: members) =>
    '\x7b' :: newLine (level + 1) ++ quote key ++ ':' :: ' ' :: value.prettyText (level + 1) ++
      prettyMembers (level + 1) members ++ newLine level ++ ['\x7d']

/-- The items of an array after the first, each on a line of its own. -/
def prettyItems (level : Nat) : List Json → List Char
  | [] => []
  | item :: items =>
    ',' :: newLine level ++ item.prettyText level ++ prettyItems level items

/-- The members of an object after the first, each on a line of its own. -/
def prettyMembers (level : Nat) : List (String × Json) → List Char
  | [] => []
  | (key, value) :: members =>
    ',' :: newLine level ++ quote key ++ ':' :: ' ' :: value.prettyText level ++
      prettyMembers level members

end

/-- The value on one line. -/
def compact (value : Json) : String :=
  String.ofList value.compactText

/-- The value with one item or member to a line. -/
def pretty (value : Json) : String :=
  String.ofList (value.prettyText 0)

end Json
end DocTree
