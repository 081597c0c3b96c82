/-
# Splitting at a character

A text cut at every occurrence of a character.  There is always one part more than
there are occurrences, and a part may be empty.

Source: the splitting in `directive.DirectiveArg` and `directive.select`.
-/

namespace DocTree
namespace Text

/-- The parts of a text between the occurrences of a character. -/
def split (mark : Char) : List Char → List (List Char)
  | [] => [[]]
  | c :: cs =>
    if c = mark then [] :: split mark cs
    else match split mark cs with
      | [] => [[c]]
      | part :: parts => (c :: part) :: parts

/-- The part at a position, if it is there and not empty. -/
def part? (parts : List (List Char)) (i : Nat) : Option String :=
  (parts[i]?.filter (!·.isEmpty)).map String.ofList

end Text
end DocTree
