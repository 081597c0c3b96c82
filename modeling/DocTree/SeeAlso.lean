/-
# See also

The references of a docstring to related functions come as nested lists, in which a
pair of a name and null is a reference, and a string is a remark.  Below a number of
levels a pair of strings is a reference too, the second being the role of the name;
above it such a pair is two lines of a remark.

The lists are flattened once (`SeeAlso.entries`) and rendered from there.

Source: `see_also.SeeAlsoEntry` with `cross_ref`, `see_also.normalize`, `collect`,
`as_pair`, `resolve` and `section`, and `see_also.NAME_PAIR_LEVEL`.
-/

import DocTree.Context
import DocTree.Json.Value
import DocTree.Node

namespace DocTree

/-- A thing that a docstring refers to, or says about what it refers to. -/
inductive SeeAlso.Entry where
  /-- A remark, which is not prose to be parsed. -/
  | text (text : String)
  /-- The name of a function; a qualified name says itself where the function is. -/
  | reference (name : String) (qualified : Bool)
  deriving Repr, DecidableEq, Inhabited

namespace SeeAlso

/-- A reference to a function; a name with a dot is qualified. -/
def Entry.ofName (name : String) : Entry :=
  .reference name (name.toList.contains '.')

/-- The level at which the names of an entry are listed, the whole value being at level
zero. -/
def nameLevel : Nat := 3

/-- The name that a list at some level refers to, if it is a reference. -/
def pairName? (level : Nat) : List Json → Option String
  | [.string name, .null] => some name
  | [.string name, .string _] => if nameLevel ≤ level then some name else none
  | _ => none

mutual

/-- The entries of a value at some level.  Empty strings, empty names, objects and the
remaining scalars give none. -/
def entriesAt (level : Nat) : Json → List Entry
  | .string text => if text = "" then [] else [.text text]
  | .array items => match pairName? level items with
    | some name => if name = "" then [] else [.ofName name]
    | none => entriesOfItems (level + 1) items
  | _ => []

/-- The entries of the items of a list. -/
def entriesOfItems (level : Nat) : List Json → List Entry
  | [] => []
  | item :: items => entriesAt level item ++ entriesOfItems level items

end

/-- The entries of a value, in order. -/
def entries (value : Json) : List Entry :=
  entriesAt 0 value

/-- The label that a name leads to: its own if it is qualified, and otherwise that of the
function of this name beside the current one. -/
def resolve (name : String) (qualified : Bool) (ctx : Context) : String :=
  if qualified then name else (ctx.inFunction name).label

/-- The link of a reference. -/
def link? (ctx : Context) : Entry → Option Node
  | .reference name qualified => some (.anchorLink (resolve name qualified ctx) name)
  | .text _ => none

/-- The text of a remark. -/
def text? : Entry → Option String
  | .text text => some text
  | .reference .. => none

/-- The section of the function that the context is at: the links in one paragraph, then
the remarks in another.  Without entries there is no section. -/
def render (value : Json) (ctx : Context) : List Node :=
  let all := entries value
  let links := all.filterMap (link? ctx)
  let text := " ".intercalate (all.filterMap text?)
  if links.isEmpty && text.isEmpty then []
  else
    .titled ctx.nested.depth "See Also" ::
      ((if links.isEmpty then [] else [.paragraph (links.intersperse (.text ", "))]) ++
        if text.isEmpty then [] else [.paragraph [.text text]])

end SeeAlso
end DocTree
