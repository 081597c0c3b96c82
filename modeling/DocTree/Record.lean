/-
# Records

A catalog is recorded as JSON: an object of submodules, each an object of functions,
each an object of sections or a list of them by position.  Keys that name nothing are
skipped; a section that is named twice is refused.

What documentation tools leave in a section they did not fill varies, so most
sections take any value and count as absent when it is not of their shape.  Only
parameter lists insist on theirs.

Source: the reading that `model.FunctionDoc` and `model.Parameter` declare for their
fields, with `model.text_block`, `model.line_block`, `model.lines` and
`model.string_items`.
-/

import DocTree.Docstring
import DocTree.Json.Reader

namespace DocTree

open Json (Draft Fault Page StringText keepText intact)

/-- The strings among the items of a list. -/
def stringItems (items : List Json) : List String :=
  items.filterMap Json.string?

/-- The value of a section of prose. -/
def proseOf : Json → Option String
  | .string text => some text
  | _ => none

/-- The value of a section of lines. -/
def linesOf : Json → Option (List String)
  | .array items => some (stringItems items)
  | _ => none

/-- The value of a summary, a section of lines where a string counts as one line. -/
def summaryOf : Json → Option (List String)
  | .string line => some [line]
  | value => linesOf value

/-- The value of a section that takes anything but null. -/
def anythingOf : Json → Option Json
  | .null => none
  | value => some value

/-- How a structure is recorded: as an object of its parts, or as a list of them by position. -/
structure Layout (α κ : Type) where
  /-- The parts in the order of a list. -/
  parts : List κ
  /-- The part that a key names. -/
  ofKey? : String → Option κ
  /-- Reads one part of the structure. -/
  readPart : α → κ → Draft → Except Fault α

namespace Layout

variable {α κ : Type}

/-- Reads parts by key.  `seen` are the parts that were given before. -/
def readMembers [DecidableEq κ] (layout : Layout α κ) (whole : α) (seen : List κ) :
    List (StringText × Draft) → Except Fault α
  | [] => .ok whole
  | (key, value) :: members => do
    match layout.ofKey? (← keepText key) with
    | none =>
      value.skip
      layout.readMembers whole seen members
    | some part =>
      if part ∈ seen then .error .wrongShape
      else layout.readMembers (← layout.readPart whole part value) (part :: seen) members

/-- Reads parts by position.  An item too many is where the list should have ended. -/
def readItems (layout : Layout α κ) (whole : α) : List κ → List Draft → Except Fault α
  | _, [] => .ok whole
  | [], _ :: _ => .error .notJson
  | part :: parts, value :: values => do
    layout.readItems (← layout.readPart whole part value) parts values

/-- Reads the parts of a structure. -/
def read [DecidableEq κ] (layout : Layout α κ) (whole : α) : Draft → Except Fault α
  | .object members damage? => do
    let result ← layout.readMembers whole [] members
    intact damage?
    return result
  | .array items damage? => do
    let result ← layout.readItems whole layout.parts items
    intact damage?
    return result
  | value => .error value.misfit

end Layout

namespace Parameter

/-- A part of an entry of a parameter list. -/
inductive Part where
  | name
  | type
  | description
  deriving Repr, DecidableEq, Inhabited

namespace Part

/-- The parts in the order of an entry written by position. -/
def all : List Part :=
  [name, type, description]

/-- The key of a part in a record. -/
def key : Part → String
  | name => "name"
  | type => "type"
  | description => "desc"

/-- The part that a key names. -/
def ofKey? (key : String) : Option Part :=
  all.find? (·.key = key)

end Part

/-- The entry with another text as one of its parts. -/
def set (p : Parameter) (part : Part) (text : String) : Parameter :=
  match part with
  | .name => { p with name := text }
  | .type => { p with type := text }
  | .description => { p with description := text }

/-- Reads one part of an entry, which must be a string. -/
def readPart (p : Parameter) (part : Part) : Draft → Except Fault Parameter
  | .string (some text) => .ok (p.set part text)
  | value => .error value.misfit

/-- An entry by its parts. -/
def layout : Layout Parameter Part :=
  ⟨Part.all, Part.ofKey?, readPart⟩

/-- Reads an entry of a parameter list. -/
def ofDraft : Draft → Except Fault Parameter :=
  layout.read {}

/-- Reads the entries of a parameter list. -/
def listOfDrafts : List Draft → Except Fault (List Parameter)
  | [] => .ok []
  | item :: items => do
    let p ← ofDraft item
    return p :: (← listOfDrafts items)

/-- Reads a parameter list; null stands for none. -/
def listOfDraft : Draft → Except Fault (Option (List Parameter))
  | .null => .ok none
  | .array items damage? => do
    let list ← listOfDrafts items
    intact damage?
    return some list
  | value => .error value.misfit

end Parameter

namespace Docstring

/-- Reads one section, with room for `depth` levels of nesting in its value. -/
def readSection (depth : Nat) (doc : Docstring) (part : Section) (value : Draft) :
    Except Fault Docstring :=
  match part with
  | .summary => do return { doc with summary := summaryOf (← value.keep depth) }
  | .extendedSummary => do return { doc with extendedSummary := proseOf (← value.keep depth) }
  | .group g => do return doc.setGroup g (← Parameter.listOfDraft value)
  | .notes => do return { doc with notes := proseOf (← value.keep depth) }
  | .references => do return { doc with references := linesOf (← value.keep depth) }
  | .examples => do return { doc with examples := linesOf (← value.keep depth) }
  | .seeAlso => do return { doc with seeAlso := anythingOf (← value.keep depth) }

/-- A docstring by its sections. -/
def layout (depth : Nat) : Layout Docstring Section :=
  ⟨Section.all, Section.ofKey?, readSection depth⟩

/-- Reads a docstring, with room for `depth` levels of nesting below its own. -/
def ofDraft (depth : Nat) : Draft → Except Fault Docstring :=
  (layout depth).read {}

end Docstring

namespace Listing

/-- Reads named things into a listing: a name that comes again stands for the last thing
under it, in the place of the first. -/
def readMembers {α : Type} (decoder : Draft → Except Fault α) (listing : Listing α) :
    List (StringText × Draft) → Except Fault (Listing α)
  | [] => .ok listing
  | (key, value) :: members => do
    let name ← keepText key
    (listing.insert name (← decoder value)).readMembers decoder members

/-- Reads an object of named things. -/
def ofDraft {α : Type} (decoder : Draft → Except Fault α) : Draft → Except Fault (Listing α)
  | .object members damage? => do
    let listing ← Listing.empty.readMembers decoder members
    intact damage?
    return listing
  | value => .error value.misfit

end Listing

/-- Reads the text of one entry of a parameter list. -/
def Parameter.ofText (text : String) : Except Fault Parameter :=
  (Page.ofText text.toList).decode Parameter.ofDraft

/-- Reads the text of one docstring. -/
def Docstring.ofText (text : String) : Except Fault Docstring :=
  (Page.ofText text.toList).decode (Docstring.ofDraft (Json.nestingLimit - 1))

/-- Reads the text of a catalog.  A docstring in it stands below two objects. -/
def Catalog.ofText (text : String) : Except Fault Catalog :=
  (Page.ofText text.toList).decode
    (Listing.ofDraft (Listing.ofDraft (Docstring.ofDraft (Json.nestingLimit - 3))))

/-- Reads the text of any value. -/
def Json.ofText (text : String) : Except Fault Json :=
  (Page.ofText text.toList).keep

end DocTree
