/-
# Drafts

What a text holds when it is read as JSON from its beginning: a value, or as much of
one as there is before the first place where the text breaks off or stops being
JSON.  A draft keeps that place, so whoever decodes it meets the faults in reading
order: one in the shape of an early member comes before one in the text after it.

A value is *kept* or *skipped*.  Keeping it (`Draft.keep`) is the stricter reading:
escapes that name half a surrogate pair, numbers out of range and deep nesting are
refused.  Skipping it (`Draft.skip`) asks for the grammar alone.

Source: the JSON reader that `directive.load` calls, which reads a record in one pass and
stops at the first fault; its limit on nesting.
-/

import DocTree.Json.Value

namespace DocTree
namespace Json

/-- Why a text is refused. -/
inductive Fault where
  /-- The text ends where more is needed. -/
  | endOfText
  /-- The text is not JSON. -/
  | notJson
  /-- The text is JSON so far, but not of the shape asked for. -/
  | wrongShape
  deriving Repr, DecidableEq, Inhabited

/-- The fault at the place where a text breaks off, in either way of reading it. -/
structure Damage where
  /-- The fault when the value is kept. -/
  kept : Fault
  /-- The fault when the value is skipped. -/
  skipped : Fault
  deriving Repr, DecidableEq, Inhabited

/-- The same fault in both ways of reading. -/
def Damage.both (fault : Fault) : Damage :=
  ⟨fault, fault⟩

/-- The text of a string as far as it can be told: absent if an escape in it names half
a surrogate pair. -/
abbrev StringText := Option String

/-- A value as far as the text goes.  An array or object that breaks off after its last
item or member says how; one that breaks off inside of it ends with a broken value. -/
inductive Draft where
  | null
  | bool (value : Bool)
  | number (value : Numeral)
  | string (text : StringText)
  | array (items : List Draft) (damage? : Option Damage)
  | object (members : List (StringText × Draft)) (damage? : Option Damage)
  /-- No value, or one that breaks off before it is of use. -/
  | broken (damage : Damage)
  deriving Repr, Inhabited

/-- Goes on if nothing is damaged, and gives the fault of a kept value otherwise. -/
def intact : Option Damage → Except Fault Unit
  | none => .ok ()
  | some damage => .error damage.kept

/-- The text of a string that is kept. -/
def keepText : StringText → Except Fault String
  | some text => .ok text
  | none => .error .notJson

/-- The number of arrays and objects that may be open at once around a kept value. -/
def nestingLimit : Nat := 127

namespace Draft

mutual

/-- Reads a value for its sake, with room for `depth` more levels of nesting. -/
def keep (depth : Nat) : Draft → Except Fault Json
  | null => .ok .null
  | bool value => .ok (.bool value)
  | number value => if value.inRange then .ok (.number value) else .error .notJson
  | string text => do return .string (← keepText text)
  | array items damage? => match depth with
    | 0 => .error .notJson
    | depth + 1 => do
      let values ← keepItems depth items
      intact damage?
      return .array values
  | object members damage? => match depth with
    | 0 => .error .notJson
    | depth + 1 => do
      let values ← keepMembers depth members
      intact damage?
      return .object values
  | broken damage => .error damage.kept

/-- Reads the items of an array for their sake. -/
def keepItems (depth : Nat) : List Draft → Except Fault (List Json)
  | [] => .ok []
  | item :: items => do
    let value ← item.keep depth
    return value :: (← keepItems depth items)

/-- Reads the members of an object for their sake. -/
def keepMembers (depth : Nat) : List (StringText × Draft) → Except Fault (List (String × Json))
  | [] => .ok []
  | (key, item) :: members => do
    let name ← keepText key
    let value ← item.keep depth
    return (name, value) :: (← keepMembers depth members)

end

mutual

/-- Reads over a value that nobody asked for. -/
def skip : Draft → Except Fault Unit
  | array items damage? => do
    skipItems items
    skipEnd damage?
  | object members damage? => do
    skipMembers members
    skipEnd damage?
  | broken damage => .error damage.skipped
  | _ => .ok ()

/-- Reads over the items of an array. -/
def skipItems : List Draft → Except Fault Unit
  | [] => .ok ()
  | item :: items => do
    item.skip
    skipItems items

/-- Reads over the members of an object. -/
def skipMembers : List (StringText × Draft) → Except Fault Unit
  | [] => .ok ()
  | (_, item) :: members => do
    item.skip
    skipMembers members

/-- Reads over the end of an array or object. -/
def skipEnd : Option Damage → Except Fault Unit
  | none => .ok ()
  | some damage => .error damage.skipped

end

/-- The fault of a value that is not of the shape asked for.  A scalar is read to its end
first, so what is wrong with it as a scalar comes before its being one. -/
def misfit : Draft → Fault
  | number value => if value.inRange then .wrongShape else .notJson
  | string none => .notJson
  | broken damage => damage.kept
  | _ => .wrongShape

end Draft

/-- A whole text: the value it begins with, and whether anything but white space
follows it. -/
structure Page where
  /-- The value that the text begins with. -/
  value : Draft
  /-- Whether something follows that does not belong to it. -/
  surplus : Bool := false
  deriving Repr, Inhabited

/-- Decodes the value of a page, which must then be all there is. -/
def Page.decode {α : Type} (page : Page) (decoder : Draft → Except Fault α) : Except Fault α := do
  let value ← decoder page.value
  if page.surplus then .error .notJson else .ok value

/-- Reads a page for the value it holds. -/
def Page.keep (page : Page) : Except Fault Json :=
  page.decode (Draft.keep nestingLimit)

end Json
end DocTree
