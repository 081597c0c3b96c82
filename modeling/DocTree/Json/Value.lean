/-
# JSON values

A JSON text as a value.  Numbers keep their digits, and an object keeps its members
as they are written, repeated keys included.

Source: the JSON values that `model.FunctionDoc` keeps and `see_also.normalize` goes
through.
-/

import DocTree.Json.Numeral

namespace DocTree

/-- A JSON value. -/
inductive Json where
  | null
  | bool (value : Bool)
  | number (value : Json.Numeral)
  | string (value : String)
  | array (items : List Json)
  | object (members : List (String × Json))
  deriving Repr, BEq, Inhabited

namespace Json

/-- The text of a string value. -/
def string? : Json → Option String
  | string value => some value
  | _ => none

/-- A natural number as a value. -/
def natural (n : Nat) : Json :=
  number (.ofNat n)

end Json
end DocTree
