/-
# Reading JSON

A text is read in one pass, a character at a time, by a machine whose state says what
is expected next and holds the arrays and objects that are open (`State`).  Running
out of text in a state gives the page read so far (`State.page`).  White space is the
blank, the tab, the line feed and the carriage return.

Source: the JSON reader that `directive.load` calls.
-/

import DocTree.Json.Quoted
import DocTree.Json.Digits

namespace DocTree
namespace Json

/-- An array or object that is open around a value, with what precedes the value in it,
newest first. -/
inductive Frame where
  /-- The value is an item. -/
  | item (items : List Draft)
  /-- The value is that of the member with the given key. -/
  | member (members : List (StringText × Draft)) (key : StringText)
  deriving Repr, Inhabited

namespace Frame

/-- The open array or object, ending after the value. -/
def close (value : Draft) (damage? : Option Damage) : Frame → Draft
  | item items => .array (value :: items).reverse damage?
  | member members name => .object ((name, value) :: members).reverse damage?

/-- The outermost of the open arrays and objects, ending within the value. -/
def breakOff (damage : Damage) (value : Draft) (outer : List Frame) : Draft :=
  outer.foldl (fun inner frame => frame.close inner (some damage)) value

end Frame

/-- What the reader expects next.  The frames are those around the value that is read,
innermost first; items and members are given newest first. -/
inductive State where
  /-- A value. -/
  | expectValue (outer : List Frame)
  /-- The first item of an array, or its end. -/
  | firstItem (outer : List Frame)
  /-- A comma after an item, or the end of the array. -/
  | afterItem (items : List Draft) (outer : List Frame)
  /-- The first key of an object, or its end. -/
  | firstKey (outer : List Frame)
  /-- The key of a further member. -/
  | nextKey (members : List (StringText × Draft)) (outer : List Frame)
  /-- More of a key. -/
  | inKey (text : Quoted) (members : List (StringText × Draft)) (outer : List Frame)
  /-- The colon after a key. -/
  | afterKey (key : StringText) (members : List (StringText × Draft)) (outer : List Frame)
  /-- A comma after a member, or the end of the object. -/
  | afterMember (members : List (StringText × Draft)) (outer : List Frame)
  /-- More of a string. -/
  | inString (text : Quoted) (outer : List Frame)
  /-- More of a number, or what follows it. -/
  | inNumber (digits : Digits) (outer : List Frame)
  /-- More of a keyword that stands for a value. -/
  | inKeyword (rest : List Char) (meaning : Draft) (outer : List Frame)
  /-- Nothing: the value is complete. -/
  | complete (value : Draft)
  /-- Nothing that could mend the text. -/
  | stopped (page : Page)
  deriving Inhabited

/-- Whether a character may stand between the tokens of a text. -/
def isSpace (c : Char) : Bool :=
  c = ' ' || c = '\t' || c = '\n' || c = '\r'

namespace State

/-- A text that stops being JSON within a value. -/
def refuse (value : Draft) (outer : List Frame) : State :=
  stopped { value := Frame.breakOff (.both .notJson) value outer }

/-- A text that stops being JSON where a value should be. -/
def refuseValue (outer : List Frame) : State :=
  refuse (.broken (.both .notJson)) outer

/-- A text that stops being JSON in an array, after its items. -/
def refuseArray (items : List Draft) (outer : List Frame) : State :=
  refuse (.array items.reverse (some (.both .notJson))) outer

/-- A text that stops being JSON in an object, after its members. -/
def refuseObject (members : List (StringText × Draft)) (outer : List Frame) : State :=
  refuse (.object members.reverse (some (.both .notJson))) outer

/-- Goes on after a value that is complete. -/
def deliver (value : Draft) : List Frame → State
  | [] => complete value
  | .item items :: outer => afterItem (value :: items) outer
  | .member members key :: outer => afterMember ((key, value) :: members) outer

/-- Begins a value. -/
def begin (c : Char) (outer : List Frame) : State :=
  match c with
  | '"' => inString {} outer
  | '[' => firstItem outer
  | '\x7b' => firstKey outer
  | 'n' => inKeyword ['u', 'l', 'l'] .null outer
  | 't' => inKeyword ['r', 'u', 'e'] (.bool true) outer
  | 'f' => inKeyword ['a', 'l', 's', 'e'] (.bool false) outer
  | _ => match Digits.start? c with
    | some digits => inNumber digits outer
    | none => refuseValue outer

/-- Takes a character after a value. -/
def follow (state : State) (c : Char) : State :=
  if isSpace c then state
  else match state with
    | afterItem items outer =>
      if c = ',' then expectValue (.item items :: outer)
      else if c = ']' then deliver (.array items.reverse none) outer
      else refuseArray items outer
    | afterMember members outer =>
      if c = ',' then nextKey members outer
      else if c = '\x7d' then deliver (.object members.reverse none) outer
      else refuseObject members outer
    | complete value => stopped { value, surplus := true }
    | other => other

/-- Takes one character of the text. -/
def step (state : State) (c : Char) : State :=
  match state with
  | expectValue outer => if isSpace c then state else begin c outer
  | firstItem outer =>
    if isSpace c then state
    else if c = ']' then deliver (.array [] none) outer
    else begin c (.item [] :: outer)
  | firstKey outer =>
    if isSpace c then state
    else if c = '"' then inKey {} [] outer
    else if c = '\x7d' then deliver (.object [] none) outer
    else refuseObject [] outer
  | nextKey members outer =>
    if isSpace c then state
    else if c = '"' then inKey {} members outer
    else refuseObject members outer
  | inKey text members outer => match text.step c with
    | .more text => inKey text members outer
    | .done text => afterKey text members outer
    | .refused => refuseObject members outer
  | afterKey key members outer =>
    if isSpace c then state
    else if c = ':' then expectValue (.member members key :: outer)
    else refuseValue (.member members key :: outer)
  | inString text outer => match text.step c with
    | .more text => inString text outer
    | .done text => deliver (.string text) outer
    | .refused => refuseValue outer
  | inNumber digits outer => match digits.step c with
    | .more digits => inNumber digits outer
    | .ended => (deliver (.number digits.numeral) outer).follow c
    | .refused => refuseValue outer
  | inKeyword rest meaning outer => match rest with
    | [] => refuseValue outer
    | d :: rest =>
      if c ≠ d then refuseValue outer
      else if rest.isEmpty then deliver meaning outer
      else inKeyword rest meaning outer
  | afterItem .. | afterMember .. | complete _ => state.follow c
  | stopped _ => state

/-- The page of a text that ends in the state. -/
def page (state : State) : Page :=
  let cut (damage : Damage) (value : Draft) (outer : List Frame) : Page :=
    { value := Frame.breakOff damage value outer }
  let ended : Damage := .both .endOfText
  match state with
  | expectValue outer | inKeyword _ _ outer => cut ended (.broken ended) outer
  | firstItem outer => cut ended (.array [] (some ended)) outer
  | afterItem items outer => cut ended (.array items.reverse (some ended)) outer
  | firstKey outer => cut ended (.object [] (some ended)) outer
  | nextKey members outer | afterMember members outer =>
    cut ended (.object members.reverse (some ended)) outer
  | inKey text members outer => cut ended (.object members.reverse (some text.damage)) outer
  | afterKey key members outer =>
    cut ended (.broken ended) (.member members key :: outer)
  | inString text outer => cut ended (.broken text.damage) outer
  | inNumber digits outer => match outer with
    | [] => { value := digits.atEnd }
    | _ => cut ended digits.atEnd outer
  | complete value => { value }
  | stopped page => page

/-- The state after a text. -/
def run (state : State) (text : List Char) : State :=
  text.foldl step state

end State

/-- What a text holds. -/
def Page.ofText (text : List Char) : Page :=
  (State.run (.expectValue []) text).page

end Json
end DocTree
