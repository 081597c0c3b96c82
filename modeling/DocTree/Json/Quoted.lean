/-
# Strings, a character at a time

What is known of a string between its quotation marks when some of its characters
are read.  An escape `\uXXXX` names a UTF-16 code unit; a high surrogate waits for
the escape of the low surrogate that completes it.  Whatever else follows leaves the
surrogate unpaired, which the reading notes and survives: whether it matters is for
the reader of the value to say.

Source: the strings of the JSON reader that `directive.load` calls.
-/

import DocTree.Json.Draft

namespace DocTree
namespace Json

/-- Where in a string the next character falls. -/
inductive Quoted.Place where
  /-- Between characters. -/
  | plain
  /-- After a backslash. -/
  | escape
  /-- Within the four digits of a code unit, of which the ones read are given, newest
  first. -/
  | unit (digits : List Char)
  deriving Repr, DecidableEq, Inhabited

/-- A string that is being read. -/
structure Quoted where
  /-- The characters so far, newest first. -/
  chars : List Char := []
  /-- A high surrogate that waits for its partner. -/
  lead? : Option Nat := none
  /-- Whether no surrogate so far stands alone. -/
  paired : Bool := true
  /-- Where the next character falls. -/
  place : Quoted.Place := .plain
  deriving Repr, DecidableEq, Inhabited

namespace Quoted

/-- What a character does to a string that is being read. -/
inductive Next where
  /-- The string goes on. -/
  | more (string : Quoted)
  /-- The string ends. -/
  | done (text : StringText)
  /-- The character cannot stand there. -/
  | refused
  deriving Repr, DecidableEq, Inhabited

/-- Notes that what follows is not the partner of the surrogate that waits, if one does. -/
def settle (q : Quoted) : Quoted :=
  { q with lead? := none, paired := q.paired && q.lead?.isNone }

/-- Takes one character of the text that the string stands for. -/
def push (q : Quoted) (c : Char) : Quoted :=
  { q.settle with chars := c :: q.chars, place := .plain }

/-- The text of the string if it ends here. -/
def text (q : Quoted) : StringText :=
  if q.settle.paired then some (String.ofList q.chars.reverse) else none

/-- The damage if the text breaks off within the string. -/
def damage (q : Quoted) : Damage :=
  ⟨if q.paired then .endOfText else .notJson, .endOfText⟩

/-- The character that an escape of one letter stands for. -/
def unescape? (c : Char) : Option Char :=
  match c with
  | '"' | '\\' | '/' => some c
  | 'b' => some '\x08'
  | 'f' => some '\x0c'
  | 'n' => some '\n'
  | 'r' => some '\r'
  | 't' => some '\t'
  | _ => none

/-- The value of a hexadecimal digit. -/
def hexDigit? (c : Char) : Option Nat :=
  if '0' ≤ c ∧ c ≤ '9' then some (c.toNat - '0'.toNat)
  else if 'a' ≤ c ∧ c ≤ 'f' then some (c.toNat - 'a'.toNat + 10)
  else if 'A' ≤ c ∧ c ≤ 'F' then some (c.toNat - 'A'.toNat + 10)
  else none

/-- The number that hexadecimal digits, the newest first, spell. -/
def hexValue? : List Char → Option Nat
  | [] => some 0
  | c :: digits => do
    let digit ← hexDigit? c
    return (← hexValue? digits) * 16 + digit

/-- Whether a code unit is the first of a surrogate pair. -/
def isLead (unit : Nat) : Bool :=
  0xD800 ≤ unit && unit ≤ 0xDBFF

/-- Whether a code unit is the second of a surrogate pair. -/
def isTrail (unit : Nat) : Bool :=
  0xDC00 ≤ unit && unit ≤ 0xDFFF

/-- The character that a surrogate pair stands for. -/
def pairChar (lead trail : Nat) : Char :=
  Char.ofNat (0x10000 + (lead - 0xD800) * 0x400 + (trail - 0xDC00))

/-- Takes one code unit of the text that the string stands for. -/
def pushUnit (q : Quoted) (unit : Nat) : Quoted :=
  match q.lead? with
  | some lead =>
    if isTrail unit then
      { q with chars := pairChar lead unit :: q.chars, lead? := none, place := .plain }
    else { q.settle with place := .plain }
  | none =>
    if isLead unit then { q with lead? := some unit, place := .plain }
    else if isTrail unit then { q with paired := false, place := .plain }
    else q.push (Char.ofNat unit)

/-- The number of bytes that the characters take. -/
def byteCount (cs : List Char) : Nat :=
  cs.foldr (fun c count => c.utf8Size + count) 0

/-- Takes one character of the source.  The digits of a code unit are the next four bytes
whatever they are, and are looked at together. -/
def step (q : Quoted) (c : Char) : Next :=
  match q.place with
  | .plain =>
    if c = '"' then .done q.text
    else if c = '\\' then .more { q with place := .escape }
    else if c.toNat < 0x20 then .refused
    else .more (q.push c)
  | .escape =>
    if c = 'u' then .more { q with place := .unit [] }
    else match unescape? c with
      | some d => .more (q.push d)
      | none => .refused
  | .unit digits =>
    let digits := c :: digits
    if byteCount digits < 4 then .more { q with place := .unit digits }
    else match hexValue? digits with
      | some unit => .more (q.pushUnit unit)
      | none => .refused

end Quoted
end Json
end DocTree
