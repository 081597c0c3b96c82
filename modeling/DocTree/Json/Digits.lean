/-
# Numbers, a character at a time

What is known of a number when some of its characters are read: the numeral so far,
and the part of the grammar that the last character belongs to.

Source: the grammar of numbers of the JSON reader that `directive.load` calls.
-/

import DocTree.Json.Draft

namespace DocTree
namespace Json

/-- The part of a number that its last character belongs to. -/
inductive Digits.Part where
  /-- The minus sign. -/
  | sign
  /-- A zero that is the only digit before the point. -/
  | zero
  /-- The digits before the point, the first of which is not zero. -/
  | whole
  /-- The point. -/
  | point
  /-- The digits after the point. -/
  | fraction
  /-- The letter before the power of ten. -/
  | mark
  /-- The sign of the power of ten. -/
  | markSign
  /-- The digits of the power of ten. -/
  | exponent
  deriving Repr, DecidableEq, Inhabited

/-- A number that is being read.  Its digits are kept newest first. -/
structure Digits where
  /-- The part that the last character belongs to. -/
  part : Digits.Part
  /-- Whether the number has a minus sign. -/
  negative : Bool := false
  /-- The digits before the point. -/
  whole : List Char := []
  /-- The digits after the point. -/
  fraction : List Char := []
  /-- Whether the power of ten has a minus sign. -/
  exponentNegative : Bool := false
  /-- The power of ten without its sign. -/
  exponent : Nat := 0
  deriving Repr, DecidableEq, Inhabited

namespace Digits

/-- What a character does to a number that is being read. -/
inductive Next where
  /-- The number goes on. -/
  | more (digits : Digits)
  /-- The number ended before the character. -/
  | ended
  /-- The character cannot stand there. -/
  | refused
  deriving Repr, DecidableEq, Inhabited

/-- The number that a character begins, if it can begin one. -/
def start? (c : Char) : Option Digits :=
  if c = '-' then some { part := .sign, negative := true }
  else if c = '0' then some { part := .zero, whole := ['0'] }
  else if c.isDigit then some { part := .whole, whole := [c] }
  else none

/-- The number that is read. -/
def numeral (d : Digits) : Numeral where
  negative := d.negative
  whole := d.whole.reverse
  fraction := d.fraction.reverse
  exponent := if d.exponentNegative then -(d.exponent : Int) else d.exponent

/-- Whether the number may end after its last character. -/
def mayEnd (d : Digits) : Bool :=
  match d.part with
  | .zero | .whole | .fraction | .exponent => true
  | .sign | .point | .mark | .markSign => false

/-- What a text that ends within the number holds.  Where a digit is missing, a number that
is kept breaks off, and one that is skipped is no number. -/
def atEnd (d : Digits) : Draft :=
  if d.mayEnd then .number d.numeral else .broken ⟨.endOfText, .notJson⟩

/-- Takes a digit of the power of ten. -/
def pushExponent (d : Digits) (c : Char) : Digits :=
  { d with part := .exponent, exponent := d.exponent * 10 + Numeral.digitValue c }

/-- What follows the digits before the point, if it belongs to the number. -/
def afterWhole (d : Digits) (c : Char) : Next :=
  if c = '.' then .more { d with part := .point }
  else if c = 'e' ∨ c = 'E' then .more { d with part := .mark }
  else .ended

/-- Takes one character of the source. -/
def step (d : Digits) (c : Char) : Next :=
  match d.part with
  | .sign =>
    if c = '0' then .more { d with part := .zero, whole := [c] }
    else if c.isDigit then .more { d with part := .whole, whole := [c] }
    else .refused
  | .zero => if c.isDigit then .refused else d.afterWhole c
  | .whole => if c.isDigit then .more { d with whole := c :: d.whole } else d.afterWhole c
  | .point =>
    if c.isDigit then .more { d with part := .fraction, fraction := [c] } else .refused
  | .fraction =>
    if c.isDigit then .more { d with fraction := c :: d.fraction }
    else if c = 'e' ∨ c = 'E' then .more { d with part := .mark }
    else .ended
  | .mark =>
    if c.isDigit then .more (d.pushExponent c)
    else if c = '+' then .more { d with part := .markSign }
    else if c = '-' then .more { d with part := .markSign, exponentNegative := true }
    else .refused
  | .markSign => if c.isDigit then .more (d.pushExponent c) else .refused
  | .exponent => if c.isDigit then .more (d.pushExponent c) else .ended

end Digits
end Json
end DocTree
