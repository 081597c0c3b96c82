/-
# Numerals

A JSON number as it is written: a sign, the digits before and after the point, and
a power of ten.  Nothing is rounded away, so two numerals are equal only if they
spell the same digits.

A numeral is out of range when its magnitude rounds to infinity in double precision
(`Numeral.inRange`).  The test works on the leading digits that fit in 64 bits: they
and the power of ten that remains are each rounded to a double before they are
multiplied, and that product is what must stay finite.

Source: the numbers of the JSON values in `model.FunctionDoc`, and when the reader refuses
one.
-/

namespace DocTree
namespace Json

/-- A number in decimal notation. -/
structure Numeral where
  /-- Whether a minus sign stands in front. -/
  negative : Bool := false
  /-- The digits before the point. -/
  whole : List Char
  /-- The digits after the point, none when there is no point. -/
  fraction : List Char := []
  /-- The power of ten that the digits are multiplied by. -/
  exponent : Int := 0
  deriving Repr, DecidableEq, Inhabited

namespace Numeral

/-- The value of a decimal digit. -/
def digitValue (c : Char) : Nat :=
  c.toNat - '0'.toNat

/-- The numeral of a natural number, without leading zeros. -/
def ofNat (n : Nat) : Numeral :=
  { whole := Nat.toDigits 10 n }

/-- The natural number that a numeral without sign, point and power of ten spells. -/
def toNat? (n : Numeral) : Option Nat :=
  if n.negative || !n.fraction.isEmpty || n.exponent ≠ 0 then none
  else some (Nat.ofDigitChars 10 n.whole 0)

/-- The power of ten as it is written after the digits, nothing when it is zero. -/
def exponentText : Int → List Char
  | .ofNat 0 => []
  | .ofNat (n + 1) => 'e' :: Nat.toDigits 10 (n + 1)
  | .negSucc n => 'e' :: '-' :: Nat.toDigits 10 (n + 1)

/-- The characters of a numeral. -/
def text (n : Numeral) : List Char :=
  (if n.negative then ['-'] else []) ++ n.whole ++
    (if n.fraction.isEmpty then [] else '.' :: n.fraction) ++ exponentText n.exponent

/-- The leading digits of a numeral as one number of 64 bits, scaled by a power of ten. -/
structure Leading where
  /-- The digits that fit. -/
  significand : Nat := 0
  /-- The power of ten they are scaled by. -/
  exponent : Int := 0
  /-- Whether a digit did not fit, so that no later one is taken. -/
  full : Bool := false

/-- Takes one digit before the point: one that does not fit scales the rest. -/
def Leading.pushWhole (l : Leading) (c : Char) : Leading :=
  let next := l.significand * 10 + digitValue c
  if l.full || UInt64.size ≤ next then { l with exponent := l.exponent + 1, full := true }
  else { l with significand := next }

/-- Takes one digit after the point: one that does not fit is dropped. -/
def Leading.pushFraction (l : Leading) (c : Char) : Leading :=
  let next := l.significand * 10 + digitValue c
  if l.full || UInt64.size ≤ next then { l with full := true }
  else { l with significand := next, exponent := l.exponent - 1 }

/-- The leading digits of a numeral.  The digits after the point are tried even when
one before it did not fit. -/
def leading (n : Numeral) : Leading :=
  let whole := n.whole.foldl Leading.pushWhole {}
  let l := n.fraction.foldl Leading.pushFraction { whole with full := false }
  { l with exponent := l.exponent + n.exponent }

/-- A natural number rounded to the 53 significant bits of a double, a tie going to
the even neighbour. -/
def toDoublePrecision (n : Nat) : Nat :=
  let unit := Nat.pow 2 (n.log2 - 52)
  let quotient := n / unit
  let twice := 2 * (n % unit)
  let up := unit < twice || (twice == unit && quotient % 2 == 1)
  (if up then quotient + 1 else quotient) * unit

/-- The least natural number that rounds to infinity in double precision. -/
def doubleOverflow : Nat :=
  Nat.pow 2 1024 - Nat.pow 2 970

/-- The largest power of ten below infinity in double precision. -/
def largestPower : Nat := 308

/-- Whether the numeral has a finite value in double precision. -/
def inRange (n : Numeral) : Bool :=
  let l := n.leading
  let power := l.exponent.toNat
  if l.significand = 0 ∨ l.exponent ≤ 0 then true
  else if largestPower < power then false
  else
    toDoublePrecision l.significand * toDoublePrecision (Nat.pow 10 power) < doubleOverflow

end Numeral
end Json
end DocTree
