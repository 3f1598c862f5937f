import OData.Double.Shortest
import OData.Json
import OData.Text.Digits

/-! # JSON numbers

The digits of a number are gathered into a significand of 64 bits; digits that
no longer fit are dropped.  An integer that fits stays an integer.  Every other
number is the significand, rounded to a double, multiplied or divided by a power
of ten, rounded too, so a number of more than fifteen digits may miss the
nearest double.
-/
namespace OData
namespace Json

/-- The greatest integer of 64 bits without a sign. -/
def greatestNat64 : Nat := 18446744073709551615

/-- Appends digits to a significand while the result fits 64 bits.  The second
component counts the digits that did, the third the digits that remain. -/
def gather (significand : Nat) : List Char → Nat × Nat × Nat
  | [] => (significand, 0, 0)
  | c :: digits =>
    let next := significand * 10 + Text.digitValue c
    if next ≤ greatestNat64 then
      let (s, kept, left) := gather next digits
      (s, kept + 1, left)
    else (significand, 0, digits.length + 1)

/-- The parts of a number's text. -/
structure NumberText where
  negative : Bool
  whole : List Char
  /-- The digits behind the point, if there is a point. -/
  fraction : Option (List Char)
  /-- The exponent's sign and digits, if there is an exponent. -/
  exponent : Option (Bool × List Char)

/-- `significand * 10 ^ exponent` in doubles; `none` beyond their range.  A power
of ten below `10 ^ -308` is divided out in `steps` steps, of which three leave
nothing of any significand. -/
def scaleTen : Nat → Double → Int → Option Double
  | 0, _, _ => some (Double.ofInt 0)
  | steps + 1, f, exponent =>
    if exponent.natAbs ≤ 308 then
      let power := Double.ofRatio false (Nat.pow 10 exponent.natAbs) 1
      if exponent ≥ 0 then
        let g := f.mul power
        if g.isInfinite then none else some g
      else some (f.div power)
    else if f.isZero then some f
    else if exponent ≥ 0 then none
    else scaleTen steps (f.div (Double.ofRatio false (Nat.pow 10 308) 1)) (exponent + 308)

namespace NumberText

/-- The number as a double; `none` beyond the range of doubles. -/
def double? (t : NumberText) : Option Double :=
  let (s, _, dropped) := gather 0 t.whole
  let (s, places, _) := gather s (t.fraction.getD [])
  let power : Int := match t.exponent with
    | none => 0
    | some (negative, digits) =>
      if negative then -(Text.natOfDigits digits : Int) else Text.natOfDigits digits
  (scaleTen 4 (Double.ofInt s) ((dropped : Int) - places + power)).map fun d =>
    if t.negative then d.neg else d

/-- The number that the text stands for; `none` beyond the range of doubles. -/
def value? (t : NumberText) : Option Json :=
  let n := Text.natOfDigits t.whole
  let isWhole := t.fraction.isNone && t.exponent.isNone
  if isWhole && !t.negative && n ≤ greatestNat64 then some (.int n)
  else if isWhole && t.negative && n ≠ 0 && n ≤ 9223372036854775808 then some (.int (-(n : Int)))
  else t.double?.map .double

end NumberText

/-- The number at the start of a text, and what follows it.  The whole part has
no superfluous zero in front. -/
def numberText? (s : List Char) : Option (NumberText × List Char) := do
  let (negative, s) := match s with
    | '-' :: s => (true, s)
    | s => (false, s)
  let (whole, s) ← Text.digitsFirst? s
  guard (whole.head? ≠ some '0' || whole.length = 1)
  let (fraction, s) ← match s with
    | '.' :: s => (Text.digitsFirst? s).map fun (digits, s) => (some digits, s)
    | s => some (none, s)
  let (exponent, s) ← match s with
    | c :: s' =>
      if c = 'e' ∨ c = 'E' then
        let (negative, s') := match s' with
          | '-' :: s' => (true, s')
          | '+' :: s' => (false, s')
          | s' => (false, s')
        (Text.digitsFirst? s').map fun (digits, s) => (some (negative, digits), s)
      else some (none, s)
    | [] => some (none, s)
  return (⟨negative, whole, fraction, exponent⟩, s)

/-- The number at the start of a text as a value, and what follows it. -/
def number (s : List Char) : Option (Json × List Char) := do
  let (t, rest) ← numberText? s
  let j ← t.value?
  return (j, rest)

/-- Doubles are written without an exponent from `0.00001` to below
`10000000000000000`, with a point always, and otherwise with a signed exponent. -/
def numberLayout : Double.Layout where
  positional e := decide (-5 ≤ e ∧ e ≤ 15)
  keepsPoint := true
  tie := .even
  notANumber := "null"
  infinity := "null"

/-- The text of a double; what is not finite has none and is written as null. -/
def writeDouble (d : Double) : List Char :=
  if d.isFinite then (numberLayout.write d).toList else "null".toList

/-- The text of an integer. -/
def writeInt (n : Int) : List Char :=
  (if n < 0 then ['-'] else []) ++ Nat.toDigits 10 n.natAbs

end Json
end OData
