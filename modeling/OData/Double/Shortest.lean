import OData.Double

/-! # Shortest decimal digits

A finite double is written with the fewest decimal digits that read back as it,
and of the numbers with that many digits the one nearest to it.  Two of them can
be equally near; `Tie` says which is taken then.
-/
namespace OData

/-- A decimal number, `coefficient * 10 ^ exponent`. -/
structure Decimal where
  coefficient : Nat
  exponent : Int
  deriving DecidableEq, Repr

namespace Decimal

/-- The digits of the coefficient. -/
def digits (d : Decimal) : List Char := Nat.toDigits 10 d.coefficient

/-- Divides a coefficient by ten while nothing is lost, at most `steps` times. -/
def strip : Nat → Decimal → Decimal
  | 0, d => d
  | steps + 1, d =>
    if d.coefficient % 10 = 0 ∧ d.coefficient ≠ 0 then
      strip steps ⟨d.coefficient / 10, d.exponent + 1⟩
    else d

/-- The exponent the number would have with its point behind the first digit. -/
def scientificExponent (d : Decimal) : Int := d.exponent + d.digits.length - 1

end Decimal

namespace Double

/-- Which of two decimals equally near to a double is written. -/
inductive Tie where
  /-- The greater. -/
  | up
  /-- The one with the even last digit. -/
  | even
  deriving DecidableEq, Repr

/-- The numbers between `low / den` and `high / den` that a double stands for;
the ends belong to it when `closed` holds.  The double itself is `value / den`. -/
structure Interval where
  low : Nat
  value : Nat
  high : Nat
  den : Nat
  closed : Bool

/-- The numbers that round to `significand * 2 ^ exponent`, a positive double.
Below a power of two the doubles lie twice as dense. -/
def interval (significand : Nat) (exponent : Int) : Interval :=
  let unit := scaleUp 1 exponent
  let below := if significand = Nat.pow 2 52 ∧ exponent > leastExponent then unit else 2 * unit
  let value := 4 * significand * unit
  { low := value - below
    value := value
    high := value + 2 * unit
    den := 4 * scaleUp 1 (-exponent)
    closed := significand % 2 = 0 }

namespace Interval

/-- `x / y` lies in the interval. -/
def contains (i : Interval) (x y : Nat) : Bool :=
  if i.closed then i.low * y ≤ x * i.den && x * i.den ≤ i.high * y
  else i.low * y < x * i.den && x * i.den < i.high * y

/-- The least `k` with `value / den < 10 ^ k`, found near the binary logarithm. -/
def magnitude (i : Interval) : Int :=
  let k := ((floorLog2 i.value i.den) * 30103) / 100000 - 1
  let isAbove (k : Int) := i.value * Nat.pow 10 (-k).toNat < i.den * Nat.pow 10 k.toNat
  ([k, k + 1, k + 2].find? fun k => isAbove k).getD (k + 3)

/-- The multiple of `10 ^ exponent` in the interval that is nearest to the value,
if there is one. -/
def nearestOnGrid? (i : Interval) (tie : Tie) (exponent : Int) : Option Decimal :=
  let up := Nat.pow 10 exponent.toNat
  let down := Nat.pow 10 (-exponent).toNat
  let unit := i.den * up
  let c := i.value * down / unit
  let rest := i.value * down % unit
  match i.contains (c * up) down, i.contains ((c + 1) * up) down with
  | false, false => none
  | true, false => some ⟨c, exponent⟩
  | false, true => some ⟨c + 1, exponent⟩
  | true, true =>
    let takeUpper : Bool :=
      if 2 * rest = unit then
        match tie with
        | .up => true
        | .even => c % 2 == 1
      else 2 * rest > unit
    some ⟨if takeUpper then c + 1 else c, exponent⟩

/-- The shortest decimal in the interval: the first of the grids with one digit,
with two digits and so on that has a point in it. -/
def shortest (i : Interval) (tie : Tie) : Decimal :=
  let k := i.magnitude
  let grids := (List.range 17).map fun (n : Nat) => k - (n + 1)
  match grids.findSome? (i.nearestOnGrid? tie) with
  | some d => d.strip 400
  | none => ⟨0, 0⟩

end Interval

/-- The shortest decimal for `significand * 2 ^ exponent`. -/
def shortest (tie : Tie) (significand : Nat) (exponent : Int) : Decimal :=
  if significand = 0 then ⟨0, 0⟩ else (interval significand exponent).shortest tie

/-- How a format writes doubles. -/
structure Layout where
  /-- The scientific exponents that are written without an exponent. -/
  positional : Int → Bool
  /-- Whether a number without fraction is given the fraction `.0`. -/
  keepsPoint : Bool
  tie : Tie
  /-- The text of what is not a number. -/
  notANumber : String
  /-- The text of infinity, behind a minus sign where it is negative. -/
  infinity : String

namespace Layout

/-- A finite number without an exponent. -/
def writePositional (l : Layout) (d : Decimal) : List Char :=
  let digits := d.digits
  if 0 ≤ d.exponent then
    digits ++ List.replicate (if d.coefficient = 0 then 0 else d.exponent.toNat) '0' ++
      (if l.keepsPoint then ['.', '0'] else [])
  else
    let places := (-d.exponent).toNat
    if digits.length ≤ places then
      ['0', '.'] ++ List.replicate (places - digits.length) '0' ++ digits
    else digits.take (digits.length - places) ++ ['.'] ++ digits.drop (digits.length - places)

/-- A finite number with its point behind the first digit and a signed exponent. -/
def writeScientific (d : Decimal) : List Char :=
  let e := d.scientificExponent
  let sign := if e < 0 then '-' else '+'
  let tail := 'e' :: sign :: Nat.toDigits 10 e.natAbs
  match d.digits with
  | [] => tail
  | [c] => c :: tail
  | c :: cs => c :: '.' :: cs ++ tail

/-- The text of a double. -/
def write (l : Layout) : Double → String
  | .nan => l.notANumber
  | .infinite negative => (if negative then "-" else "") ++ l.infinity
  | .finite negative m e =>
    let d := shortest l.tie m e
    let text := if l.positional d.scientificExponent then l.writePositional d
      else writeScientific d
    (if negative then "-" else "") ++ String.ofList text

end Layout

/-- Plain decimal text: never an exponent, and a fraction only where there is one. -/
def plain : Layout where
  positional _ := true
  keepsPoint := false
  tie := .up
  notANumber := "NaN"
  infinity := "inf"

end Double
end OData
