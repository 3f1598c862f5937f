import OData.Double
import OData.Text.Digits

/-! # Reading doubles

A decimal number stands for the double nearest to it.  The point may be the
first or the last character of the number but not the only one, and the words
`inf`, `infinity` and `nan` are read in any case.
-/
namespace OData
namespace Double

/-- The exponent behind the letter `e`, or none at the end of the text. -/
def exponentPart? (s : List Char) : Option Int :=
  match s with
  | [] => some 0
  | c :: s =>
    if c = 'e' ∨ c = 'E' then
      match s with
      | '-' :: s => (Text.nat? s).map fun n => -(n : Int)
      | '+' :: s => (Text.nat? s).map Int.ofNat
      | s => (Text.nat? s).map Int.ofNat
    else none

/-- A number without a sign. -/
def unsigned? (negative : Bool) (s : List Char) : Option Double :=
  let (whole, rest) := Text.digitsFirst s
  let (fraction, rest) := match rest with
    | '.' :: rest => Text.digitsFirst rest
    | rest => ([], rest)
  if whole.isEmpty && fraction.isEmpty then none
  else (exponentPart? rest).map fun e =>
    ofDecimal negative (Text.natOfDigits (whole ++ fraction)) (e - fraction.length)

/-- The double that a text stands for. -/
def ofText? (s : String) : Option Double :=
  let (negative, s) := match s.toList with
    | '-' :: s => (true, s)
    | '+' :: s => (false, s)
    | s => (false, s)
  let word := String.ofList (s.map Char.toLower)
  if word = "inf" ∨ word = "infinity" then some (infinite negative)
  else if word = "nan" then some nan
  else unsigned? negative s

end Double
end OData
