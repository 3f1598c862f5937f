/-! # Digits

Decimal and hexadecimal digits, and the numbers that runs of decimal digits
stand for.
-/
namespace OData
namespace Text

/-- A digit below sixteen, in lower case. -/
def hexDigit (n : Nat) : Char :=
  if n < 10 then Char.ofNat ('0'.toNat + n) else Char.ofNat ('a'.toNat + (n - 10))

/-- A digit below sixteen, in upper case. -/
def upperHexDigit (n : Nat) : Char :=
  if n < 10 then Char.ofNat ('0'.toNat + n) else Char.ofNat ('A'.toNat + (n - 10))

/-- The value of a hexadecimal digit in either case. -/
def hexValue? (c : Char) : Option Nat :=
  if c.isDigit then some (c.toNat - '0'.toNat)
  else if 'a' ≤ c ∧ c ≤ 'f' then some (c.toNat - 'a'.toNat + 10)
  else if 'A' ≤ c ∧ c ≤ 'F' then some (c.toNat - 'A'.toNat + 10)
  else none

/-- The value of a decimal digit. -/
def digitValue (c : Char) : Nat := c.toNat - '0'.toNat

/-- The value of a natural number written in decimal digits. -/
def natOfDigits (digits : List Char) : Nat :=
  digits.foldl (fun n c => n * 10 + digitValue c) 0

/-- The digits at the start of a text, and what follows them. -/
def digitsFirst (s : List Char) : List Char × List Char :=
  (s.takeWhile Char.isDigit, s.dropWhile Char.isDigit)

/-- The digits at the start of a text, at least one, and what follows them. -/
def digitsFirst? (s : List Char) : Option (List Char × List Char) :=
  match digitsFirst s with
  | ([], _) => none
  | parts => some parts

/-- The number that a text of digits alone stands for. -/
def nat? (s : List Char) : Option Nat :=
  match digitsFirst? s with
  | some (digits, []) => some (natOfDigits digits)
  | _ => none

/-- The number below `bound` that a text of digits stands for; a plus sign may
stand in front. -/
def natBelow? (bound : Nat) (s : List Char) : Option Nat := do
  let n ← nat? (match s with | '+' :: s => s | s => s)
  guard (n < bound)
  return n

/-- The integer between `least` and `greatest` that a text of digits stands for;
a sign may stand in front. -/
def intWithin? (least greatest : Int) (s : List Char) : Option Int := do
  let n ← match s with
    | '-' :: s => (nat? s).map fun n => -(n : Int)
    | '+' :: s => (nat? s).map Int.ofNat
    | s => (nat? s).map Int.ofNat
  guard (least ≤ n ∧ n ≤ greatest)
  return n

end Text
end OData
