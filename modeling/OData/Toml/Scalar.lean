import OData.Double
import OData.Instant
import OData.Json

/-! # TOML scalars

Numbers, truth values and moments of time.  Digits may be grouped by single
underscores.
-/
namespace OData
namespace Toml

/-- The digits of a run, without the underscores between them. -/
def digitRun? (isDigit : Char → Bool) (s : List Char) : Option (List Char) :=
  let groups := s.splitOn '_'
  if groups.all fun g => !g.isEmpty && g.all isDigit then some groups.flatten else none

/-- The digits of a decimal number without superfluous zeros in front. -/
def decimalRun? (s : List Char) : Option (List Char) := do
  let digits ← digitRun? Char.isDigit s
  guard (digits.length = 1 || digits.head? ≠ some '0')
  return digits

/-- A text without the sign it starts with, and whether that is a minus. -/
def splitSign : List Char → Bool × List Char
  | '-' :: s => (true, s)
  | '+' :: s => (false, s)
  | s => (false, s)

/-- The number that digits stand for in a base up to sixteen. -/
def ofBase? (base : Nat) (s : List Char) : Option Nat := do
  let digits ← digitRun? (fun c => (Text.hexValue? c).any (· < base)) s
  return digits.foldl (fun n c => n * base + (Text.hexValue? c).getD 0) 0

/-- An integer that 64 bits can hold, with or without a sign. -/
def integer? (s : List Char) : Option Int := do
  let n : Int ← match s with
    | '0' :: 'x' :: s => (ofBase? 16 s).map Int.ofNat
    | '0' :: 'o' :: s => (ofBase? 8 s).map Int.ofNat
    | '0' :: 'b' :: s => (ofBase? 2 s).map Int.ofNat
    | s =>
      let (negative, s) := splitSign s
      (decimalRun? s).map fun digits =>
        if negative then -(Text.natOfDigits digits : Int) else Text.natOfDigits digits
  guard (Json.leastInt64 ≤ n ∧ n < UInt64.size)
  return n

/-- The exponent of a number. -/
def exponent? (s : List Char) : Option Int :=
  let (negative, s) := splitSign s
  (digitRun? Char.isDigit s).map fun digits =>
    if negative then -(Text.natOfDigits digits : Int) else Text.natOfDigits digits

/-- A number with a fraction or an exponent, or one of the words for what is no
finite number. -/
def double? (s : List Char) : Option Double := do
  let (negative, s) := splitSign s
  if s = "inf".toList then return .infinite negative
  if s = "nan".toList then return .nan
  let isMark (c : Char) : Bool := c == 'e' || c == 'E'
  let mantissa := s.takeWhile fun c => !isMark c
  let exponent ← match s.dropWhile fun c => !isMark c with
    | [] => some 0
    | _ :: s => exponent? s
  let whole ← decimalRun? (mantissa.takeWhile (· != '.'))
  let fraction ← match mantissa.dropWhile (· != '.') with
    | [] => some []
    | _ :: s => digitRun? Char.isDigit s
  let d := Double.ofDecimal negative (Text.natOfDigits (whole ++ fraction))
    (exponent - fraction.length)
  guard d.isFinite
  return d

/-! ## Moments -/

/-- A number of two digits up to `greatest`. -/
def twoDigits? (greatest : Nat) (s : List Char) : Option Nat := do
  let n ← Text.nat? s
  guard (s.length = 2 ∧ n ≤ greatest)
  return n

/-- Whether a text is a date of the calendar. -/
def isDate (s : List Char) : Bool :=
  match s.splitOn '-' with
  | [y, m, d] =>
    y.length == 4 && ((Text.nat? y).bind fun y => (twoDigits? 12 m).bind fun m =>
      (twoDigits? 31 d).bind fun d => Date.ofParts? y m d).isSome
  | _ => false

/-- Whether a text is the seconds of a time, which may have a fraction. -/
def isSeconds (s : List Char) : Bool :=
  match s.splitOn '.' with
  | [s] => (twoDigits? 60 s).isSome
  | [s, fraction] => (twoDigits? 60 s).isSome && (Text.nat? fraction).isSome
  | _ => false

/-- Whether a text is a time of the day; the seconds may be left out. -/
def isTime (s : List Char) : Bool :=
  match s.splitOn ':' with
  | [h, m] => (twoDigits? 23 h).isSome && (twoDigits? 59 m).isSome
  | [h, m, s] => (twoDigits? 23 h).isSome && (twoDigits? 59 m).isSome && isSeconds s
  | _ => false

/-- Whether a text is the distance of a time from the universal one. -/
def isOffset (s : List Char) : Bool :=
  match s with
  | [] | ['Z'] | ['z'] => true
  | c :: s =>
    (c == '+' || c == '-') &&
      match s.splitOn ':' with
      | [h, m] => (twoDigits? 23 h).isSome && (twoDigits? 59 m).isSome
      | _ => false

/-- Whether a text is a date, a time, or both. -/
def isMoment (s : List Char) : Bool :=
  let date := s.take 10
  match s.drop 10 with
  | [] => isDate s || isTime s
  | c :: time =>
    let clock := time.takeWhile fun c => c.isDigit || c == ':' || c == '.'
    isTime s ||
      ((c == 'T' || c == 't' || c == ' ') && isDate date && isTime clock &&
        isOffset (time.drop clock.length))

/-- The value that a word stands for; a moment is an object that no settings
have. -/
def scalar? (s : List Char) : Option Json :=
  if s = "true".toList then some (.bool true)
  else if s = "false".toList then some (.bool false)
  else if isMoment s then some (.object [("moment", .text (String.ofList s))])
  else
    match integer? s with
    | some n => some (.int n)
    | none => (double? s).map .double

/-- A character of a scalar. -/
def isScalarChar (c : Char) : Bool := c.isAlphanum || "+-_.:".toList.contains c

/-- The scalar at the start of a text, and what follows it.  A blank may stand
between a date and a time. -/
def scalarFirst (s : List Char) : List Char × List Char :=
  let word := s.takeWhile isScalarChar
  let rest := s.drop word.length
  match rest with
  | ' ' :: c :: _ =>
    if isDate word && c.isDigit then
      let time := (rest.drop 1).takeWhile isScalarChar
      (word ++ ' ' :: time, rest.drop (1 + time.length))
    else (word, rest)
  | _ => (word, rest)

end Toml
end OData
