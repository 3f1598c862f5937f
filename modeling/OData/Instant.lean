import OData.Text.Blank
import OData.Text.Digits

/-! # Instants

An instant counts seconds since the start of 1970 in Coordinated Universal Time,
with a fraction in nanoseconds.  A fraction of a whole second or more stands for
a leap second, which a clock shows as second 60.  Dates follow the Gregorian
calendar in both directions.
-/
namespace OData

/-- A date of the Gregorian calendar. -/
structure Date where
  year : Int
  month : Nat
  day : Nat
  deriving DecidableEq, Repr

namespace Date

/-- The date that lies `days` after the first day of 1970.  Years are counted
from March, so that the leap day is the last day of its year. -/
def ofDays (days : Int) : Date :=
  let shifted := days + 719468
  let era := shifted.fdiv 146097
  let dayOfEra := (shifted.fmod 146097).toNat
  let yearOfEra := (dayOfEra - dayOfEra / 1460 + dayOfEra / 36524 - dayOfEra / 146096) / 365
  let dayOfYear := dayOfEra - (365 * yearOfEra + yearOfEra / 4 - yearOfEra / 100)
  let shiftedMonth := (5 * dayOfYear + 2) / 153
  let day := dayOfYear - (153 * shiftedMonth + 2) / 5 + 1
  let month := if shiftedMonth < 10 then shiftedMonth + 3 else shiftedMonth - 9
  let year := (yearOfEra : Int) + era * 400 + (if month ≤ 2 then 1 else 0)
  ⟨year, month, day⟩

/-- How many days a date lies after the first day of 1970. -/
def toDays (d : Date) : Int :=
  let year := if d.month ≤ 2 then d.year - 1 else d.year
  let era := year.fdiv 400
  let yearOfEra := (year.fmod 400).toNat
  let shiftedMonth := if d.month > 2 then d.month - 3 else d.month + 9
  let dayOfYear := (153 * shiftedMonth + 2) / 5 + d.day - 1
  let dayOfEra := yearOfEra * 365 + yearOfEra / 4 - yearOfEra / 100 + dayOfYear
  era * 146097 + dayOfEra - 719468

def isLeapYear (year : Int) : Bool :=
  year % 4 == 0 && (year % 100 != 0 || year % 400 == 0)

/-- The number of days of a month. -/
def daysOfMonth (year : Int) (month : Nat) : Nat :=
  if month = 2 then if isLeapYear year then 29 else 28
  else if month = 4 ∨ month = 6 ∨ month = 9 ∨ month = 11 then 30
  else 31

/-- The date, if the calendar has it and its year is in range. -/
def ofParts? (year : Int) (month day : Nat) : Option Date :=
  if -262143 ≤ year ∧ year ≤ 262142 ∧ 1 ≤ month ∧ month ≤ 12 ∧ 1 ≤ day ∧
      day ≤ daysOfMonth year month then
    some ⟨year, month, day⟩
  else none

end Date

/-- A point in time. -/
structure Instant where
  seconds : Int
  nanos : Nat
  deriving DecidableEq, Repr

namespace Instant

/-- A number with zeros in front up to the given width. -/
def padded (width n : Nat) : List Char :=
  let digits := Nat.toDigits 10 n
  List.replicate (width - digits.length) '0' ++ digits

/-- A year with at least four digits, and with a sign outside of them. -/
def writeYear (year : Int) : List Char :=
  if 0 ≤ year ∧ year ≤ 9999 then padded 4 year.natAbs
  else (if year < 0 then '-' else '+') :: padded 4 year.natAbs

/-- The start of a day. -/
def ofDate (d : Date) : Instant := ⟨d.toDays * 86400, 0⟩

/-- Date and time of day without a fraction and without a zone. -/
def writeSeconds (t : Instant) : List Char :=
  let date := Date.ofDays (t.seconds.fdiv 86400)
  let second := (t.seconds.fmod 86400).toNat
  writeYear date.year ++ '-' :: padded 2 date.month ++ '-' :: padded 2 date.day ++
    'T' :: padded 2 (second / 3600) ++ ':' :: padded 2 (second / 60 % 60) ++
    ':' :: padded 2 (second % 60 + t.nanos / 1000000000)

/-- The fraction with as many groups of three digits as it needs. -/
def writeFraction (t : Instant) : List Char :=
  let n := t.nanos % 1000000000
  if n = 0 then []
  else if n % 1000000 = 0 then '.' :: padded 3 (n / 1000000)
  else if n % 1000 = 0 then '.' :: padded 6 (n / 1000)
  else '.' :: padded 9 n

/-- The instant to the second. -/
def toText (t : Instant) : String := String.ofList (t.writeSeconds ++ ['Z'])

/-- The instant with its fraction. -/
def toPreciseText (t : Instant) : String :=
  String.ofList (t.writeSeconds ++ t.writeFraction ++ ['Z'])

/-! ## Reading

White space may stand before each number and each separator of the date and of
the time, and before the zone. -/

/-- The text without the white space in front. -/
def skipBlank (s : List Char) : List Char := s.dropWhile Text.isBlank

/-- A number of at least one and at most `width` digits. -/
def digitsUpTo? (width : Nat) (s : List Char) : Option (Nat × List Char) :=
  let digits := (s.take width).takeWhile Char.isDigit
  if digits.isEmpty then none
  else some (Text.natOfDigits digits, s.drop digits.length)

/-- A number of at most `width` digits, behind white space. -/
def number? (width : Nat) (s : List Char) : Option (Nat × List Char) :=
  digitsUpTo? width (skipBlank s)

/-- A year: four digits at most, or a sign and any number of digits. -/
def year? (s : List Char) : Option (Int × List Char) :=
  match skipBlank s with
  | '-' :: s => (digitsUpTo? s.length s).map fun (n, r) => (-(n : Int), r)
  | '+' :: s => (digitsUpTo? s.length s).map fun (n, r) => ((n : Int), r)
  | s => (digitsUpTo? 4 s).map fun (n, r) => ((n : Int), r)

/-- The text behind a separator, which stands behind white space. -/
def separator? (c : Char) (s : List Char) : Option (List Char) :=
  match skipBlank s with
  | x :: s => if x = c then some s else none
  | [] => none

/-- The fraction of a second in nanoseconds; digits behind the ninth are passed
over. -/
def fraction? (s : List Char) : Option (Nat × List Char) :=
  match s with
  | '.' :: s =>
    let digits := s.takeWhile Char.isDigit
    if digits.isEmpty then none
    else
      let first := digits.take 9
      some (Text.natOfDigits first * Nat.pow 10 (9 - first.length), s.dropWhile Char.isDigit)
  | s => some (0, s)

/-- The zone as seconds east of Greenwich. -/
def zone? (s : List Char) : Option (Int × List Char) :=
  let offset (sign : Int) (s : List Char) : Option (Int × List Char) := do
    let two (s : List Char) : Option (Nat × List Char) :=
      match s with
      | a :: b :: r => if a.isDigit && b.isDigit then some (Text.natOfDigits [a, b], r) else none
      | _ => none
    let (hours, s) ← two s
    let (minutes, s) ← two (s.dropWhile fun c => c == ':' || Text.isBlank c)
    guard (minutes < 60)
    return (sign * (hours * 3600 + minutes * 60), s)
  match s with
  | 'Z' :: s | 'z' :: s => some (0, s)
  | '+' :: s => offset 1 s
  | '-' :: s => offset (-1) s
  | '−' :: s => offset (-1) s
  | a :: b :: c :: r => if [a, b, c].map Char.toLower = ['u', 't', 'c'] then some (0, r) else none
  | _ => none

/-- The instant that a text of date, time and zone stands for. -/
def ofText? (s : String) : Option Instant := do
  let (year, s) ← year? s.toList
  let s ← separator? '-' s
  let (month, s) ← number? 2 s
  let s ← separator? '-' s
  let (day, s) ← number? 2 s
  let s ← match s with
    | c :: s => if c = 'T' ∨ c = 't' ∨ c = ' ' then some s else none
    | [] => none
  let (hour, s) ← number? 2 s
  let s ← separator? ':' s
  let (minute, s) ← number? 2 s
  let s ← separator? ':' s
  let (second, s) ← number? 2 s
  let (nanos, s) ← fraction? s
  let (east, s) ← zone? (skipBlank s)
  guard (Text.allBlank s)
  let date ← Date.ofParts? year month day
  guard (hour < 24 && minute < 60 && second ≤ 60 && east.natAbs < 86400)
  let shown := date.toDays * 86400 + hour * 3600 + minute * 60
  if second = 60 then return ⟨shown + 59 - east, nanos + 1000000000⟩
  else return ⟨shown + second - east, nanos⟩

end Instant
end OData
