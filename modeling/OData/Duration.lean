/-! # Durations

Lengths of time in nanoseconds, and the text that shows one.
-/
namespace OData

/-- A length of time in nanoseconds. -/
structure Duration where
  nanos : Nat
  deriving DecidableEq, Repr, Inhabited

namespace Duration

def ofMillis (n : Nat) : Duration := ⟨n * 1000000⟩

def ofSeconds (n : Nat) : Duration := ⟨n * 1000000000⟩

/-- The whole milliseconds in a duration. -/
def millis (d : Duration) : Nat := d.nanos / 1000000

/-- The least number of milliseconds that is not shorter. -/
def ceilMillis (d : Duration) : Nat := (d.nanos + 999999) / 1000000

/-- The shorter of two durations. -/
def least (a b : Duration) : Duration := ⟨min a.nanos b.nanos⟩

/-- `n` units of `10 ^ places` nanoseconds each, with the fraction that is left
over and without zeros at its end. -/
def inUnits (places n : Nat) : String :=
  let digits := Nat.toDigits 10 (n % Nat.pow 10 places)
  let fraction := (List.replicate (places - digits.length) '0' ++ digits).reverse.dropWhile
    (· == '0') |>.reverse
  toString (n / Nat.pow 10 places) ++
    (if n % Nat.pow 10 places = 0 then "" else "." ++ String.ofList fraction)

/-- A duration in the greatest unit of which it holds at least one. -/
def toText (d : Duration) : String :=
  if d.nanos ≥ 1000000000 then inUnits 9 d.nanos ++ "s"
  else if d.nanos ≥ 1000000 then inUnits 6 d.nanos ++ "ms"
  else if d.nanos ≥ 1000 then inUnits 3 d.nanos ++ "µs"
  else inUnits 0 d.nanos ++ "ns"

end Duration

end OData
