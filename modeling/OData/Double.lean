/-! # Binary64 numbers

A double is a sign, a significand and a power of two, or infinite, or not a
number.  Every operation computes the exact rational result and rounds it once,
to the nearest double and to the one with the even significand when two are
equally near.
-/
namespace OData

/-- A binary64 number.  A finite one is the significand times two to the
exponent; `ofRatio`, which builds them, leaves a significand below `2 ^ 53` that
is at least `2 ^ 52` unless the exponent is the least one. -/
inductive Double where
  | nan
  | infinite (negative : Bool)
  | finite (negative : Bool) (significand : Nat) (exponent : Int)
  deriving DecidableEq, Repr, Inhabited

namespace Double

/-- The exponent of the smallest positive double. -/
def leastExponent : Int := -1074

/-- The exponent of the largest finite double. -/
def greatestExponent : Int := 971

/-- The integer nearest to `num / den`; of two equally near the even one. -/
def roundRatio (num den : Nat) : Nat :=
  let q := num / den
  let r := num % den
  if 2 * r < den then q else if 2 * r = den then q + q % 2 else q + 1

/-- `n * 2 ^ e` for the exponents that do not make it smaller, else `n`. -/
def scaleUp (n : Nat) (e : Int) : Nat := n * Nat.pow 2 e.toNat

/-- The greatest `e` with `2 ^ e ≤ num / den`, for positive `num` and `den`. -/
def floorLog2 (num den : Nat) : Int :=
  let e := (num.log2 : Int) - den.log2
  if scaleUp den e ≤ scaleUp num (-e) then e else e - 1

/-- The double nearest to `num / den`, with the sign given. -/
def ofRatio (negative : Bool) (num den : Nat) : Double :=
  if num = 0 then .finite negative 0 leastExponent
  else
    let e := max leastExponent (floorLog2 num den - 52)
    let m := roundRatio (scaleUp num (-e)) (scaleUp den e)
    let (m, e) := if m = Nat.pow 2 53 then (Nat.pow 2 52, e + 1) else (m, e)
    if e > greatestExponent then .infinite negative else .finite negative m e

/-- The double nearest to an integer. -/
def ofInt (n : Int) : Double := ofRatio (n < 0) n.natAbs 1

/-- The double nearest to `digits * 10 ^ exponent`.  Beyond three hundred digits
before the point a number is infinite, and beyond as many after it zero, so the
power of ten need not be computed there. -/
def ofDecimal (negative : Bool) (digits : Nat) (exponent : Int) : Double :=
  if digits = 0 then .finite negative 0 leastExponent
  else if exponent > 400 then .infinite negative
  else if exponent < -(400 + digits.log2) then .finite negative 0 leastExponent
  else ofRatio negative (digits * Nat.pow 10 exponent.toNat) (Nat.pow 10 (-exponent).toNat)

def isNegative : Double → Bool
  | nan => false
  | infinite negative => negative
  | finite negative _ _ => negative

def isFinite : Double → Bool
  | finite .. => true
  | _ => false

def isInfinite : Double → Bool
  | infinite _ => true
  | _ => false

def isZero : Double → Bool
  | finite _ m _ => m == 0
  | _ => false

/-- The same magnitude with the other sign. -/
def neg : Double → Double
  | nan => nan
  | infinite negative => infinite !negative
  | finite negative m e => finite (!negative) m e

/-- The magnitude of a finite double as a fraction. -/
def magnitude (m : Nat) (e : Int) : Nat × Nat := (scaleUp m e, scaleUp 1 (-e))

/-- The sum, rounded. -/
def add : Double → Double → Double
  | finite s m e, finite t n f =>
    let (a, b) := magnitude m e
    let (c, d) := magnitude n f
    let x : Int := (if s then -1 else 1) * (a * d)
    let y : Int := (if t then -1 else 1) * (c * b)
    if m = 0 ∧ n = 0 then finite (s && t) 0 leastExponent
    else ofRatio (x + y < 0) (x + y).natAbs (b * d)
  | nan, _ | _, nan => nan
  | infinite s, infinite t => if s = t then infinite s else nan
  | infinite s, finite .. | finite .., infinite s => infinite s

/-- The product, rounded. -/
def mul : Double → Double → Double
  | finite s m e, finite t n f =>
    let (a, b) := magnitude m e
    let (c, d) := magnitude n f
    ofRatio (s != t) (a * c) (b * d)
  | nan, _ | _, nan => nan
  | infinite s, infinite t => infinite (s != t)
  | infinite s, finite t n _ | finite t n _, infinite s =>
    if n = 0 then nan else infinite (s != t)

/-- The quotient, rounded. -/
def div : Double → Double → Double
  | finite s m e, finite t n f =>
    if n = 0 then if m = 0 then nan else infinite (s != t)
    else
      let (a, b) := magnitude m e
      let (c, d) := magnitude n f
      ofRatio (s != t) (a * d) (b * c)
  | nan, _ | _, nan => nan
  | infinite _, infinite _ => nan
  | infinite s, finite t .. => infinite (s != t)
  | finite s .., infinite t => finite (s != t) 0 leastExponent

/-- Whether `x ≤ y`; false when one of them is not a number. -/
def le : Double → Double → Bool
  | finite s m e, finite t n f =>
    let (a, b) := magnitude m e
    let (c, d) := magnitude n f
    let x : Int := (if s then -1 else 1) * (a * d)
    let y : Int := (if t then -1 else 1) * (c * b)
    x ≤ y
  | nan, _ | _, nan => false
  | infinite s, infinite t => s || !t
  | infinite s, finite .. => s
  | finite .., infinite t => !t

/-- The greater of two doubles; a number, if only one of them is. -/
def maximum (x y : Double) : Double :=
  match x, y with
  | nan, y => y
  | x, nan => x
  | x, y => if le x y then y else x

/-- The natural number nearest to `k` times a double, of two equally near the even
one; `none` if the double is negative or not finite. -/
def nearestMultiple? (k : Nat) : Double → Option Nat
  | finite negative m e =>
    if negative && m != 0 then none
    else
      let (a, b) := magnitude m e
      some (roundRatio (k * a) b)
  | _ => none

/-- The product of `n` factors `x`, by repeated squaring: the binary digits of
`n` from the lowest tell which squares enter, and every product is rounded. -/
def power (x : Double) (n : Nat) : Double :=
  go (n.log2 + 1) (ofInt 1) x n
where
  /-- `bits` bounds the binary digits left in `n`. -/
  go : Nat → Double → Double → Nat → Double
    | 0, acc, _, _ => acc
    | bits + 1, acc, square, n =>
      let acc := if n % 2 = 1 then mul acc square else acc
      if n / 2 = 0 then acc else go bits acc (mul square square) (n / 2)

end Double
end OData
