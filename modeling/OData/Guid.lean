import OData.Text.Casing
import OData.Text.Digits

/-! # GUIDs

A GUID is 128 bits, written as 32 hexadecimal digits in lower case in groups of
8, 4, 4, 4 and 12 between hyphens.  It is read in that form, without hyphens,
between braces, or behind `urn:uuid:`, in either case.
-/
namespace OData

/-- A globally unique identifier. -/
structure Guid where
  bits : BitVec 128
  deriving DecidableEq, Repr

namespace Guid

/-- The lengths of the groups of digits. -/
def groups : List Nat := [8, 4, 4, 4, 12]

/-- Cuts digits into groups and joins these with hyphens. -/
def hyphenate : List Nat → List Char → List Char
  | [], digits => digits
  | [n], digits => digits.take n
  | n :: ns, digits => digits.take n ++ '-' :: hyphenate ns (digits.drop n)

/-- The lowest `count` hexadecimal digits of a number. -/
def hexDigits : Nat → Nat → List Char
  | 0, _ => []
  | count + 1, n => hexDigits count (n / 16) ++ [Text.hexDigit (n % 16)]

/-- The GUID in groups between hyphens. -/
def toText (g : Guid) : String := String.ofList (hyphenate groups (hexDigits 32 g.bits.toNat))

/-- The GUID of 32 hexadecimal digits. -/
def ofDigits? (digits : List Char) : Option Guid := do
  guard (digits.length = 32)
  let n ← digits.foldlM (fun n c => (Text.hexValue? c).map (n * 16 + ·)) 0
  return ⟨BitVec.ofNat 128 n⟩

/-- The digits of a text in groups between hyphens. -/
def unhyphenate? : List Nat → List Char → Option (List Char)
  | [], s => if s.isEmpty then some [] else none
  | [n], s => if s.length = n then some s else none
  | n :: ns, s =>
    match s.drop n with
    | '-' :: rest => (unhyphenate? ns rest).map (s.take n ++ ·)
    | _ => none

/-- The GUID that a text stands for. -/
def ofText? (s : String) : Option Guid :=
  let cs := s.toList
  let hyphenated (cs : List Char) := (unhyphenate? groups cs).bind ofDigits?
  match cs.length with
  | 32 => ofDigits? cs
  | 36 => hyphenated cs
  | 38 =>
    match cs with
    | '{' :: rest => if cs.getLast? = some '}' then hyphenated rest.dropLast else none
    | _ => none
  | 45 => if Text.asciiLower (cs.take 9) = "urn:uuid:".toList then hyphenated (cs.drop 9) else none
  | _ => none

end Guid
end OData
