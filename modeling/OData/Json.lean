import OData.NameMap
import OData.Double

/-! # JSON values

A value as it stands in a text keeps the members of an object in the order in
which they were written, repeated names included.  Its normal form
(`Json.normal`) has them in ascending order of names, and of several members
with one name the last.
-/
namespace OData

/-- A JSON value.  A number without fraction and exponent that a 64-bit integer
can hold is an integer, every other number a double. -/
inductive Json where
  | null
  | bool (b : Bool)
  | int (n : Int)
  | double (d : Double)
  | text (s : String)
  | array (items : List Json)
  | object (members : List (String × Json))
  deriving Repr, Inhabited

namespace Json

/-! ## Equality -/

mutual

/-- Whether two values are the same. -/
def same : Json → Json → Bool
  | null, null => true
  | bool a, bool b => a == b
  | int a, int b => a == b
  | double a, double b => a == b
  | text a, text b => a == b
  | array a, array b => sameItems a b
  | object a, object b => sameMembers a b
  | _, _ => false
termination_by structural a => a

/-- Whether two lists hold the same values. -/
def sameItems : List Json → List Json → Bool
  | [], [] => true
  | a :: as, b :: bs => same a b && sameItems as bs
  | _, _ => false
termination_by structural as => as

/-- Whether two lists hold the same members. -/
def sameMembers : List (String × Json) → List (String × Json) → Bool
  | [], [] => true
  | (n, a) :: as, (m, b) :: bs => n == m && same a b && sameMembers as bs
  | _, _ => false
termination_by structural as => as

end

mutual

theorem eq_of_same : ∀ {a b : Json}, same a b = true → a = b
  | null, b, h => by cases b <;> simp_all [same]
  | bool _, b, h => by cases b <;> simp_all [same]
  | int _, b, h => by cases b <;> simp_all [same]
  | double _, b, h => by cases b <;> simp_all [same]
  | text _, b, h => by cases b <;> simp_all [same]
  | array as, b, h => by
    cases b <;> simp only [same, Bool.false_eq_true] at h
    rw [eq_of_sameItems h]
  | object as, b, h => by
    cases b <;> simp only [same, Bool.false_eq_true] at h
    rw [eq_of_sameMembers h]

theorem eq_of_sameItems : ∀ {as bs : List Json}, sameItems as bs = true → as = bs
  | [], bs, h => by cases bs <;> simp_all [sameItems]
  | a :: as, bs, h => by
    cases bs with
    | nil => simp [sameItems] at h
    | cons b bs =>
      simp only [sameItems, Bool.and_eq_true] at h
      rw [eq_of_same h.1, eq_of_sameItems h.2]

theorem eq_of_sameMembers : ∀ {as bs : List (String × Json)}, sameMembers as bs = true → as = bs
  | [], bs, h => by cases bs <;> simp_all [sameMembers]
  | (n, a) :: as, bs, h => by
    cases bs with
    | nil => simp [sameMembers] at h
    | cons b bs =>
      obtain ⟨m, b⟩ := b
      simp only [sameMembers, Bool.and_eq_true, beq_iff_eq] at h
      rw [h.1.1, eq_of_same h.1.2, eq_of_sameMembers h.2]

end

mutual

theorem same_refl : ∀ a : Json, same a a = true
  | null => by simp [same]
  | bool _ => by simp [same]
  | int _ => by simp [same]
  | double _ => by simp [same]
  | text _ => by simp [same]
  | array as => by simp [same, sameItems_refl as]
  | object as => by simp [same, sameMembers_refl as]

theorem sameItems_refl : ∀ as : List Json, sameItems as as = true
  | [] => by simp [sameItems]
  | a :: as => by simp [sameItems, same_refl a, sameItems_refl as]

theorem sameMembers_refl : ∀ as : List (String × Json), sameMembers as as = true
  | [] => by simp [sameMembers]
  | (n, a) :: as => by simp [sameMembers, same_refl a, sameMembers_refl as]

end

instance : DecidableEq Json := fun a b =>
  decidable_of_iff (same a b = true) ⟨eq_of_same, fun h => h ▸ same_refl a⟩

/-! ## Normal form -/

mutual

/-- The value with the members of every object in ascending order of names, the
last of each name. -/
def normal : Json → Json
  | array items => array (normalItems items)
  | object members => object (Entries.ofList (normalMembers members))
  | j => j
termination_by structural j => j

/-- The values of a list in normal form. -/
def normalItems : List Json → List Json
  | [] => []
  | j :: js => normal j :: normalItems js
termination_by structural js => js

/-- The members of an object with their values in normal form. -/
def normalMembers : List (String × Json) → List (String × Json)
  | [] => []
  | (n, j) :: ms => (n, normal j) :: normalMembers ms
termination_by structural ms => ms

end

/-! ## Reading parts -/

/-- The value of an object's member, the last of its name; `none` for other
values. -/
def member? (j : Json) (name : String) : Option Json :=
  match j with
  | object members => Entries.get? name members.reverse
  | _ => none

def isNull : Json → Bool
  | null => true
  | _ => false

/-- The string, if the value is one. -/
def text? : Json → Option String
  | text s => some s
  | _ => none

/-- The items, if the value is an array. -/
def items? : Json → Option (List Json)
  | array items => some items
  | _ => none

/-- The members, if the value is an object. -/
def members? : Json → Option (List (String × Json))
  | object members => some members
  | _ => none

/-- The integer, if the value is one between `least` and `greatest`. -/
def intWithin? (least greatest : Int) : Json → Option Int
  | int n => if least ≤ n ∧ n ≤ greatest then some n else none
  | _ => none

/-- The least and the greatest integer of 64 bits with a sign. -/
def leastInt64 : Int := -9223372036854775808
def greatestInt64 : Int := 9223372036854775807

/-- The integer, if the value is one that 64 bits with a sign can hold. -/
def int64? : Json → Option Int := intWithin? leastInt64 greatestInt64

/-- The number, if the value is an integer below `bound` that is not negative. -/
def natBelow? (bound : Nat) (j : Json) : Option Nat :=
  (j.intWithin? 0 (bound - 1)).map Int.toNat

theorem natBelow?_eq_some_iff {bound n : Nat} {j : Json} :
    j.natBelow? bound = some n ↔ j = .int n ∧ n < bound := by
  cases j with
  | int k =>
    simp only [natBelow?, intWithin?, Json.int.injEq]
    split
    · simp only [Option.map_some, Option.some.injEq]
      omega
    · simp only [Option.map_none, false_iff, reduceCtorEq]
      omega
  | _ => simp [natBelow?, intWithin?]

/-- The number, if the value is one. -/
def number? : Json → Option Double
  | int n => some (Double.ofInt n)
  | double d => some d
  | _ => none

/-- An object with the members given, in ascending order of names. -/
def ofMembers (members : List (String × Json)) : Json := object (Entries.ofList members)

/-- The value, or null if there is none. -/
def ofOption {α : Type} (f : α → Json) : Option α → Json
  | some a => f a
  | none => null

end Json
end OData
