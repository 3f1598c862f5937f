import OData.Guid
import OData.Instant
import OData.Json.Writer
import OData.Text.Quoted

/-! # Literals

A literal is a typed value that a request can mention: in a filter, in the key
of an entity or as the argument of a function.  `Literal.render` writes it the
way a service reads it.
-/
namespace OData

/-- A typed value. -/
inductive Literal where
  | null
  | text (s : String)
  | bool (b : Bool)
  /-- An integer of 64 bits with a sign. -/
  | int (n : Int)
  | double (d : Double)
  | instant (t : Instant)
  | guid (g : Guid)
  /-- A member of an enumeration, by its name. -/
  | enumMember (name : String)
  | list (items : List Literal)
  deriving Repr, Inhabited

namespace Literal

def isNull : Literal → Bool
  | null => true
  | _ => false

/-- The items, if the literal is a list. -/
def items? : Literal → Option (List Literal)
  | list items => some items
  | _ => none

/-- Numbers are plain decimal text; the protocol has words for infinity and for
what is not a number. -/
def numberLayout : Double.Layout := { Double.plain with infinity := "INF" }

/-- An integer in decimal digits. -/
def writeInt (n : Int) : String := String.ofList (Json.writeInt n)

/-- A truth value. -/
def writeBool (b : Bool) : String := if b then "true" else "false"

mutual

/-- A literal as a service reads it.  Texts and names of enumeration members are
quoted, instants are to the second, and a list stands in parentheses. -/
def render : Literal → String
  | null => "null"
  | text s => quoted s
  | bool b => writeBool b
  | int n => writeInt n
  | double d => numberLayout.write d
  | instant t => t.toText
  | guid g => g.toText
  | enumMember name => quoted name
  | list items => "(" ++ String.intercalate "," (renderAll items) ++ ")"
termination_by structural v => v

/-- The literals of a list, each as a service reads it. -/
def renderAll : List Literal → List String
  | [] => []
  | v :: vs => render v :: renderAll vs
termination_by structural vs => vs

end

theorem renderAll_eq_map (vs : List Literal) : renderAll vs = vs.map render := by
  induction vs with
  | nil => rfl
  | cons v vs ih => simp [renderAll, ih]

/-- A literal as an element of an array argument, where texts are not quoted. -/
def renderElement : Literal → String
  | text s => s
  | enumMember name => name
  | v => v.render

mutual

/-- The literal for a JSON value.  A number that no integer of 64 bits with a
sign can hold is a double, a string that reads as a GUID is one, and an object
is its compact text. -/
def ofJson : Json → Literal
  | .null => null
  | .bool b => bool b
  | .int n =>
    if Json.leastInt64 ≤ n ∧ n ≤ Json.greatestInt64 then int n else double (Double.ofInt n)
  | .double d => double d
  | .text s => match Guid.ofText? s with
    | some g => guid g
    | none => text s
  | .array items => list (ofJsonItems items)
  | .object members => text (Json.object members).compact
termination_by structural j => j

/-- The literals for the items of a JSON array. -/
def ofJsonItems : List Json → List Literal
  | [] => []
  | j :: js => ofJson j :: ofJsonItems js
termination_by structural js => js

end

theorem ofJsonItems_eq_map (js : List Json) : ofJsonItems js = js.map ofJson := by
  induction js with
  | nil => rfl
  | cons j js ih => simp [ofJsonItems, ih]

end Literal
end OData
