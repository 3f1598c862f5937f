import OData.Json

/-! # Shapes of JSON values

A shape describes the values that a client expects.  Reading a value by a shape
either fails or gives the value as the shape writes it: members in the order in
which they are declared, missing optional ones null, and integers as doubles
where a number is expected.
-/
namespace OData

/-- What a JSON value is expected to be. -/
inductive Shape where
  | anything
  | integer (least greatest : Int)
  | number
  | truth
  | text
  | optional (inner : Shape)
  | listOf (item : Shape)
  | mapOf (item : Shape)
  /-- An object with the declared members, which may also be given as an array of
  their values in order.  Members that are not declared are passed over. -/
  | record (fields : List (String × Shape))
  /-- An object with the declared members and any others. -/
  | openRecord (fields : List (String × Shape))
  deriving Repr, Inhabited

namespace Shape

/-- A value that may be missing from an object. -/
def mayBeMissing : Shape → Bool
  | optional _ => true
  | _ => false

/-- The values of the members with the name given. -/
def valuesOf (name : String) (members : List (String × Json)) : List Json :=
  (members.filter fun m => m.1 == name).map Prod.snd

/-- The members that are not declared, in normal form. -/
def undeclared (fields : List (String × Shape)) (members : List (String × Json)) :
    List (String × Json) :=
  Json.normalMembers (members.filter fun m => !(fields.map Prod.fst).contains m.1)

mutual

/-- Reads a value by a shape.  A declared member given twice is a failure, an
undeclared one may be. -/
def read? : Shape → Json → Option Json
  | anything, j => some j.normal
  | integer least greatest, j => (j.intWithin? least greatest).map .int
  | number, j => j.number?.map .double
  | truth, .bool b => some (.bool b)
  | text, .text s => some (.text s)
  | optional inner, j => if j.isNull then some .null else inner.read? j
  | listOf item, .array js => (js.mapM item.read?).map .array
  | mapOf item, .object ms =>
    (ms.mapM fun m => (item.read? m.2).map fun j => (m.1, j)).map Json.ofMembers
  | record fields, .object ms => (readFields? fields ms).map .object
  | record fields, .array js =>
    if js.length = fields.length then (readInOrder? fields js).map .object else none
  | openRecord fields, .object ms =>
    (readFields? fields ms).map fun declared => Json.ofMembers (declared ++ undeclared fields ms)
  | _, _ => none
termination_by structural s => s

/-- Reads the declared members of an object. -/
def readFields? : List (String × Shape) → List (String × Json) → Option (List (String × Json))
  | [], _ => some []
  | (name, shape) :: fields, ms => do
    let j ← match valuesOf name ms with
      | [] => if shape.mayBeMissing then some .null else none
      | [j] => shape.read? j
      | _ => none
    return (name, j) :: (← readFields? fields ms)
termination_by structural fields => fields

/-- Reads the declared members from an array of their values. -/
def readInOrder? : List (String × Shape) → List Json → Option (List (String × Json))
  | (name, shape) :: fields, j :: js => do
    let j ← shape.read? j
    return (name, j) :: (← readInOrder? fields js)
  | _, _ => some []
termination_by structural fields => fields

end

end Shape
end OData
