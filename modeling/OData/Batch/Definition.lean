import OData.Batch
import OData.Json.Reader

/-! # Batch definitions

A batch can be described by a JSON object with a list of items.  An item is an
object with a list `changeset` of operations, or else an operation.  An operation
has no other members than those named here; the values of an object may also
stand in an array in the order of their declaration.
-/
namespace OData
namespace BatchDefinition

/-- The members of an object by their names, if each stands there at most once and
has one of the names. -/
def uniqueMembers? (names : List String) (members : List (String × Json)) :
    Option (String → Option Json) :=
  if members.all fun m => names.contains m.1 && (Shape.valuesOf m.1 members).length == 1 then
    some fun name => members.lookup name
  else none

/-- The names of an operation's members. -/
def operationNames : List String := ["id", "kind", "url", "body", "etag", "headers"]

/-- The members of an operation, however it is written.  An array may lack the
headers. -/
def operationMembers? : Json → Option (String → Option Json)
  | .object members => uniqueMembers? operationNames members
  | .array items =>
    if items.length = 5 ∨ items.length = 6 then
      some fun name => (operationNames.zip items).lookup name
    else none
  | _ => none

/-- A text that may be null or missing. -/
def optionalText? : Option Json → Option (Option String)
  | none | some .null => some none
  | some (.text s) => some (some s)
  | _ => none

/-- The kind of an operation, as a word or as an object that has the word for the
name of its one member, which is null. -/
def kind? : Json → Option OperationKind
  | .text s => OperationKind.ofWord? s
  | .object [(s, .null)] => OperationKind.ofWord? s
  | _ => none

/-- The headers that an object of texts gives. -/
def headers? : Option Json → Option Headers
  | none => some ∅
  | some (.object members) =>
    (members.mapM fun (m : String × Json) => m.2.text?.map fun v => (m.1, v)).map NameMap.ofList
  | _ => none

/-- The operation that a JSON value describes; `fresh` is its id if it names
none. -/
def operation? (fresh : String) (j : Json) : Option Operation := do
  let get ← operationMembers? j
  let id ← optionalText? (get "id")
  let kind ← (get "kind").bind kind?
  let url ← (get "url").bind Json.text?
  let etag ← optionalText? (get "etag")
  let headers ← headers? (get "headers")
  let body := (get "body").bind fun b => if b.isNull then none else some b.normal
  return ⟨id.getD fresh, kind, url, body, etag, headers, none⟩

/-- The operations of a list; `fresh` has ids, of which `used` are spent. -/
def operations? (fresh : Nat → String) (used : Nat) : List Json → Option (List Operation)
  | [] => some []
  | j :: js => do
    let op ← operation? (fresh used) j
    let ops ← operations? fresh (used + 1) js
    return op :: ops

/-- The list of a change set, however it is written. -/
def changesetItems? : Json → Option (List Json)
  | .object members =>
    match Shape.valuesOf "changeset" members with
    | [.array items] => some items
    | _ => none
  | .array [.array items] => some items
  | _ => none

/-- The item that a JSON value describes. -/
def item? (fresh : Nat → String) (used : Nat) (j : Json) : Option BatchItem :=
  match (changesetItems? j).bind (operations? fresh used) with
  | some ops => some (.changeset ops)
  | none => (operation? (fresh used) j).map .operation

/-- The items of a list. -/
def items? (fresh : Nat → String) (used : Nat) : List Json → Option (List BatchItem)
  | [] => some []
  | j :: js => do
    let item ← item? fresh used j
    let items ← items? fresh (used + item.operations.length) js
    return item :: items

/-- The batch that a text describes.  `fresh` has ids for the operations that name
none. -/
def read? (fresh : Nat → String) (text : String) : Option Batch := do
  let j ← Json.readWritten? text
  let items ← match j with
    | .object members =>
      match Shape.valuesOf "items" members with
      | [.array items] => some items
      | _ => none
    | .array [.array items] => some items
    | _ => none
  return ⟨← items? fresh 0 items⟩

end BatchDefinition
end OData
