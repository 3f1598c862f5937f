import OData.Json.Reader
import OData.Literal

/-! # Literals as tagged JSON

A literal is stored as an object of two members: `type` names its kind and
`value` holds its content.  Null has no content.  The two parts may also stand
in an array, the kind first.
-/
namespace OData
namespace Literal

/-- An object of the two parts. -/
def tagged (kind : String) (content : Json) : Json :=
  .object [("type", .text kind), ("value", content)]

mutual

/-- The tagged form of a literal. -/
def toTagged : Literal → Json
  | null => .object [("type", .text "Null")]
  | text s => tagged "String" (.text s)
  | bool b => tagged "Bool" (.bool b)
  | int n => tagged "Int" (.int n)
  | double d => tagged "Float" (if d.isFinite then .double d else .null)
  | instant t => tagged "DateTime" (.text t.toPreciseText)
  | guid g => tagged "Guid" (.text g.toText)
  | enumMember name => tagged "Enum" (.text name)
  | list items => tagged "Collection" (.array (toTaggedItems items))
termination_by structural v => v

/-- The tagged forms of the literals of a list. -/
def toTaggedItems : List Literal → List Json
  | [] => []
  | v :: vs => toTagged v :: toTaggedItems vs
termination_by structural vs => vs

end

/-- The kind and the content that a JSON value gives, if each part stands there
once. -/
def tagParts? : Json → Option (Json × Option Json)
  | .array [kind, content] => some (kind, some content)
  | .object members =>
    let parts (name : String) := (members.filter fun m => m.1 == name).map Prod.snd
    match parts "type", parts "value" with
    | [kind], [] => some (kind, none)
    | [kind], [content] => some (kind, some content)
    | _, _ => none
  | _ => none

/-- The literal that a tagged form stands for.  Lists lie at most `depth` deep
inside each other. -/
def ofTaggedWithin? : Nat → Json → Option Literal
  | 0, _ => none
  | depth + 1, j => do
    let (kind, content) ← tagParts? j
    match ← kind.text?, content with
    | "Null", none => return null
    | "Null", some c => if c.isNull then return null else none
    | "String", some (.text s) => return text s
    | "Bool", some (.bool b) => return bool b
    | "Int", some c => return int (← c.int64?)
    | "Float", some c => return double (← c.number?)
    | "DateTime", some (.text s) => return instant (← Instant.ofText? s)
    | "Guid", some (.text s) => return guid (← Guid.ofText? s)
    | "Enum", some (.text s) => return enumMember s
    | "Collection", some (.array items) => return list (← items.mapM (ofTaggedWithin? depth))
    | _, _ => none

/-- The literal that a tagged form stands for. -/
def ofTagged? (j : Json) : Option Literal := ofTaggedWithin? Json.greatestDepth j

end Literal
end OData
