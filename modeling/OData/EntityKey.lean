import OData.Failure
import OData.Literal

/-! # Entity keys

A key stands in the parentheses behind an entity set and picks one entity.  It
is a single value, or names several key properties.  Null and lists are no keys.
-/
namespace OData

/-- The key of an entity. -/
inductive EntityKey where
  | single (value : Literal)
  /-- Key properties by name. -/
  | composite (parts : List (String × Literal))
  deriving Repr

namespace EntityKey

/-- Why values are no key. -/
inductive Fault where
  | null
  | list
  | noParts
  | part (name : String) (fault : Fault)
  deriving DecidableEq, Repr

namespace Fault

/-- The reason in words. -/
def reason : Fault → String
  | null => "key cannot be null"
  | list => "key cannot be a collection"
  | noParts => "composite key has no parts"
  | part name fault => s!"{name}: {fault.reason}"

def toFailure (f : Fault) : Failure := .invalidKey f.reason

end Fault

/-- What keeps a literal from being a key value. -/
def valueFault? : Literal → Option Fault
  | .null => some .null
  | .list _ => some .list
  | _ => none

/-- The key of one value. -/
def ofLiteral (value : Literal) : Except Fault EntityKey :=
  match valueFault? value with
  | some fault => .error fault
  | none => .ok (.single value)

/-- The key of several named values. -/
def ofParts (parts : List (String × Literal)) : Except Fault EntityKey :=
  if parts.isEmpty then .error .noParts
  else
    match parts.findSome? fun p => (valueFault? p.2).map (Fault.part p.1) with
    | some fault => .error fault
    | none => .ok (.composite parts)

/-- The key without the parentheses around it. -/
def render : EntityKey → String
  | single value => value.render
  | composite parts => String.intercalate "," (parts.map fun p => p.1 ++ "=" ++ p.2.render)

/-- The URL of the entity of a set that has the key. -/
def entityUrl (entitySet : String) (key : EntityKey) : String :=
  entitySet ++ "(" ++ key.render ++ ")"

end EntityKey
end OData
