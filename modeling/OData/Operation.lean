import OData.EntityKey
import OData.Headers
import OData.Json.Writer
import OData.Shape

/-! # Operations

An operation is one request to the service, sent alone or in a batch.  Only
updates and deletions honour the entity tag they carry, and only creations and
updates have a body.
-/
namespace OData

/-- What an operation does. -/
inductive OperationKind where
  | get | create | update | delete
  deriving DecidableEq, Repr

namespace OperationKind

/-- The method of the request. -/
def method : OperationKind → String
  | get => "GET"
  | create => "POST"
  | update => "PATCH"
  | delete => "DELETE"

/-- The word for the kind. -/
def word : OperationKind → String
  | get => "get"
  | create => "create"
  | update => "update"
  | delete => "delete"

def all : List OperationKind := [get, create, update, delete]

/-- The kind with the word given. -/
def ofWord? (s : String) : Option OperationKind := all.find? fun k => k.word == s

def hasBody : OperationKind → Bool
  | create | update => true
  | _ => false

/-- Whether a request of the kind holds only for one version of the entity. -/
def usesEtag : OperationKind → Bool
  | update | delete => true
  | _ => false

end OperationKind

/-- A request to the service. -/
structure Operation where
  /-- Tells the operations of a batch apart. -/
  id : String
  kind : OperationKind
  /-- The URL below the root of the service. -/
  url : String
  body : Option Json
  etag : Option String
  headers : Headers
  /-- What the body of a successful answer is expected to be. -/
  expects : Option Shape

namespace Operation

/-- The operation of a kind on a URL, without anything else. -/
def ofKind (id : String) (kind : OperationKind) (url : String) : Operation :=
  ⟨id, kind, url, none, none, ∅, none⟩

def get (id url : String) : Operation := ofKind id .get url

/-- Adds an entity to a set. -/
def create (id entitySet : String) (entity : Json) : Operation :=
  { ofKind id .create entitySet with body := some entity }

/-- Changes the entity of a set with the key given. -/
def update (id entitySet : String) (key : EntityKey) (changes : Json) : Operation :=
  { ofKind id .update (EntityKey.entityUrl entitySet key) with body := some changes }

/-- Removes the entity of a set with the key given. -/
def delete (id entitySet : String) (key : EntityKey) : Operation :=
  ofKind id .delete (EntityKey.entityUrl entitySet key)

def method (op : Operation) : String := op.kind.method

/-- The version of the entity for which alone the request holds. -/
def ifMatch (op : Operation) : Option String := if op.kind.usesEtag then op.etag else none

/-- The text of the body; an operation that should have one and does not sends an
empty object. -/
def bodyText (op : Operation) : String :=
  match op.body with
  | some j => j.compact
  | none => "\x7b\x7d"

end Operation
end OData
