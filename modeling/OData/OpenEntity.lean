import OData.Shape
import OData.Json.Writer

/-! # Open entities

An entity of an open type has the properties that its type declares and any
others.  Both kinds lie side by side in one JSON object; here they are apart.
-/
namespace OData

/-- An entity with its declared properties, in the order of their declaration,
and its other ones. -/
structure OpenEntity where
  declared : List (String × Json)
  extra : NameMap Json

namespace OpenEntity

/-- The entity that an object stands for, when its type declares `fields`. -/
def read? (fields : List (String × Shape)) (j : Json) : Option OpenEntity := do
  let members ← j.members?
  let declared ← Shape.readFields? fields members
  return ⟨declared, NameMap.ofList (Shape.undeclared fields members)⟩

/-- An entity without other properties than the declared ones. -/
def ofDeclared (declared : List (String × Json)) : OpenEntity := ⟨declared, ∅⟩

/-- The value of a property that the type does not declare. -/
def property? (e : OpenEntity) (name : String) : Option Json := e.extra.get? name

/-- Sets a property outside the declared ones. -/
def setProperty (e : OpenEntity) (name : String) (value : Json) : OpenEntity :=
  { e with extra := e.extra.insert name value }

/-- Sets a declared property, if there is one of that name. -/
def setDeclared (e : OpenEntity) (name : String) (value : Json) : OpenEntity :=
  { e with declared := e.declared.map fun p => if p.1 = name then (name, value) else p }

/-- Properties whose name holds an at sign annotate the entity. -/
def annotations (e : OpenEntity) : List (String × Json) :=
  e.extra.entries.filter fun p => p.1.toList.contains '@'

/-- The entity tag that the service sent along. -/
def etag? (e : OpenEntity) : Option String := (e.property? "@odata.etag").bind Json.text?

/-- The members of the entity as it is written, declared ones first. -/
def members (e : OpenEntity) : List (String × Json) := e.declared ++ e.extra.entries

/-- The text of the entity. -/
def toText (e : OpenEntity) : String := (Json.object e.members).compact

/-- The entity as one JSON value.  Of a declared property and another one of the
same name the latter stays. -/
def toJson (e : OpenEntity) : Json := Json.ofMembers e.members

end OpenEntity
end OData
