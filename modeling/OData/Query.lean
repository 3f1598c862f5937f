import OData.EntityKey
import OData.Expansion
import OData.FunctionCall
import OData.Text.Percent

/-! # Queries

A query names a resource and the options with which it is read.  Its filters and
expansions are texts, so every query has a URL.  Free text is percent-encoded in
the URL; names are not.
-/
namespace OData

/-- A query in which every filter has its text. -/
structure Query where
  entitySet : String
  /-- The type that the entities are taken as. -/
  derivedType : Option String
  key : Option EntityKey
  function : Option FunctionCall
  filters : List String
  search : Option String
  select : List String
  expand : List String
  orderBy : List SortKey
  skip : Option Nat
  top : Option Nat
  count : Bool
  apply : Option String
  compute : List String
  /-- Headers of the request. -/
  headers : NameMap String

namespace Query

/-- The query of a whole entity set. -/
def ofSet (entitySet : String) : Query where
  entitySet
  derivedType := none
  key := none
  function := none
  filters := []
  search := none
  select := []
  expand := []
  orderBy := []
  skip := none
  top := none
  count := false
  apply := none
  compute := []
  headers := ∅

/-- The path of the resource. -/
def path (q : Query) : String :=
  q.entitySet ++
    (match q.derivedType with | some t => "/" ++ t | none => "") ++
    (match q.key with | some k => "(" ++ k.render ++ ")" | none => "") ++
    (match q.function with | some f => "/" ++ f.render | none => "")

/-- An option with its value, if it has one. -/
def optionIf (name : String) (present : Bool) (value : String) : List (String × String) :=
  if present then [(name, value)] else []

/-- A text that is there and not empty. -/
def isGiven (text : Option String) : Bool := text.any fun s => !s.isEmpty

/-- The options in the order in which they stand in the URL. -/
def options (q : Query) : List (String × String) :=
  optionIf "$filter" (!q.filters.isEmpty) (percentEncoded (combineFilters q.filters)) ++
  optionIf "$search" (isGiven q.search) (percentEncoded (q.search.getD "")) ++
  optionIf "$select" (!q.select.isEmpty) (String.intercalate "," q.select) ++
  optionIf "$expand" (!q.expand.isEmpty) (String.intercalate "," q.expand) ++
  optionIf "$orderby" (!q.orderBy.isEmpty) (SortKey.render q.orderBy) ++
  optionIf "$skip" q.skip.isSome (toString (q.skip.getD 0)) ++
  optionIf "$top" q.top.isSome (toString (q.top.getD 0)) ++
  optionIf "$count" q.count "true" ++
  optionIf "$apply" (isGiven q.apply) (percentEncoded (q.apply.getD "")) ++
  optionIf "$compute" (!q.compute.isEmpty) (percentEncoded (String.intercalate "," q.compute))

/-- The URL below the root of the service. -/
def url (q : Query) : String :=
  match q.options with
  | [] => q.path
  | options =>
    q.path ++ "?" ++ String.intercalate "&" (options.map fun o => o.1 ++ "=" ++ o.2)

end Query
end OData
