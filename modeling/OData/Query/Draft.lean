import OData.Query

/-! # Query drafts

A draft collects the options of a query call by call.  Options with a single
value keep the last one given, options with a list keep all in the order given.
Building the query writes the filters and fails with the first that has no text.
-/
namespace OData
namespace Query

/-- A query whose filters are trees still. -/
structure Draft where
  entitySet : String
  derivedType : Option String
  key : Option EntityKey
  function : Option FunctionCall
  filters : List Filter
  search : Option String
  select : List String
  expand : List Expansion
  orderBy : List SortKey
  skip : Option Nat
  top : Option Nat
  count : Bool
  apply : Option String
  compute : List String
  headers : NameMap String

/-- What a draft can be told. -/
inductive Call where
  | key (key : EntityKey)
  | cast (derivedType : String)
  | filter (filter : Filter)
  | search (text : String)
  | select (properties : List String)
  | expand (expansion : Expansion)
  | orderBy (key : SortKey)
  | skip (n : Nat)
  | top (n : Nat)
  | count
  | function (call : FunctionCall)
  | apply (text : String)
  | compute (text : String)
  | header (name value : String)

namespace Call

/-- A filter that is given as text. -/
def filterText (text : String) : Call := filter (.raw text)

/-- A property to order by, greatest first. -/
def orderByDescending (property : String) : Call := orderBy (.descendingBy property)

end Call

namespace Draft

/-- The draft for a whole entity set. -/
def ofSet (entitySet : String) : Draft where
  entitySet
  derivedType := none
  key := none
  function := none
  filters := []
  search := none
  select := []
  expand := []
  orderBy := []
  skip := none
  top := none
  count := false
  apply := none
  compute := []
  headers := ∅

/-- The draft after one more call. -/
def tell (d : Draft) : Call → Draft
  | .key key => { d with key := some key }
  | .cast derivedType => { d with derivedType := some derivedType }
  | .filter filter => { d with filters := d.filters ++ [filter] }
  | .search text => { d with search := some text }
  | .select properties => { d with select := d.select ++ properties }
  | .expand expansion => { d with expand := d.expand ++ [expansion] }
  | .orderBy key => { d with orderBy := d.orderBy ++ [key] }
  | .skip n => { d with skip := some n }
  | .top n => { d with top := some n }
  | .count => { d with count := true }
  | .function call => { d with function := some call }
  | .apply text => { d with apply := some text }
  | .compute text => { d with compute := d.compute ++ [text] }
  | .header name value => { d with headers := d.headers.insert name value }

/-- The draft after several calls. -/
def tellAll (d : Draft) (calls : List Call) : Draft := calls.foldl tell d

/-- The query that the draft describes. -/
def build (d : Draft) : Except Filter.Unsupported Query := do
  let filters ← d.filters.mapM Filter.compile
  let expand ← d.expand.mapM Expansion.render
  return {
    entitySet := d.entitySet
    derivedType := d.derivedType
    key := d.key
    function := d.function
    filters
    search := d.search
    select := d.select
    expand
    orderBy := d.orderBy
    skip := d.skip
    top := d.top
    count := d.count
    apply := d.apply
    compute := d.compute
    headers := d.headers }

/-- The URL of the query that the draft describes. -/
def buildUrl (d : Draft) : Except Filter.Unsupported String := d.build.map Query.url

end Draft
end Query
end OData
