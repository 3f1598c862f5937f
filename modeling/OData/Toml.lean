import OData.Json

/-! # TOML tables

A document of settings builds up a table line by line.  While it grows, the table
remembers how each of its parts came to be, because that decides what may still
be added: a part named by a header, or written as a value, is there once and for
all, and one named only on the way to another part may get a header later.
-/
namespace OData
namespace Toml

/-- How a table came to be. -/
inductive Origin where
  /-- Named in a header on the way to another table. -/
  | passedBy
  /-- Named by a header of its own. -/
  | header
  /-- Named by a key with dots. -/
  | dotted
  deriving DecidableEq, Repr

/-- What stands under a name. -/
inductive Entry where
  | value (value : Json)
  | table (origin : Origin) (entries : List (String × Entry))
  /-- Tables of which headers in double brackets name one after another. -/
  | tables (items : List (List (String × Entry)))
  deriving Inhabited

/-- The entries of a table, in the order in which they came to be. -/
abbrev Entries := List (String × Entry)

/-- Changes what stands under a name; what stands there first is `none` if nothing
does. -/
def alter (name : String) (change : Option Entry → Option Entry) : Entries → Option Entries
  | [] => (change none).map fun e => [(name, e)]
  | (n, e) :: rest =>
    if n = name then (change (some e)).map fun e => (n, e) :: rest
    else (alter name change rest).map fun rest => (n, e) :: rest

/-- Changes the last table of a list. -/
def alterLast (change : Entries → Option Entries) : List Entries → Option (List Entries)
  | [] => none
  | [t] => (change t).map fun t => [t]
  | t :: ts => (alterLast change ts).map fun ts => t :: ts

/-- Changes the table that a header's path leads to. -/
def alterAt (change : Entries → Option Entries) : List String → Entries → Option Entries
  | [], t => change t
  | name :: path, t =>
    t |> alter name fun
      | none => (alterAt change path []).map (.table .passedBy)
      | some (.table origin inner) => (alterAt change path inner).map (.table origin)
      | some (.tables items) => (alterLast (alterAt change path) items).map .tables
      | some (.value _) => none

/-- Puts a value under a key.  A key with dots leads through tables that no header
names. -/
def assign (value : Json) : List String → Entries → Option Entries
  | [], _ => none
  | [name], t =>
    t |> alter name fun
      | none => some (.value value)
      | some _ => none
  | name :: path, t =>
    t |> alter name fun
      | none => (assign value path []).map (.table .dotted)
      | some (.table .header _) => none
      | some (.table origin inner) => (assign value path inner).map (.table origin)
      | some _ => none

/-- Gives a table a header.  Only a table that was passed by may be there. -/
def giveHeader (name : String) : Entries → Option Entries :=
  alter name fun
    | none => some (.table .header [])
    | some (.table .passedBy inner) => some (.table .header inner)
    | some _ => none

/-- Adds a table to those under a name. -/
def addTable (name : String) : Entries → Option Entries :=
  alter name fun
    | none => some (.tables [[]])
    | some (.tables items) => some (.tables (items ++ [[]]))
    | some _ => none

mutual

/-- The value that a part of the document stands for. -/
def Entry.toJson : Entry → Json
  | .value j => j
  | .table _ entries => .object (membersOf entries)
  | .tables items => .array (tablesOf items)

/-- The members that the entries of a table stand for. -/
def membersOf : List (String × Entry) → List (String × Json)
  | [] => []
  | (name, e) :: rest => (name, e.toJson) :: membersOf rest

/-- The values that tables stand for. -/
def tablesOf : List (List (String × Entry)) → List Json
  | [] => []
  | t :: ts => .object (membersOf t) :: tablesOf ts

end

end Toml
end OData
