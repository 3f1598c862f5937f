import OData.Json.Writer

/-! # Comma-separated values

A list of records is written as a table: a row with the names of the first
record's members, then a row for each record.  A cell with a comma, a quote or a
line feed stands in quotes, and the quotes inside it are doubled.
-/
namespace OData
namespace Csv

/-- A character that a cell must stand in quotes for. -/
def isSpecial (c : Char) : Bool := c == ',' || c == '"' || c == '\n'

/-- A cell of the table. -/
def cell (s : List Char) : List Char :=
  if s.any isSpecial then '"' :: (s.flatMap fun c => if c = '"' then ['"', '"'] else [c]) ++ ['"']
  else s

/-- The cells of a row, up to its end. -/
def row (cells : List (List Char)) : List Char := [','].intercalate (cells.map cell) ++ ['\n']

/-- The text of a value in a cell: a string as it is, all else as JSON. -/
def valueText : Json → List Char
  | .text s => s.toList
  | j => j.write

/-- The row of a record under the names given.  What the record lacks is null. -/
def record (names : List String) (j : Json) : List Char :=
  row (names.map fun name => valueText ((j.member? name).getD .null))

/-- A value as a table. -/
def table : Json → List Char
  | .array (.object first :: rest) =>
    let names := first.map Prod.fst
    let records := (Json.object first :: rest).filter fun j => j.members?.isSome
    row (names.map String.toList) ++ records.flatMap (record names)
  | .array _ => "No data\n".toList
  | .object members =>
    row ["key".toList, "value".toList] ++
      members.flatMap fun m => row [m.1.toList, valueText m.2]
  | j => row ["value".toList] ++ row [valueText j]

end Csv

/-- The form in which values are shown. -/
inductive OutputFormat where
  | json | compactJson | csv
  deriving DecidableEq, Repr

namespace OutputFormat

/-- The word for a form. -/
def word : OutputFormat → String
  | json => "json"
  | compactJson => "json-compact"
  | csv => "csv"

/-- The form with the word given. -/
def ofWord? (s : String) : Option OutputFormat :=
  [json, compactJson, csv].find? fun f => f.word == s

/-- The text of a value. -/
def render : OutputFormat → Json → String
  | json, j => j.pretty
  | compactJson, j => j.compact
  | csv, j => String.ofList (Csv.table j)

end OutputFormat
end OData
