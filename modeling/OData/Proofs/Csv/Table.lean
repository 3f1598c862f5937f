import OData.Csv
import OData.Proofs.Text.Outside

/-! # Tables are read back

A reader of comma-separated values ends a record at a line feed outside quotes, cuts it
at the commas outside quotes, and takes a cell in quotes for what stands between them, with
one quote for two.  Such a reader finds in the table of a list of records the cells that
were written, whatever stands in them (`read_table`).

A cell either has no quote, comma or line feed or stands in quotes, where they do not count
(`keeps?_cell`).  So a row is cut at the commas between its cells (`readRow_row`), and a
table at the ends of its rows (`records_rows`).
-/
namespace OData
namespace Csv

open Text

/-! ## The reader -/

/-- A text with one quote for each two in a row. -/
def halveQuotes : List Char → List Char
  | '"' :: '"' :: s => '"' :: halveQuotes s
  | c :: s => c :: halveQuotes s
  | [] => []

/-- What a cell says: if it starts with a quote, what stands between this and its last
character. -/
def readCell : List Char → List Char
  | '"' :: s => halveQuotes s.dropLast
  | s => s

/-- The cells of a record. -/
def readRow (s : List Char) : List (List Char) := (cutOutside '"' ',' false s).map readCell

/-- The records of a text.  What stands behind the last line feed is one if it is a text at
all. -/
def records (s : List Char) : List (List Char) :=
  let pieces := cutOutside '"' '\n' false s
  if pieces.getLast? = some [] then pieces.dropLast else pieces

/-- The table that a text stands for. -/
def read (s : String) : List (List String) :=
  (records s.toList).map fun r => (readRow r).map String.ofList

variable {s : List Char} {c sep : Char} {cells : List (List Char)} {rows : List (List (List Char))}

/-! ## Cells -/

theorem halveQuotes_cons (h : c ≠ '"') (s : List Char) :
    halveQuotes (c :: s) = c :: halveQuotes s := by
  rw [halveQuotes]
  rintro t rfl
  exact absurd rfl h

theorem halveQuotes_doubled (s : List Char) :
    halveQuotes (s.flatMap fun c => if c = '"' then ['"', '"'] else [c]) = s := by
  induction s with
  | nil => rfl
  | cons c s ih =>
    rw [List.flatMap_cons]
    split
    · next hc => rw [List.cons_append, List.singleton_append, halveQuotes, ih, hc]
    · next hc => rw [List.singleton_append, halveQuotes_cons hc, ih]

/-- A cell that stands as it is has nothing in it that a reader looks for. -/
theorem not_mem_of_any_isSpecial (h : ¬ s.any isSpecial = true) (hc : isSpecial c = true) :
    c ∉ s := fun hmem => h (List.any_eq_true.mpr ⟨c, hmem, hc⟩)

/-- A cell says what was written into it. -/
theorem readCell_cell (s : List Char) : readCell (cell s) = s := by
  rw [cell]
  split
  · rw [List.cons_append, readCell, List.dropLast_concat, halveQuotes_doubled]
  · next h =>
    have hquote := not_mem_of_any_isSpecial h (c := '"') rfl
    rw [readCell.eq_def]
    split
    · exact absurd (List.mem_cons_self ..) hquote
    · rfl

/-- A reader who is outside quotes in front of a cell is so behind it, and has no reason to
cut in between. -/
theorem keeps?_cell (hsep : isSpecial sep = true) (hne : sep ≠ '"') (s : List Char) :
    keeps? '"' sep false (cell s) = some false := by
  rw [cell]
  split
  · have hopen : openBehind '"' false '"' = true := rfl
    rw [List.cons_append, keeps?_cons, if_neg fun h => hne h.2.symm, hopen, keeps?_append,
      keeps?_doubled (Ne.symm hne)]
    simp [keeps?, openBehind]
  · next h =>
    exact keeps?_of_plain (not_mem_of_any_isSpecial h rfl) (not_mem_of_any_isSpecial h hsep)

/-! ## Rows -/

theorem readRow_cells (hne : cells ≠ []) :
    readRow ([','].intercalate (cells.map cell)) = cells := by
  have hcut : cutOutside '"' ',' false ([','].intercalate (cells.map cell)) = cells.map cell := by
    refine cutOutside_intercalate (by simpa using hne) fun p hp => ?_
    obtain ⟨s, -, rfl⟩ := List.mem_map.mp hp
    exact keeps?_cell rfl (by decide) s
  rw [readRow, hcut, List.map_map]
  exact (List.map_congr_left fun s _ => readCell_cell s).trans (List.map_id cells)

/-- No line ends inside a row, unless in quotes. -/
theorem keeps?_cells (cells : List (List Char)) :
    keeps? '"' '\n' false ([','].intercalate (cells.map cell)) = some false := by
  induction cells with
  | nil => rfl
  | cons s cells ih =>
    have hs : keeps? '"' '\n' false (cell s) = some false := keeps?_cell rfl (by decide) s
    cases cells with
    | nil => simpa using hs
    | cons t cells =>
      rw [List.map_cons, List.map_cons, List.intercalate_cons_cons, keeps?_append, keeps?_append,
        hs]
      exact ih

theorem cutOutside_rows (rows : List (List (List Char))) :
    cutOutside '"' '\n' false (rows.flatMap row) =
      rows.map (fun cells => [','].intercalate (cells.map cell)) ++ [[]] := by
  induction rows with
  | nil => rfl
  | cons cells rows ih =>
    rw [List.flatMap_cons, row, List.append_assoc, List.singleton_append,
      cutOutside_joint (keeps?_cells cells), ih]
    rfl

/-- The records are the rows. -/
theorem records_rows (rows : List (List (List Char))) :
    records (rows.flatMap row) = rows.map fun cells => [','].intercalate (cells.map cell) := by
  rw [records, cutOutside_rows]
  simp

theorem read_rows (h : ∀ cells ∈ rows, cells ≠ []) :
    read (String.ofList (rows.flatMap row)) = rows.map fun cells => cells.map String.ofList := by
  rw [read, String.toList_ofList, records_rows, List.map_map]
  refine List.map_congr_left fun cells hcells => ?_
  rw [Function.comp_apply, readRow_cells (h cells hcells)]

/-! ## Tables -/

/-- What a cell shows of a value that may be missing: a string as it is, nothing as null, and
all else as compact JSON. -/
def shown : Option Json → String
  | some (.text s) => s
  | none | some .null => "null"
  | some j => j.compact

theorem ofList_valueText (v : Option Json) :
    String.ofList (valueText (v.getD .null)) = shown v := by
  rcases v with _ | j
  · rfl
  · cases j with
    | text s => exact String.ofList_toList
    | _ => rfl

/-- **A table is read back.**  Its first row has the names of the first record's members.
Behind it comes one row for each record, in which a cell under each of the names shows what the
record has there. -/
theorem read_table {first : List (String × Json)} (rest : List Json) (nonempty : first ≠ []) :
    read (OutputFormat.csv.render (.array (.object first :: rest))) =
      first.map Prod.fst ::
        ((Json.object first :: rest).filter fun j => j.members?.isSome).map fun j =>
          (first.map Prod.fst).map fun name => shown (j.member? name) := by
  have hrows : Csv.table (.array (.object first :: rest)) =
      (((first.map Prod.fst).map String.toList) ::
        ((Json.object first :: rest).filter fun j => j.members?.isSome).map fun j =>
          (first.map Prod.fst).map fun name => valueText ((j.member? name).getD .null)).flatMap
        row := by
    rw [List.flatMap_cons, List.flatMap_map]
    rfl
  have hnames : ((first.map Prod.fst).map String.toList).map String.ofList =
      first.map Prod.fst := by
    rw [List.map_map]
    exact (List.map_congr_left fun name _ => String.ofList_toList).trans (List.map_id _)
  rw [OutputFormat.render, hrows, read_rows, List.map_cons, hnames, List.map_map]
  · refine congrArg _ (List.map_congr_left fun j _ => ?_)
    rw [Function.comp_apply, List.map_map]
    exact List.map_congr_left fun name _ => ofList_valueText (j.member? name)
  · intro cells hcells
    rcases List.mem_cons.mp hcells with rfl | hcells
    · simpa using nonempty
    · obtain ⟨j, -, rfl⟩ := List.mem_map.mp hcells
      simpa using nonempty

/-- Names and strings with commas, quotes and line feeds, a record that lacks a name, and an
item that is no record. -/
theorem read_table_quoted :
    [("a,\n\"", Json.text "x\"\n,y"), ("b", .array [.text ",", .null])] ≠ [] ∧
    read (OutputFormat.csv.render (.array [
      .object [("a,\n\"", .text "x\"\n,y"), ("b", .array [.text ",", .null])],
      .int 7, .object [("b", .null), ("c", .int 1)]])) =
      [["a,\n\"", "b"], ["x\"\n,y", "[\",\",null]"], ["null", "null"]] := by
  refine ⟨by simp, ?_⟩
  rw [read_table _ (by simp)]
  decide +kernel

end Csv
end OData
