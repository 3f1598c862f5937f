import OData.Proofs.Text.Outside
import OData.Text.Quoted

/-! # Lists of quoted texts

A reader of a list cuts it at the commas, but for those in strings, and to know what is in a
string it looks at quotes alone: each quote ends a string or starts one.  A quote that is
written twice ends the string and starts it again, so the reader is where it was.  `Whole`
says of a text that it leaves the reader outside strings and has no comma there; a
list of such texts is cut where they were joined (`elements_intercalate`).
-/
namespace OData
namespace Text

/-! ## The reader -/

/-- Whether a string is open behind a character, which may be a quote. -/
def toggle (inside : Bool) (c : Char) : Bool := if c = '\'' then !inside else inside

/-- The pieces between the commas outside strings; `inside` tells whether a string is open
in front of the text. -/
def cutCommas : Bool → List Char → List (List Char)
  | _, [] => [[]]
  | inside, c :: s =>
    if inside = false ∧ c = ',' then [] :: cutCommas false s
    else (cutCommas (toggle inside c) s).modifyHead (c :: ·)

/-- The elements of a list; no text is a list without elements. -/
def elements (s : List Char) : List (List Char) := if s = [] then [] else cutCommas false s

/-- A text with one quote for each two in a row. -/
def halveQuotes : List Char → List Char
  | '\'' :: '\'' :: s => '\'' :: halveQuotes s
  | c :: s => c :: halveQuotes s
  | [] => []

/-- The content of a string: what stands between the outer quotes, with one quote for two. -/
def unquoted (s : List Char) : List Char := halveQuotes s.tail.dropLast

variable {s t : List Char} {c : Char} {pieces : List (List Char)}

theorem halveQuotes_cons (h : c ≠ '\'') (s : List Char) :
    halveQuotes (c :: s) = c :: halveQuotes s := by
  rw [halveQuotes]
  rintro t rfl
  exact absurd rfl h

theorem halveQuotes_doubleQuotes (s : List Char) : halveQuotes (doubleQuotes s) = s := by
  induction s with
  | nil => rfl
  | cons c s ih =>
    rw [doubleQuotes]
    split
    · next hc => rw [halveQuotes, ih, hc]
    · next hc => rw [halveQuotes_cons hc, ih]

/-- A quoted text gives its content back. -/
theorem unquoted_quoted (s : String) : unquoted (quoted s).toList = s.toList := by
  rw [toList_quoted, unquoted, List.tail_cons, List.dropLast_concat, halveQuotes_doubleQuotes]

/-! ## Texts that leave the reader outside -/

/-- Whether a string is open behind a text, which has no comma outside strings. -/
def behind? (inside : Bool) (s : List Char) : Option Bool :=
  s.foldlM (fun inside c => if inside = false ∧ c = ',' then none else some (toggle inside c)) inside

theorem behind?_eq_keeps? (inside : Bool) (s : List Char) :
    behind? inside s = keeps? '\'' ',' inside s := rfl

/-- The text closes its strings and has no comma outside them. -/
def Whole (s : List Char) : Prop := behind? false s = some false

theorem Whole.append (hs : Whole s) (ht : Whole t) : Whole (s ++ t) := by
  rw [Whole, behind?_eq_keeps?, keeps?_append, ← behind?_eq_keeps?, hs]
  exact ht

theorem whole_of_plain (hquote : '\'' ∉ s) (hcomma : ',' ∉ s) : Whole s :=
  keeps?_of_plain hquote hcomma

theorem doubleQuotes_eq_flatMap (s : List Char) :
    doubleQuotes s = s.flatMap fun c => if c = '\'' then ['\'', '\''] else [c] := by
  induction s with
  | nil => rfl
  | cons c s ih =>
    rw [doubleQuotes, List.flatMap_cons, ih]
    split <;> rfl

/-- A quoted text is whole, whatever stands in it. -/
theorem whole_quoted (s : String) : Whole (quoted s).toList := by
  have hopen : openBehind '\'' false '\'' = true := rfl
  rw [toList_quoted, Whole, behind?_eq_keeps?, keeps?_cons, if_neg (by simp), hopen,
    keeps?_append, doubleQuotes_eq_flatMap, keeps?_doubled (by decide)]
  rfl

/-! ## Cutting where texts were joined -/

theorem cutCommas_eq_cutOutside (inside : Bool) (s : List Char) :
    cutCommas inside s = cutOutside '\'' ',' inside s := by
  induction s generalizing inside with
  | nil => rfl
  | cons c s ih =>
    rw [cutCommas, cutOutside, ih, ih]
    rfl

theorem elements_intercalate (h : ∀ p ∈ pieces, Whole p ∧ p ≠ []) :
    elements ([','].intercalate pieces) = pieces := by
  cases pieces with
  | nil => rfl
  | cons p pieces =>
    have hne : [','].intercalate (p :: pieces) ≠ [] := by
      cases pieces with
      | nil => simpa using (h p (by simp)).2
      | cons q pieces => simp [List.intercalate_cons_cons]
    rw [elements, if_neg hne, cutCommas_eq_cutOutside,
      cutOutside_intercalate (by simp) fun p hp => (h p hp).1]

end Text
end OData
