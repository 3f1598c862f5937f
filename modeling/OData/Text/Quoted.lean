/-! # Quoted texts

A string literal stands between single quotes, and a quote inside it is written
twice.
-/
namespace OData
namespace Text

/-- A text with every single quote written twice. -/
def doubleQuotes : List Char → List Char
  | [] => []
  | c :: s => if c = '\'' then '\'' :: '\'' :: doubleQuotes s else c :: doubleQuotes s

@[simp] theorem doubleQuotes_nil : doubleQuotes [] = [] := rfl

@[simp] theorem doubleQuotes_append (s t : List Char) :
    doubleQuotes (s ++ t) = doubleQuotes s ++ doubleQuotes t := by
  induction s with
  | nil => rfl
  | cons c s ih => by_cases h : c = '\'' <;> simp [doubleQuotes, h, ih]

end Text

/-- The text as a string literal. -/
def quoted (s : String) : String :=
  "'" ++ String.ofList (Text.doubleQuotes s.toList) ++ "'"

theorem toList_quoted (s : String) :
    (quoted s).toList = '\'' :: (Text.doubleQuotes s.toList ++ ['\'']) := by
  simp [quoted]

end OData
