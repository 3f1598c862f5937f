/-! # White space

The class of white space used throughout this library is the Unicode property
`White_Space`.  This module tells such characters apart, trims them from the
ends of a text and cuts a text into the words between them.
-/
namespace OData
namespace Text

/-- White space, as the Unicode property `White_Space` lists it. -/
def isBlank (c : Char) : Bool :=
  let n := c.toNat
  (0x9 ≤ n && n ≤ 0xd) || n == 0x20 || n == 0x85 || n == 0xa0 || n == 0x1680 ||
    (0x2000 ≤ n && n ≤ 0x200a) || n == 0x2028 || n == 0x2029 || n == 0x202f ||
    n == 0x205f || n == 0x3000

/-- A text of white space only; the empty text is one. -/
def allBlank (s : List Char) : Bool := s.all isBlank

/-- Drops the characters at the end of `s` that satisfy `p`. -/
def dropEndWhile (p : Char → Bool) (s : List Char) : List Char :=
  (s.reverse.dropWhile p).reverse

/-- Drops the characters at both ends of `s` that satisfy `p`. -/
def dropAround (p : Char → Bool) (s : List Char) : List Char :=
  dropEndWhile p (s.dropWhile p)

/-- A text without the white space at its ends. -/
def trim (s : List Char) : List Char := dropAround isBlank s

/-- The maximal runs of characters that are not white space. -/
def words (s : List Char) : List (List Char) :=
  go [] s
where
  /-- Collects the words of a text after the letters `word`, which stand in
  reverse order. -/
  go (word : List Char) : List Char → List (List Char)
    | [] => if word.isEmpty then [] else [word.reverse]
    | c :: rest =>
      if isBlank c then
        if word.isEmpty then go [] rest else word.reverse :: go [] rest
      else go (c :: word) rest

@[simp] theorem allBlank_nil : allBlank [] = true := rfl

@[simp] theorem dropEndWhile_nil (p : Char → Bool) : dropEndWhile p [] = [] := rfl

theorem dropEndWhile_concat (p : Char → Bool) (s : List Char) (c : Char) :
    dropEndWhile p (s ++ [c]) = if p c then dropEndWhile p s else s ++ [c] := by
  unfold dropEndWhile
  rw [List.reverse_append, List.reverse_singleton, List.singleton_append, List.dropWhile_cons]
  split <;> simp

theorem length_dropEndWhile_le (p : Char → Bool) (s : List Char) :
    (dropEndWhile p s).length ≤ s.length := by
  unfold dropEndWhile
  simpa using (List.dropWhile_sublist p (l := s.reverse)).length_le

end Text

/-- The text without the white space at its ends. -/
def trimmed (s : String) : String := String.ofList (Text.trim s.toList)

/-- Nothing but white space. -/
def blank (s : String) : Bool := Text.allBlank s.toList

end OData
