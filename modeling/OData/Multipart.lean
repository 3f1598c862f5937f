import OData.Headers

/-! # Multipart bodies

A multipart body is cut at every occurrence of its delimiter, which is two
hyphens and the boundary.  A part may be a multipart body again, under a boundary
that its own headers name; the other parts are the leaves.  The content of a part
is shorter than the body it stands in, so collecting the leaves ends whatever
boundaries the parts name.
-/
namespace OData
namespace Multipart

/-! ## The boundary of a content type -/

/-- The value of the parameter `boundary`, if the text starts with it. -/
def parameterAt? (s : List Char) : Option (List Char) :=
  if Text.asciiLower (s.take 8) = "boundary".toList then
    match (s.drop 8).dropWhile Text.isBlank with
    | '=' :: rest =>
      let rest := match rest.dropWhile Text.isBlank with
        | '"' :: rest => rest
        | rest => rest
      match rest.takeWhile fun c => c != '"' && c != ';' && !Text.isBlank c with
      | [] => none
      | value => some value
    | _ => none
  else none

/-- The boundary that a content type names. -/
def boundary? : List Char → Option (List Char)
  | [] => none
  | c :: s =>
    match parameterAt? (c :: s) with
    | some value => some value
    | none => boundary? s

/-! ## Heads and bodies -/

/-- The parts of a text before and behind its first blank line.  A text without
one is a head alone, and one that starts with a line end has an empty head. -/
def splitHead (s : List Char) : List Char × List Char :=
  match s with
  | '\r' :: '\n' :: body => ([], body)
  | '\n' :: body => ([], body)
  | s =>
    match Text.cutAt? ['\r', '\n', '\r', '\n'] s, Text.cutAt? ['\n', '\n'] s with
    | some a, some b => if a.1.length ≤ b.1.length then a else b
    | some a, none => a
    | none, some b => b
    | none, none => (s, [])

theorem length_splitHead_le (s : List Char) : (splitHead s).2.length ≤ s.length := by
  unfold splitHead
  split
  · simp; omega
  · simp
  · split
    · next ha hb =>
      have h1 := Text.length_of_cutAt? ha
      have h2 := Text.length_of_cutAt? hb
      split <;> omega
    · next ha _ =>
      have h1 := Text.length_of_cutAt? ha
      omega
    · next hb =>
      have h1 := Text.length_of_cutAt? hb
      omega
    · simp

/-- A character that ends lines. -/
def isLineEnd (c : Char) : Bool := c == '\r' || c == '\n'

/-! ## Leaves -/

/-- A part that holds no other parts: its header lines, and what follows them. -/
structure Leaf where
  head : List Char
  content : List Char
  deriving DecidableEq, Repr

/-- The boundary of the parts inside a part, if its headers say that it has
some. -/
def innerBoundary? (head : List Char) : Option (List Char) := do
  let contentType ← (Headers.ofBlock head).get? "content-type"
  guard ("multipart/mixed".toList.isPrefixOf (Text.asciiLower contentType.toList))
  boundary? contentType.toList

/-- What a piece between delimiters comes to. -/
inductive Part where
  /-- A piece that is no part: what follows the last delimiter, or nothing but
  white space. -/
  | nothing
  | leaf (leaf : Leaf)
  /-- A body with parts under a boundary of its own. -/
  | body (boundary content : List Char)

/-- Reads a piece. -/
def Part.ofPiece (piece : List Char) : Part :=
  if ['-', '-'].isPrefixOf piece then .nothing
  else
    let part := piece.dropWhile isLineEnd
    if Text.allBlank part then .nothing
    else
      let (head, content) := splitHead part
      match innerBoundary? head with
      | some boundary => .body boundary content
      | none => if Text.allBlank content then .nothing else .leaf ⟨head, content⟩

theorem length_le_of_ofPiece {piece boundary content : List Char}
    (h : Part.ofPiece piece = .body boundary content) : content.length ≤ piece.length := by
  unfold Part.ofPiece at h
  split at h
  · cases h
  · dsimp only at h
    split at h
    · cases h
    · split at h
      · simp only [Part.body.injEq] at h
        rw [← h.2]
        exact Nat.le_trans (length_splitHead_le _) (List.dropWhile_sublist _).length_le
      · split at h <;> cases h

/-- The pieces of a body behind its delimiters. -/
def pieces (boundary body : List Char) : List (List Char) :=
  (Text.splitOn '-' ('-' :: boundary) body).tail

/-- The leaves of a body, in the order in which they stand there. -/
def leaves (boundary body : List Char) : List Leaf :=
  (pieces boundary body).attach.flatMap fun ⟨piece, _⟩ =>
    match _ : Part.ofPiece piece with
    | .nothing => []
    | .leaf leaf => [leaf]
    | .body inner content => leaves inner content
termination_by body.length
decreasing_by
  next hmem hpart =>
    exact Nat.lt_of_le_of_lt (length_le_of_ofPiece hpart)
      (Text.length_lt_of_mem_tail_splitOn hmem)

end Multipart
end OData
