import OData.Text.Digits

/-! # TOML strings

Text in quotes: with escapes between double quotes, as it stands between single
quotes, and over several lines between three of either.
-/
namespace OData
namespace Toml

def isBlank (c : Char) : Bool := c == ' ' || c == '\t'

/-- A character that may not stand in a document as it is. -/
def isControl (c : Char) : Bool := (c < ' ' && c != '\t') || c == '\x7f'

/-- A text without the line end it starts with. -/
def lineEnd? : List Char → Option (List Char)
  | '\n' :: s => some s
  | '\r' :: '\n' :: s => some s
  | _ => none

/-- The character that an escape of one letter stands for. -/
def letterEscape? : Char → Option Char
  | 'b' => some '\x08'
  | 't' => some '\t'
  | 'n' => some '\n'
  | 'f' => some '\x0c'
  | 'r' => some '\r'
  | 'e' => some '\x1b'
  | '"' => some '"'
  | '\\' => some '\\'
  | _ => none

/-- The character whose number the hexadecimal digits give. -/
def charOfHex? (digits : List Char) : Option Char := do
  let values ← digits.mapM Text.hexValue?
  let n := values.foldl (fun n d => n * 16 + d) 0
  guard (n.isValidChar)
  return Char.ofNat n

/-- How many hexadecimal digits follow an escape's letter. -/
def hexWidth? : Char → Option Nat
  | 'x' => some 2
  | 'u' => some 4
  | 'U' => some 8
  | _ => none

/-- The character of an escape, behind its backslash, and what follows it. -/
def escape? : List Char → Option (Char × List Char)
  | [] => none
  | c :: s =>
    match hexWidth? c with
    | some width =>
      if width ≤ s.length then (charOfHex? (s.take width)).map fun c => (c, s.drop width)
      else none
    | none => (letterEscape? c).map fun c => (c, s)

theorem length_of_escape {s rest : List Char} {c : Char} (h : escape? s = some (c, rest)) :
    rest.length < s.length := by
  cases s with
  | nil => simp [escape?] at h
  | cons a s =>
    simp only [escape?] at h
    split at h
    · split at h
      · obtain ⟨_, _, h⟩ := Option.map_eq_some_iff.mp h
        simp only [Prod.mk.injEq] at h
        rw [← h.2]
        simp only [List.length_drop, List.length_cons]
        omega
      · cases h
    · obtain ⟨_, _, h⟩ := Option.map_eq_some_iff.mp h
      simp only [Prod.mk.injEq] at h
      rw [← h.2]
      simp

/-- A text with escapes up to its closing quote, and what follows it. -/
def basic? (s : List Char) : Option (List Char × List Char) :=
  match s with
  | [] => none
  | '"' :: s => some ([], s)
  | '\\' :: s =>
    match _ : escape? s with
    | some (c, rest) => (basic? rest).map fun p => (c :: p.1, p.2)
    | none => none
  | c :: s => if isControl c then none else (basic? s).map fun p => (c :: p.1, p.2)
termination_by s.length
decreasing_by
  · next h => exact Nat.lt_succ_of_lt (length_of_escape h)
  · simp

/-- A text without escapes up to its closing quote, and what follows it. -/
def literal? : List Char → Option (List Char × List Char)
  | [] => none
  | c :: s =>
    if c = '\'' then some ([], s)
    else if isControl c then none
    else (literal? s).map fun p => (c :: p.1, p.2)

/-- The quotes at the start of a text that close a text of several lines: three,
and up to two in front of them that belong to it. -/
def closing? (quote : Char) (s : List Char) : Option (List Char × List Char) :=
  let quotes := (s.takeWhile (· == quote)).length
  if quotes < 3 then none
  else
    let inside := min quotes 5 - 3
    some (List.replicate inside quote, s.drop (inside + 3))

/-- A character of a text of several lines that needs no escape: a printable one,
or a line end. -/
def plainChar? : List Char → Option (List Char × List Char)
  | [] => none
  | '\r' :: '\n' :: s => some (['\r', '\n'], s)
  | c :: s => if isControl c && c != '\n' then none else some ([c], s)

theorem length_of_plainChar {s piece rest : List Char} (h : plainChar? s = some (piece, rest)) :
    rest.length < s.length := by
  unfold plainChar? at h
  split at h
  · cases h
  · simp only [Option.some.injEq, Prod.mk.injEq] at h
    rw [← h.2]
    simp only [List.length_cons]
    omega
  · split at h
    · cases h
    · simp only [Option.some.injEq, Prod.mk.injEq] at h
      rw [← h.2]
      simp

/-- A text with escapes over several lines.  A backslash at the end of a line takes
away the line end and the white space behind it. -/
def basicLines? (s : List Char) : Option (List Char × List Char) :=
  match closing? '"' s with
  | some done => some done
  | none =>
    match s with
    | [] => none
    | '\\' :: s =>
      match lineEnd? (s.dropWhile isBlank) with
      | some _ => basicLines? (s.dropWhile fun c => isBlank c || c == '\n' || c == '\r')
      | none =>
        match _ : escape? s with
        | some (c, rest) => (basicLines? rest).map fun p => (c :: p.1, p.2)
        | none => none
    | c :: s =>
      match _ : plainChar? (c :: s) with
      | some (piece, rest) => (basicLines? rest).map fun p => (piece ++ p.1, p.2)
      | none => none
termination_by s.length
decreasing_by
  · exact Nat.lt_succ_of_le (List.dropWhile_sublist _).length_le
  · next h => exact Nat.lt_succ_of_lt (length_of_escape h)
  · next h => exact length_of_plainChar h

/-- A text without escapes over several lines. -/
def literalLines? (s : List Char) : Option (List Char × List Char) :=
  match closing? '\'' s with
  | some done => some done
  | none =>
    match _ : plainChar? s with
    | some (piece, rest) => (literalLines? rest).map fun p => (piece ++ p.1, p.2)
    | none => none
termination_by s.length
decreasing_by
  next h => exact length_of_plainChar h

/-- The text in quotes at the start of a text, and what follows it.  A text over
several lines does not have the line end it starts with. -/
def quoted? : List Char → Option (List Char × List Char)
  | '"' :: '"' :: '"' :: s => basicLines? ((lineEnd? s).getD s)
  | '"' :: s => basic? s
  | '\'' :: '\'' :: '\'' :: s => literalLines? ((lineEnd? s).getD s)
  | '\'' :: s => literal? s
  | _ => none

end Toml
end OData
