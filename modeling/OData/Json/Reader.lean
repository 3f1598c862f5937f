import OData.Json.Number

/-! # Reading JSON

A text is read by descent through its values.  How deep arrays and objects may
lie inside each other is the argument on which the reader recurses, and the
members of one array or object are read in a loop bounded by the length of the
text.  `Json.readWritten?` keeps an object's members as they stand in the text,
and `Json.read?` gives the normal form.
-/
namespace OData
namespace Json

/-- A reader takes a value from the start of a text and leaves the rest. -/
abbrev Reader (α : Type) := List Char → Option (α × List Char)

/-- JSON's white space: space, tab, line feed and carriage return. -/
def isSpace (c : Char) : Bool := c == ' ' || c == '\t' || c == '\n' || c == '\r'

/-- The text without the white space in front. -/
def skipSpace (s : List Char) : List Char := s.dropWhile isSpace

/-! ## Strings -/

/-- The 16-bit unit that four hexadecimal digits stand for. -/
def unit? (a b c d : Char) : Option Nat := do
  let a ← Text.hexValue? a
  let b ← Text.hexValue? b
  let c ← Text.hexValue? c
  let d ← Text.hexValue? d
  return ((a * 16 + b) * 16 + c) * 16 + d

/-- The first unit of a pair. -/
def isLeading (n : Nat) : Bool := 0xd800 ≤ n && n ≤ 0xdbff

/-- The second unit of a pair. -/
def isTrailing (n : Nat) : Bool := 0xdc00 ≤ n && n ≤ 0xdfff

/-- The character that a pair of units stands for. -/
def pairChar (a b : Nat) : Char := Char.ofNat (0x10000 + (a - 0xd800) * 0x400 + (b - 0xdc00))

/-- The character that a letter behind a backslash stands for. -/
def escapeLetter? : Char → Option Char
  | '"' => some '"'
  | '\\' => some '\\'
  | '/' => some '/'
  | 'b' => some '\x08'
  | 'f' => some '\x0c'
  | 'n' => some '\n'
  | 'r' => some '\r'
  | 't' => some '\t'
  | _ => none

/-- One step of a string's text: a character, or an escaped 16-bit unit, which
may be half of a character. -/
inductive Piece where
  | char (c : Char)
  | unit (n : Nat)

/-- The pieces of a string up to its closing quote. -/
def pieces : Reader (List Piece)
  | [] => none
  | '"' :: s => some ([], s)
  | '\\' :: 'u' :: a :: b :: c :: d :: s =>
    match unit? a b c d with
    | none => none
    | some n => (pieces s).map fun (ps, r) => (.unit n :: ps, r)
  | '\\' :: c :: s =>
    match escapeLetter? c with
    | none => none
    | some x => (pieces s).map fun (ps, r) => (.char x :: ps, r)
  | c :: s =>
    if c.toNat < 0x20 ∨ c = '\\' then none
    else (pieces s).map fun (ps, r) => (.char c :: ps, r)
termination_by structural s => s

/-- The characters that pieces stand for.  Half of a character must have the
other half behind it. -/
def joinPieces : List Piece → Option (List Char)
  | [] => some []
  | .char c :: ps => (joinPieces ps).map (c :: ·)
  | .unit n :: .unit m :: ps =>
    if isLeading n then
      if isTrailing m then (joinPieces ps).map (pairChar n m :: ·) else none
    else if isTrailing n then none
    else (joinPieces (.unit m :: ps)).map (Char.ofNat n :: ·)
  | .unit n :: ps =>
    if isLeading n || isTrailing n then none else (joinPieces ps).map (Char.ofNat n :: ·)

/-- The characters of a string up to its closing quote. -/
def stringBody : Reader (List Char) := fun s => do
  let (ps, rest) ← pieces s
  let cs ← joinPieces ps
  return (cs, rest)

/-- A string with its quotes. -/
def string : Reader String
  | '"' :: s => (stringBody s).map fun (cs, r) => (String.ofList cs, r)
  | _ => none

/-! ## Arrays and objects -/

/-- Items between commas, at least one, up to the character `close`.  `rounds`
bounds their number. -/
def itemsUpTo {α : Type} (item : Reader α) (close : Char) : Nat → Reader (List α)
  | 0, _ => none
  | rounds + 1, s => do
    let (x, s) ← item (skipSpace s)
    match skipSpace s with
    | [] => none
    | c :: s =>
      if c = ',' then (itemsUpTo item close rounds s).map fun (xs, r) => (x :: xs, r)
      else if c = close then some ([x], s)
      else none

/-- Items between commas, perhaps none, up to the character `close`. -/
def sequence {α : Type} (item : Reader α) (close : Char) : Reader (List α) := fun s =>
  match skipSpace s with
  | [] => none
  | c :: rest => if c = close then some ([], rest) else itemsUpTo item close (s.length + 1) s

/-- The member of an object whose values `item` reads. -/
def member (item : Reader Json) : Reader (String × Json) := fun s => do
  let (name, s) ← string s
  match skipSpace s with
  | ':' :: s => (item (skipSpace s)).map fun (j, r) => ((name, j), r)
  | _ => none

/-- A value that is no array and no object, or what `openArray` or
`openObject` makes of the text behind an opening bracket. -/
def valueWith (openArray openObject : Reader Json) : Reader Json := fun s =>
  match s with
  | 'n' :: 'u' :: 'l' :: 'l' :: r => some (.null, r)
  | 't' :: 'r' :: 'u' :: 'e' :: r => some (.bool true, r)
  | 'f' :: 'a' :: 'l' :: 's' :: 'e' :: r => some (.bool false, r)
  | '"' :: _ => (string s).map fun (t, r) => (.text t, r)
  | '[' :: r => openArray r
  | '{' :: r => openObject r
  | _ => number s

/-- A value with at most `depth` arrays and objects around any part of it. -/
def value : Nat → Reader Json
  | 0 => valueWith (fun _ => none) (fun _ => none)
  | depth + 1 =>
    valueWith
      (fun s => (sequence (value depth) ']' s).map fun (js, r) => (.array js, r))
      (fun s => (sequence (member (value depth)) '}' s).map fun (ms, r) => (.object ms, r))

/-- How deep arrays and objects may lie inside each other. -/
def greatestDepth : Nat := 127

/-- The value that a text stands for, with the members of its objects as they
were written. -/
def readWritten? (s : String) : Option Json := do
  let (j, rest) ← value greatestDepth (skipSpace s.toList)
  guard (skipSpace rest).isEmpty
  return j

/-- The value that a text stands for, in normal form. -/
def read? (s : String) : Option Json := (readWritten? s).map normal

end Json
end OData
