import OData.Toml
import OData.Toml.Quoted
import OData.Toml.Scalar

/-! # Reading TOML

A document is a list of lines: assignments of values to keys, and headers that
say which table the assignments behind them go to.  Reading gives the document's
table as a JSON object.
-/
namespace OData
namespace Toml

/-! ## Blanks and comments -/

/-- A comment up to the end of its line, and what follows it. -/
def skipComment : List Char → Option (List Char)
  | '#' :: s =>
    let text := s.takeWhile fun c => c != '\n' && c != '\r'
    if text.any isControl then none else some (s.drop text.length)
  | s => some s

/-- What follows the end of a line, which blanks and a comment may precede. -/
def endOfLine? (s : List Char) : Option (List Char) := do
  match ← skipComment (s.dropWhile isBlank) with
  | [] => some []
  | s => lineEnd? s

/-- What follows blanks, line ends and comments, at most `lines` of them. -/
def skipLines : Nat → List Char → Option (List Char)
  | 0, s => some s
  | lines + 1, s => do
    let s ← skipComment (s.dropWhile isBlank)
    match lineEnd? s with
    | some s => skipLines lines s
    | none => some s

/-- What follows all blanks, line ends and comments. -/
def skipSpace (s : List Char) : Option (List Char) := skipLines (s.length + 1) s

/-! ## Keys -/

def isKeyChar (c : Char) : Bool := c.isAlphanum || c == '_' || c == '-'

/-- A name between the dots of a key, and what follows it. -/
def name? (s : List Char) : Option (String × List Char) :=
  match s with
  | '"' :: s => (basic? s).map fun p => (String.ofList p.1, p.2)
  | '\'' :: s => (literal? s).map fun p => (String.ofList p.1, p.2)
  | s =>
    let word := s.takeWhile isKeyChar
    if word.isEmpty then none else some (String.ofList word, s.drop word.length)

/-- A key with at most `dots` dots, and what follows it. -/
def keyWithin? : Nat → List Char → Option (List String × List Char)
  | 0, _ => none
  | dots + 1, s => do
    let (name, s) ← name? (s.dropWhile isBlank)
    match s.dropWhile isBlank with
    | '.' :: s =>
      let (path, s) ← keyWithin? dots s
      return (name :: path, s)
    | s => return ([name], s)

/-- The key at the start of a text, and what follows it and the blanks behind it. -/
def key? (s : List Char) : Option (List String × List Char) := keyWithin? (s.length + 1) s

/-! ## Values -/

mutual

/-- The value at the start of a text, and what follows it.  `depth` bounds the
values that remain to be read. -/
def value? : Nat → List Char → Option (Json × List Char)
  | 0, _ => none
  | depth + 1, s =>
    match s with
    | '[' :: s => items? depth s
    | '\x7b' :: s => members? depth s []
    | '"' :: _ | '\'' :: _ => (quoted? s).map fun p => (.text (String.ofList p.1), p.2)
    | s =>
      let (word, rest) := scalarFirst s
      (scalar? word).map fun j => (j, rest)

/-- The items of an array up to its closing bracket. -/
def items? : Nat → List Char → Option (Json × List Char)
  | 0, _ => none
  | depth + 1, s => do
    match ← skipSpace s with
    | ']' :: s => return (.array [], s)
    | s =>
      let (j, s) ← value? depth s
      match ← skipSpace s with
      | ',' :: s =>
        match ← items? depth s with
        | (.array js, s) => return (.array (j :: js), s)
        | _ => none
      | ']' :: s => return (.array [j], s)
      | _ => none

/-- The members of a table in braces up to the closing one. -/
def members? : Nat → List Char → Entries → Option (Json × List Char)
  | 0, _, _ => none
  | depth + 1, s, t => do
    match ← skipSpace s with
    | '\x7d' :: s => return (.object (membersOf t), s)
    | s =>
      let (path, s) ← key? s
      match s with
      | '=' :: s =>
        let (j, s) ← value? depth (s.dropWhile isBlank)
        let t ← assign j path t
        match ← skipSpace s with
        | ',' :: s => members? depth s t
        | '\x7d' :: s => return (.object (membersOf t), s)
        | _ => none
      | _ => none

end

/-! ## Documents -/

/-- The document read so far, and the table that assignments go to. -/
structure Document where
  entries : Entries
  current : List String

namespace Document

def empty : Document := ⟨[], []⟩

/-- Goes on in the table that a header names. -/
def enter (d : Document) (path : List String) (make : String → Entries → Option Entries) :
    Option Document := do
  let name ← path.getLast?
  let entries ← alterAt (make name) path.dropLast d.entries
  return ⟨entries, path⟩

/-- Assigns a value in the current table. -/
def put (d : Document) (path : List String) (value : Json) : Option Document := do
  let entries ← alterAt (assign value path) d.current d.entries
  return { d with entries }

/-- Reads a line that is a header or an assignment; gives what follows it too. -/
def readLine (d : Document) (s : List Char) : Option (Document × List Char) := do
  match s with
  | '[' :: '[' :: s =>
    match ← key? s with
    | (path, ']' :: ']' :: s) => return (← d.enter path addTable, ← endOfLine? s)
    | _ => none
  | '[' :: s =>
    match ← key? s with
    | (path, ']' :: s) => return (← d.enter path giveHeader, ← endOfLine? s)
    | _ => none
  | s =>
    match ← key? s with
    | (path, '=' :: s) =>
      let (j, s) ← value? (s.length + 1) (s.dropWhile isBlank)
      return (← d.put path j, ← endOfLine? s)
    | _ => none

/-- Reads a document to its end, in at most `lines` lines. -/
def readLines : Nat → Document → List Char → Option Document
  | 0, _, _ => none
  | lines + 1, d, s => do
    match (← skipSpace s).dropWhile isBlank with
    | [] => return d
    | s =>
      let (d, s) ← d.readLine s
      readLines lines d s

end Document

/-- The table of a document, if it can be read.  A byte order mark may stand in
front. -/
def read? (text : String) : Option Json := do
  let s := match text.toList with
    | '\ufeff' :: s => s
    | s => s
  let d ← Document.empty.readLines (s.length + 1) s
  return .object (membersOf d.entries)

end Toml
end OData
