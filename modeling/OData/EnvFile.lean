import OData.NameMap
import OData.Text.Blank

/-! # Files of environment variables

A file `.env` has a variable on each line, as a name, an equals sign and a value.
Parts of a value may stand in quotes; outside single quotes a backslash takes the
meaning from the character behind it, and a dollar sign stands in front of the
name of a variable.  Variables that are set already keep their values.
-/
namespace OData
namespace EnvFile

/-! ## Lines

A line goes on behind its end while a quote is open. -/

/-- What a line is in the middle of. -/
inductive Quoting where
  | plain
  /-- Behind a white space, where a comment may begin. -/
  | gap
  | escape
  | weak
  | weakEscape
  | strong
  | strongEscape
  deriving DecidableEq, Repr

/-- The quoting behind one more character. -/
def Quoting.next : Quoting → Char → Quoting
  | plain, c =>
    if Text.isBlank c && c != '\n' && c != '\r' then gap
    else match c with
      | '\\' => escape
      | '"' => weak
      | '\'' => strong
      | _ => plain
  | gap, c =>
    match c with
    | '\\' => escape
    | '"' => weak
    | '\'' => strong
    | _ => plain
  | escape, _ => plain
  | weak, c => if c = '\\' then weakEscape else if c = '"' then plain else weak
  | weakEscape, _ => weak
  | strong, c => if c = '\\' then strongEscape else if c = '\'' then plain else strong
  | strongEscape, _ => strong

/-- The part of a line in front of a comment, and the quoting at its end. -/
def scan (q : Quoting) : List Char → List Char × Quoting
  | [] => ([], q)
  | c :: s =>
    if q = .gap ∧ c = '#' then ([], .plain)
    else
      let (s, q) := scan (q.next c) s
      (c :: s, q)

/-- Whether a line may end where the quoting is so. -/
def Quoting.isClosed (q : Quoting) : Bool := q == .plain || q == .gap

/-- A line that holds nothing but a comment. -/
def isComment (line : List Char) : Bool := (line.dropWhile Text.isBlank).head? == some '#'

/-- The lines of a file with their ends. -/
def physicalLines (s : List Char) : List (List Char) :=
  let pieces := s.splitOn '\n'
  pieces.dropLast.map (· ++ ['\n']) ++ (pieces.getLast?.filter (!·.isEmpty)).toList

/-- The lines of a file with those joined that an open quote holds together;
`held` is what was read of such a line.  The last one is `none` if its quote stays
open. -/
def joinLines (held : List Char) (q : Quoting) : List (List Char) → List (Option (List Char))
  | [] => if held.isEmpty then [] else [none]
  | line :: lines =>
    if isComment (held ++ line) then some [] :: joinLines [] .plain lines
    else
      let (part, q) := scan q line
      if q.isClosed then some (held ++ part) :: joinLines [] .plain lines
      else joinLines (held ++ part) q lines

/-! ## Values -/

/-- What a value is in the middle of. -/
inductive Reading where
  | plain
  | weak
  | strong
  /-- Behind the value, where only blanks and a comment may stand. -/
  | behind
  deriving DecidableEq, Repr

/-- The value of a variable, nothing if it is not set. -/
def valueOf (env : NameMap String) (name : List Char) : List Char :=
  ((env.get? (String.ofList name)).getD "").toList

/-- The character that a backslash in front of a character stands for. -/
def escaped? : Char → Option Char
  | 'n' => some '\n'
  | c => if "\\'\"$ ".toList.contains c then some c else none

/-- A character that a name behind a dollar sign goes on with: a digit, a letter, or
any character outside ASCII. -/
def isNameChar (c : Char) : Bool := c.isAlphanum || 128 ≤ c.toNat

/-- How a name behind a dollar sign is written. -/
inductive Naming where
  | bare
  | braced
  deriving DecidableEq, Repr

/-- Reads a value.  `naming` is there while the name of a variable is read, of which
`name` is known. -/
def value? (env : NameMap String) (r : Reading) (naming : Option Naming) (name : List Char) :
    List Char → Option (List Char)
  | [] =>
    if naming = some .braced ∨ r = .weak ∨ r = .strong then none else some (valueOf env name)
  | c :: s =>
    match naming with
    | some .braced =>
      if c = '\x7d' then (value? env r none [] s).map (valueOf env name ++ ·)
      else value? env r naming (name ++ [c]) s
    | some .bare =>
      if isNameChar c then value? env r naming (name ++ [c]) s
      else if c = '\x7b' ∧ name = [] then value? env r (some .braced) [] s
      else if c = '$' then (value? env r (some .bare) [] s).map (valueOf env name ++ ·)
      else (value? env r none [] s).map (valueOf env name ++ c :: ·)
    | none =>
      match r with
      | .behind =>
        if c = ' ' ∨ c = '\t' then value? env .behind none [] s
        else if c = '#' then some []
        else none
      | .strong =>
        if c = '\'' then value? env .plain none [] s
        else (value? env .strong none [] s).map (c :: ·)
      | .weak =>
        match c, s with
        | '$', s => value? env .weak (some .bare) [] s
        | '"', s => value? env .plain none [] s
        | '\\', e :: s => do
          let e ← escaped? e
          let v ← value? env .weak none [] s
          return e :: v
        | '\\', [] => none
        | c, s => (value? env .weak none [] s).map (c :: ·)
      | .plain =>
        match c, s with
        | '$', s => value? env .plain (some .bare) [] s
        | '\'', s => value? env .strong none [] s
        | '"', s => value? env .weak none [] s
        | '\\', e :: s => do
          let e ← escaped? e
          let v ← value? env .plain none [] s
          return e :: v
        | '\\', [] => some []
        | c, s =>
          if c = ' ' ∨ c = '\t' then value? env .behind none [] s
          else (value? env .plain none [] s).map (c :: ·)

/-! ## Variables -/

/-- The name at the start of a line, and what follows it. -/
def name? (s : List Char) : Option (List Char × List Char) := do
  let c ← s.head?
  guard (c.isAlpha || c == '_')
  let name := s.takeWhile fun c => c.isAlphanum || c == '_' || c == '.'
  return (name, s.drop name.length)

/-- What follows an equals sign, in front of which white space may stand. -/
def behindEquals? (s : List Char) : Option (List Char) :=
  match s.dropWhile Text.isBlank with
  | '=' :: s => some (s.dropWhile Text.isBlank)
  | _ => none

/-- The name and the text of the value on a line.  The word `export` may stand in
front. -/
def assignment? (s : List Char) : Option (List Char × List Char) := do
  let (name, rest) ← name? s
  match behindEquals? rest with
  | some value => return (name, value)
  | none =>
    guard (name = "export".toList)
    let (name, rest) ← name? (rest.dropWhile Text.isBlank)
    return (name, ← behindEquals? rest)

/-- What a line comes to: nothing, or a variable and its value; `none` if it
cannot be read. -/
def entry? (env : NameMap String) (line : List Char) : Option (Option (String × String)) := do
  let s := (Text.dropEndWhile Text.isBlank line).dropWhile Text.isBlank
  if s.isEmpty || s.head? = some '#' then return none
  let (name, text) ← assignment? s
  if text.isEmpty || text.head? = some '#' then return some (String.ofList name, "")
  let value ← value? env .plain none [] text
  return some (String.ofList name, String.ofList value)

/-- Sets the variables of some lines, up to the first line that cannot be read. -/
def loadLines (env : NameMap String) : List (Option (List Char)) → NameMap String
  | [] => env
  | none :: _ => env
  | some line :: lines =>
    match entry? env line with
    | none => env
    | some none => loadLines env lines
    | some (some (name, value)) =>
      loadLines (if (env.get? name).isSome then env else env.insert name value) lines

/-- The environment with the variables of a file. -/
def load (env : NameMap String) (text : String) : NameMap String :=
  let s := match text.toList with
    | '\ufeff' :: s => s
    | s => s
  loadLines env (joinLines [] .plain (physicalLines s))

end EnvFile
end OData
