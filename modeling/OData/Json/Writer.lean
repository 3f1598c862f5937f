import OData.Json.Number

/-! # Writing JSON

Compact texts have no white space.  Pretty texts have a line for each item and
member, indented by two spaces for each array and object around it.  Quotes,
backslashes and the control characters below the space are escaped; all other
characters stand for themselves.
-/
namespace OData
namespace Json

/-- What stands for one character of a string. -/
def writeChar (c : Char) : List Char :=
  match c with
  | '"' => ['\\', '"']
  | '\\' => ['\\', '\\']
  | '\x08' => ['\\', 'b']
  | '\x0c' => ['\\', 'f']
  | '\n' => ['\\', 'n']
  | '\r' => ['\\', 'r']
  | '\t' => ['\\', 't']
  | c =>
    if c.toNat < 0x20 then
      ['\\', 'u', '0', '0', Text.hexDigit (c.toNat / 16), Text.hexDigit (c.toNat % 16)]
    else [c]

/-- A string with its quotes. -/
def writeText (s : String) : List Char := '"' :: (s.toList.flatMap writeChar ++ ['"'])

mutual

/-- The compact text of a value. -/
def write : Json → List Char
  | null => ['n', 'u', 'l', 'l']
  | bool true => ['t', 'r', 'u', 'e']
  | bool false => ['f', 'a', 'l', 's', 'e']
  | int n => writeInt n
  | double d => writeDouble d
  | text s => writeText s
  | array items => '[' :: writeItems items
  | object members => '{' :: writeMembers members
termination_by structural j => j

/-- Items up to the closing bracket. -/
def writeItems : List Json → List Char
  | [] => [']']
  | [j] => write j ++ [']']
  | j :: js => write j ++ ',' :: writeItems js
termination_by structural js => js

/-- Members up to the closing brace. -/
def writeMembers : List (String × Json) → List Char
  | [] => ['}']
  | [(n, j)] => writeText n ++ ':' :: (write j ++ ['}'])
  | (n, j) :: ms => writeText n ++ ':' :: (write j ++ ',' :: writeMembers ms)
termination_by structural ms => ms

end

/-- A line break and the indentation of the line that follows. -/
def newLine (indent : Nat) : List Char := '\n' :: List.replicate (2 * indent) ' '

mutual

/-- The pretty text of a value inside `indent` arrays and objects. -/
def writePretty (indent : Nat) : Json → List Char
  | array [] => ['[', ']']
  | array items => '[' :: writePrettyItems indent items
  | object [] => ['{', '}']
  | object members => '{' :: writePrettyMembers indent members
  | j => write j
termination_by structural j => j

/-- Items up to the closing bracket, each on a line of its own. -/
def writePrettyItems (indent : Nat) : List Json → List Char
  | [] => newLine indent ++ [']']
  | j :: js =>
    newLine (indent + 1) ++ writePretty (indent + 1) j ++
      (if js.isEmpty then [] else [',']) ++ writePrettyItems indent js
termination_by structural js => js

/-- Members up to the closing brace, each on a line of its own. -/
def writePrettyMembers (indent : Nat) : List (String × Json) → List Char
  | [] => newLine indent ++ ['}']
  | (n, j) :: ms =>
    newLine (indent + 1) ++ writeText n ++ ':' :: ' ' :: writePretty (indent + 1) j ++
      (if ms.isEmpty then [] else [',']) ++ writePrettyMembers indent ms
termination_by structural ms => ms

end

/-- The compact text of a value. -/
def compact (j : Json) : String := String.ofList j.write

/-- The pretty text of a value. -/
def pretty (j : Json) : String := String.ofList (j.writePretty 0)

end Json
end OData
