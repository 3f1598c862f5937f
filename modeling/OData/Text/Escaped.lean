import OData.Text.Digits
import OData.Text.Visible

/-! # Escaped texts

A diagnostic shows a text between double quotes, with the quote and the
backslash behind a backslash, four control characters by letter and every other
hidden character by its code point.
-/
namespace OData
namespace Text

/-- What stands for one character between the quotes. -/
def escapedChar (c : Char) : List Char :=
  match c with
  | '"' => ['\\', '"']
  | '\\' => ['\\', '\\']
  | '\t' => ['\\', 't']
  | '\r' => ['\\', 'r']
  | '\n' => ['\\', 'n']
  | '\x00' => ['\\', '0']
  | c =>
    if isVisible c then [c]
    else ['\\', 'u', '\x7b'] ++ Nat.toDigits 16 c.toNat ++ ['\x7d']

end Text

/-- The text between quotes with its special characters escaped. -/
def escaped (s : String) : String :=
  "\"" ++ String.ofList (s.toList.flatMap Text.escapedChar) ++ "\""

end OData
