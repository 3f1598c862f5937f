import OData.Text.Split

/-! # Styled text

A terminal shows a text in a style when a sequence that names the style stands in
front of it, and goes back to plain text at the reset behind it.
-/
namespace OData

/-- How a terminal shows a text. -/
inductive Style where
  | bold | dimmed | red | green | yellow | cyan | brightRed | brightGreen | brightYellow
  deriving DecidableEq, Repr

namespace Style

/-- The number of a style in its sequence. -/
def code : Style → String
  | bold => "1"
  | dimmed => "2"
  | red => "31"
  | green => "32"
  | yellow => "33"
  | cyan => "36"
  | brightRed => "91"
  | brightGreen => "92"
  | brightYellow => "93"

/-- The sequence that turns a style on. -/
def start (s : Style) : List Char := ('\x1b' :: '[' :: s.code.toList) ++ ['m']

/-- The sequence that turns every style off. -/
def reset : List Char := ['\x1b', '[', '0', 'm']

/-- A text in a style.  The style is turned on again behind every reset inside the
text. -/
def paint (s : Style) (text : String) : String :=
  let pieces := Text.splitOn '\x1b' ['[', '0', 'm'] text.toList
  String.ofList (s.start ++ (reset ++ s.start).intercalate pieces ++ reset)

end Style
end OData
