import OData.NameMap
import OData.Text.Blank
import OData.Text.Casing
import OData.Text.Split

/-! # Headers

Header names mean the same in any case, but a map of headers tells them apart by
their exact text.  Look-ups that must not do so ask for the first name, in the
order of the map, that is the same but for case.
-/
namespace OData

/-- Headers of a request or of a response. -/
abbrev Headers := NameMap String

namespace Headers

/-- The first entry whose name is `name` but for case. -/
def entryIgnoringCase? (h : Headers) (name : String) : Option (String × String) :=
  h.entries.find? fun e => sameIgnoringCase e.1 name

/-- The value of the first header whose name is `name` but for case. -/
def getIgnoringCase? (h : Headers) (name : String) : Option String :=
  (h.entryIgnoringCase? name).map Prod.snd

/-- Whether a header has the name `name` but for case. -/
def hasIgnoringCase (h : Headers) (name : String) : Bool := (h.entryIgnoringCase? name).isSome

/-- Adds a preference: to the `Prefer` header that is there, or as a new one. -/
def prefer (h : Headers) (preference : String) : Headers :=
  match h.entryIgnoringCase? "Prefer" with
  | some (name, value) => h.insert name (value ++ "," ++ preference)
  | none => h.insert "Prefer" preference

/-- The header that a line gives: a name in lower case, a colon and a value. -/
def ofLine? (line : List Char) : Option (String × String) :=
  (Text.cutFirst? ':' line).map fun p =>
    (String.ofList (Text.asciiLower (Text.trim p.1)), String.ofList (Text.trim p.2))

/-- The headers in the lines of a block; lines without a colon are passed over,
and of several lines for one name the last counts. -/
def ofBlock (block : List Char) : Headers :=
  NameMap.ofList ((Text.lines block).filterMap ofLine?)

/-- The headers under lower-case names. -/
def lowerNames (h : Headers) : Headers :=
  NameMap.ofList (h.entries.map fun e => (lowercased e.1, e.2))

end Headers
end OData
