import OData.Text.Percent
import OData.Text.Split

/-! # Request targets

The line that opens a request names the path and the query of its URL.  The
characters that may not stand there are percent-encoded, and what stands behind a
number sign is not sent.
-/
namespace OData
namespace Target

/-- A character that a path may hold as it is. -/
def isPathChar (c : Char) : Bool := ' ' < c && c < '\x7f' && !"\"<>\x60\x7b\x7d".toList.contains c

/-- A character that a query may hold as it is. -/
def isQueryChar (c : Char) : Bool := ' ' < c && c < '\x7f' && !"\"<>'".toList.contains c

/-- A path and the query behind it, as they are sent. -/
def encode (s : List Char) : List Char :=
  let sent := s.takeWhile (· != '#')
  (sent.takeWhile (· != '?')).flatMap (Text.percentUnless isPathChar) ++
    (sent.dropWhile (· != '?')).flatMap (Text.percentUnless isQueryChar)

/-- What follows the service's address in an absolute URL. -/
def behindAddress (url : List Char) : List Char :=
  match Text.cutAt? "://".toList url with
  | some (_, rest) => rest.dropWhile fun c => c != '/' && c != '?' && c != '#'
  | none => url

/-- The target of a request to an absolute URL.  It starts with a slash. -/
def ofUrl (url : String) : String :=
  match encode (behindAddress url.toList) with
  | '/' :: rest => String.ofList ('/' :: rest)
  | rest => String.ofList ('/' :: rest)

end Target
end OData
