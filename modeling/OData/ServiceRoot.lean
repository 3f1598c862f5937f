import OData.Session

/-! # The root of a service

Requests name resources below the root of the service.  Before such a request is
sent, its URL is made absolute; a request with a header that cannot be written is
not sent.
-/
namespace OData
namespace ServiceRoot

/-- A path below a root, with one slash between the two. -/
def join (root path : String) : String :=
  String.ofList (Text.dropEndWhile (· == '/') root.toList) ++ "/" ++
    String.ofList (path.toList.dropWhile (· == '/'))

/-- Whether a URL says by itself where its service is. -/
def isAbsolute (url : String) : Bool :=
  "http://".toList.isPrefixOf url.toList || "https://".toList.isPrefixOf url.toList

/-- The absolute URL that a URL stands for. -/
def resolve (root : Option String) (url : String) : Except Failure String :=
  if isAbsolute url then .ok url
  else
    match root with
    | some root => .ok (join root url)
    | none => .error (.configuration s!"relative URL '{url}' requires a base_url")

/-- A character that the name of a header may have. -/
def isNameChar (c : Char) : Bool := c.isAlphanum || "!#$%&'*+-.^_`|~".toList.contains c

/-- A character that the value of a header may have. -/
def isValueChar (c : Char) : Bool := c == '\t' || (' ' ≤ c && c != '\x7f')

/-- Whether a header can be written. -/
def isWritable (header : String × String) : Bool :=
  !header.1.isEmpty && header.1.all isNameChar && header.2.all isValueChar

/-- The sender that sends to absolute URLs. -/
def sender (root : Option String) (inner : Sender) : Sender := fun request => do
  match resolve root request.url with
  | .error failure => throw (.failed failure)
  | .ok url =>
    if request.headers.entries.all isWritable then inner { request with url }
    else throw (.failed (.transport "a header cannot be written"))

end ServiceRoot
end OData
