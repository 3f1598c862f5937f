import OData.Batch

/-! # Batch requests

A batch is sent as a multipart body with one part for each operation and for each
change set that is not empty.  The part of a change set is a multipart body
again.  The part of an operation names it by its id and holds its request.
-/
namespace OData

/-- The body of a batch request, and the boundary between its parts. -/
structure BatchRequest where
  boundary : String
  body : String
  deriving DecidableEq, Repr

namespace BatchRequest

/-- A text that ends a line. -/
def line (text : String) : String := text ++ "\r\n"

/-- The line in front of a part. -/
def opening (boundary : String) : String := line ("--" ++ boundary)

/-- The line behind the last part. -/
def closing (boundary : String) : String := line ("--" ++ boundary ++ "--")

/-- A header line. -/
def headerLine (name value : String) : String := line (name ++ ": " ++ value)

/-- The header lines of an operation's request. -/
def requestHeaders (op : Operation) : List (String × String) :=
  op.headers.entries ++
    (op.ifMatch.map fun etag => ("If-Match", etag)).toList ++
    (if op.kind.hasBody && !op.headers.hasIgnoringCase "content-type" then
      [("Content-Type", "application/json; type=entry")] else [])

/-- The part of an operation, without the line in front of it. -/
def operationPart (op : Operation) : String :=
  headerLine "Content-Type" "application/http" ++
    headerLine "Content-Transfer-Encoding" "binary" ++
    headerLine "Content-ID" op.id ++ line "" ++
    line (op.method ++ " " ++ op.url ++ " HTTP/1.1") ++
    String.join ((requestHeaders op).map fun h => headerLine h.1 h.2) ++
    line "" ++
    (if op.kind.hasBody then line op.bodyText else "") ++ line ""

/-- The parts of operations between the lines of a boundary. -/
def operationParts (boundary : String) (ops : List Operation) : String :=
  String.join (ops.map fun op => opening boundary ++ operationPart op)

/-- The part of a change set, without the line in front of it. -/
def changesetPart (inner : String) (ops : List Operation) : String :=
  headerLine "Content-Type" ("multipart/mixed; boundary=" ++ inner) ++ line "" ++
    operationParts inner ops ++ closing inner

/-- The parts of a batch.  `fresh` has the boundaries of the change sets, of which
`used` are spent. -/
def itemParts (boundary : String) (fresh : Nat → String) (used : Nat) :
    List BatchItem → String
  | [] => ""
  | .operation op :: items =>
    opening boundary ++ operationPart op ++ itemParts boundary fresh used items
  | .changeset [] :: items => itemParts boundary fresh used items
  | .changeset ops :: items =>
    opening boundary ++ changesetPart (fresh used) ops ++
      itemParts boundary fresh (used + 1) items

/-- The request of a batch, under the boundaries given; fails when two operations
have the same id. -/
def encode (boundary : String) (fresh : Nat → String) (b : Batch) :
    Except Failure BatchRequest :=
  match b.repeatedId? with
  | some id => .error (.invalidBatch s!"duplicate operation id '{id}'")
  | none => .ok ⟨boundary, itemParts boundary fresh 0 b.items ++ closing boundary⟩

/-- The content type of the body. -/
def contentType (r : BatchRequest) : String := "multipart/mixed; boundary=" ++ r.boundary

end BatchRequest
end OData
