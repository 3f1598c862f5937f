import OData.Batch
import OData.Multipart
import OData.Operation.Result

/-! # Batch responses

The answer to a batch holds one entry for each operation, as a multipart body or
as a JSON object with a list.  Either form is first read into entries; then each
entry is attributed to the operation whose id it names or, if there is none, to
the operation at the entry's own position.  Results come in the order of the
operations, those of no operation last.
-/
namespace OData

/-- One answer in the answer to a batch. -/
structure BatchEntry where
  /-- The id of an operation, if the entry names one. -/
  id : Option String
  status : Nat
  headers : Headers
  body : String
  deriving DecidableEq

namespace BatchEntry

/-- The status of a status line: its second word, a number below `2 ^ 16`. -/
def statusOfLine? (statusLine : List Char) : Option Nat :=
  (Text.words statusLine)[1]?.bind (Text.natBelow? 65536)

/-- The text from the first status line on. -/
def fromStatusLine? : List Char → Option (List Char)
  | [] => none
  | c :: s =>
    if ['H', 'T', 'T', 'P', '/'].isPrefixOf (c :: s) then some (c :: s) else fromStatusLine? s

/-- An id without angle brackets at its ends. -/
def bareId (id : String) : String :=
  String.ofList (Text.dropAround (fun c => c == '<' || c == '>') id.toList)

/-- The entry of a leaf, if it has a status line.  The id stands in the headers of
the part or else in those of the answer. -/
def ofLeaf? (leaf : Multipart.Leaf) : Option BatchEntry := do
  let http ← fromStatusLine? leaf.content
  let (statusLine, rest) := (Text.cutFirst? '\n' http).getD (http, [])
  let status ← statusOfLine? statusLine
  let (head, body) := Multipart.splitHead rest
  let headers := Headers.ofBlock head
  let id := ((Headers.ofBlock leaf.head).get? "content-id").or (headers.get? "content-id")
  return {
    id := id.map bareId
    status, headers
    body := String.ofList (Text.dropEndWhile Multipart.isLineEnd body) }

/-- The id that a JSON value gives. -/
def idOfJson? : Json → Option String
  | .text s => some s
  | .int n => some (String.ofList (Json.writeInt n))
  | .double d => some (String.ofList (Json.writeDouble d))
  | _ => none

/-- The headers that an object of texts gives, under lower-case names. -/
def headersOfJson (j : Option Json) : Headers :=
  match j with
  | some (.object members) =>
    NameMap.ofList (members.filterMap fun m => m.2.text?.map fun v => (lowercased m.1, v))
  | _ => ∅

/-- The body that a JSON value gives. -/
def bodyOfJson : Option Json → String
  | none | some .null => ""
  | some (.text s) => s
  | some j => j.compact

/-- The entry of a JSON object, if it has a status. -/
def ofJson? (j : Json) : Option BatchEntry := do
  let status ← (j.member? "status").bind (Json.natBelow? 65536)
  return {
    id := (j.member? "id").bind idOfJson?
    status
    headers := headersOfJson (j.member? "headers")
    body := bodyOfJson (j.member? "body") }

end BatchEntry

/-- The results of a batch. -/
structure BatchResponse where
  results : List OperationResult

namespace BatchResponse

/-- The entries of a multipart body; what cannot be read is `none`, so that every
entry keeps its position. -/
def multipartEntries (boundary : List Char) (body : String) : List (Option BatchEntry) :=
  (Multipart.leaves boundary body.toList).map BatchEntry.ofLeaf?

/-- The entries of a JSON body. -/
def jsonEntries (body : String) : Except Failure (List (Option BatchEntry)) :=
  match Json.read? body with
  | none => .error (.invalidBatchResponse "no multipart boundary and body is not JSON")
  | some j =>
    match (j.member? "responses").bind Json.items? with
    | none => .error (.invalidBatchResponse "JSON batch body has no 'responses' array")
    | some entries => .ok (entries.map BatchEntry.ofJson?)

/-- The entries of a body; its content type tells in which form it is. -/
def entries (contentType body : String) : Except Failure (List (Option BatchEntry)) :=
  match Multipart.boundary? contentType.toList with
  | some boundary => .ok (multipartEntries boundary body)
  | none => jsonEntries body

/-- The position of the operation that an entry at `position` belongs to: the
first with the entry's id, or else the one at the same position. -/
def correlate (ops : List Operation) (id : Option String) (position : Nat) : Option Nat :=
  match id.bind fun id => ops.findIdx? fun op => op.id == id with
  | some index => some index
  | none => if position < ops.length then some position else none

/-- The result of the entry at `position`, and the position of its operation. -/
def assign (ops : List Operation) (position : Nat) (e : BatchEntry) :
    Option Nat × OperationResult :=
  let index := correlate ops e.id position
  match index.bind fun i => ops[i]? with
  | some op => (index, .forOperation op e.status e.headers e.body)
  | none =>
    let id := e.id.getD (toString position)
    (index, .ofResponse id e.status e.headers e.body none)

/-- The results of entries from `position` on. -/
def assignFrom (ops : List Operation) (position : Nat) :
    List (Option BatchEntry) → List (Option Nat × OperationResult)
  | [] => []
  | none :: rest => assignFrom ops (position + 1) rest
  | some e :: rest => assign ops position e :: assignFrom ops (position + 1) rest

/-- Whether the first of two results stands in front of the second or beside it:
results of no operation come last. -/
def precedes (a b : Option Nat × OperationResult) : Bool :=
  match a.1, b.1 with
  | some i, some j => i ≤ j
  | some _, none => true
  | none, none => true
  | none, some _ => false

/-- The results that a body gives for the operations of a batch. -/
def decode (ops : List Operation) (contentType body : String) : Except Failure BatchResponse := do
  let entries ← entries contentType body
  return ⟨((assignFrom ops 0 entries).mergeSort precedes).map Prod.snd⟩

def allSucceeded (r : BatchResponse) : Bool := r.results.all OperationResult.success

def hasErrors (r : BatchResponse) : Bool := r.results.any OperationResult.isError

def failed (r : BatchResponse) : List OperationResult := r.results.filter OperationResult.isError

def succeeded (r : BatchResponse) : List OperationResult :=
  r.results.filter OperationResult.success

def conflicts (r : BatchResponse) : List OperationResult :=
  r.results.filter OperationResult.isConflict

/-- The first result for an operation id. -/
def get? (r : BatchResponse) (operation : String) : Option OperationResult :=
  r.results.find? fun x => x.operation == operation

end BatchResponse
end OData
