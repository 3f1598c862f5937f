import OData.Failure
import OData.Json.Reader
import OData.Operation

/-! # Operation results

What came of an operation, told from the status, the headers and the body of the
answer.  A success is a status from 200 to 299; the status 412 reports that the
service holds another version of the entity.
-/
namespace OData

/-- The versions of an entity that a refused request names. -/
structure EtagConflict where
  /-- The version for which the request held. -/
  expected : Option String
  /-- The version that the service holds. -/
  current : Option String
  deriving DecidableEq, Repr

def EtagConflict.toFailure (c : EtagConflict) : Failure := .conflict c.expected c.current

/-- A status that reports a success. -/
def isSuccessStatus (status : Nat) : Bool := 200 ≤ status && status < 300

/-- What came of an operation. -/
structure OperationResult where
  /-- The operation's id. -/
  operation : String
  success : Bool
  status : Nat
  body : String
  /-- The body as JSON, where the operation says what it expects and the body is
  that. -/
  data : Option Json
  error : Option String
  headers : Headers
  conflict : Option EtagConflict

namespace OperationResult

/-- The body of a success as JSON, if it has the shape expected. -/
def dataOf? (body : String) (shape : Shape) : Option Json :=
  if blank body then none
  else (Json.read? body).bind fun j => if (shape.read? j).isSome then some j else none

/-- The result that an answer gives for an operation of which no more is known
than its id and the shape it expects. -/
def ofResponse (operation : String) (status : Nat) (headers : Headers) (body : String)
    (expects : Option Shape) : OperationResult :=
  let success := isSuccessStatus status
  { operation, success, status, body, headers
    data := if success then expects.bind (dataOf? body) else none
    error := if success then none else some body
    conflict := none }

/-- The value of a header, whatever the case of its name. -/
def header? (r : OperationResult) (name : String) : Option String :=
  r.headers.getIgnoringCase? name

/-- The version of the entity that the service reports. -/
def etag? (r : OperationResult) : Option String := r.header? "ETag"

/-- The result that an answer gives for an operation. -/
def forOperation (op : Operation) (status : Nat) (headers : Headers) (body : String) :
    OperationResult :=
  let r := ofResponse op.id status headers body op.expects
  { r with conflict := if status = 412 then some ⟨op.ifMatch, r.etag?⟩ else none }

def isError (r : OperationResult) : Bool := !r.success

def isConflict (r : OperationResult) : Bool := r.conflict.isSome

/-- The data as the shape reads it, if there are data. -/
def readData (r : OperationResult) (shape : Shape) : Option (Option Json) := r.data.map shape.read?

/-- The data of a success, null if there are none, or the error of a failure. -/
def toExcept (r : OperationResult) : Except String Json :=
  if r.success then .ok (r.data.getD .null) else .error (r.error.getD "Unknown error")

/-! ## Stored results -/

/-- The shape of a stored conflict. -/
def conflictFields : List (String × Shape) :=
  [("expected_etag", .optional .text), ("current_etag", .optional .text)]

/-- The shape of a stored result. -/
def fields : List (String × Shape) :=
  [("operation_id", .text), ("success", .truth), ("status_code", .integer 0 65535),
    ("body", .text), ("data", .optional .anything), ("error", .optional .text),
    ("headers", .mapOf .text), ("conflict", .optional (.record conflictFields))]

/-- The members of a stored result.  A conflict is stored only if there is one. -/
def toStored (r : OperationResult) : List (String × Json) :=
  [("operation_id", .text r.operation), ("success", .bool r.success),
    ("status_code", .int r.status), ("body", .text r.body), ("data", Json.ofOption id r.data),
    ("error", Json.ofOption .text r.error),
    ("headers", .object (r.headers.entries.map fun e => (e.1, .text e.2)))] ++
  (r.conflict.map fun c => ("conflict", Json.ofMembers
    [("expected_etag", Json.ofOption .text c.expected),
      ("current_etag", Json.ofOption .text c.current)])).toList

/-- The headers that an object of texts stands for. -/
def headersOf (j : Json) : Headers :=
  NameMap.ofList ((j.members?.getD []).filterMap fun m => m.2.text?.map fun v => (m.1, v))

/-- The result that was stored as the JSON value.  Where the values of the members
stand in an array, the conflict may be left out. -/
def ofStored? (j : Json) : Option OperationResult := do
  let j := match j with
    | .array js => .array (if js.length = 7 then js ++ [.null] else js)
    | j => j
  let r ← (Shape.record fields).read? j
  let text? (name : String) := (r.member? name).bind Json.text?
  let conflict := (r.member? "conflict").bind fun c =>
    if c.isNull then none
    else some ⟨(c.member? "expected_etag").bind Json.text?,
      (c.member? "current_etag").bind Json.text?⟩
  return {
    operation := ← text? "operation_id"
    success := (r.member? "success") = some (.bool true)
    status := ← (r.member? "status_code").bind (Json.natBelow? 65536)
    body := ← text? "body"
    data := (r.member? "data").bind fun d => if d.isNull then none else some d
    error := text? "error"
    headers := headersOf ((r.member? "headers").getD .null)
    conflict }

end OperationResult
end OData
