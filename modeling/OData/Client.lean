import OData.Batch.Request
import OData.Batch.Response
import OData.Monitor
import OData.Page
import OData.Query
import OData.ServiceRoot

/-! # Clients

A client sends queries, operations and batches to a service.  Every request has
the headers of the settings; a header of the query or operation with exactly the
same name takes the place of one of them.
-/
namespace OData

/-- A client of a service. -/
structure Client where
  settings : Settings
  send : Sender

/-- What became of an operation that the service may accept for later. -/
inductive AsyncAnswer where
  | accepted (monitor : Monitor)
  | completed (result : OperationResult)

namespace Client

/-- The client that sends requests over `transport` to the service that the
settings name, and again if they fail in a way that may pass. -/
def connect (transport : Sender) (settings : Settings) : Client :=
  ⟨settings, settings.retry.sender (ServiceRoot.sender settings.root transport)⟩

/-- The headers `own` over those of the settings. -/
def headersWith (c : Client) (own : Headers) : Headers := c.settings.headers.union own

/-! ## Queries -/

/-- The request for a page. -/
def pageRequest (c : Client) (url : String) (own : Headers) : Request :=
  let headers := c.headersWith own
  { method := "GET", url, body := none
    headers := match c.settings.pageSize with
      | some n => headers.prefer s!"odata.maxpagesize={n}"
      | none => headers }

/-- The page in a response. -/
def pageOf (response : Response) : Except Failure PageResult :=
  if !response.isSuccess then .ok (.refused response.status response.body)
  else if blank response.body then .ok (.success response.status .empty)
  else
    match (Json.read? response.body).bind Page.ofBody? with
    | some page => .ok (.success response.status page)
    | none => .error .json

/-- Asks for the page at a URL. -/
def readPage (c : Client) (url : String) (own : Headers) : InSession PageResult := do
  let response ← c.send (c.pageRequest url own)
  match pageOf response with
  | .ok page => return page
  | .error failure => throw (.failed failure)

/-- Asks for the first page of a query. -/
def execute (c : Client) (q : Query) : InSession PageResult := c.readPage q.url q.headers

/-- Asks for a page by its URL alone. -/
def fetchPage (c : Client) (url : String) : InSession PageResult := c.readPage url ∅

/-- Asks for the page behind one, if there is one. -/
def nextPage (c : Client) (page : PageResult) : InSession (Option PageResult) := do
  match page.nextLink? with
  | none => return none
  | some url => return some (← c.fetchPage url)

/-! ## Operations -/

/-- The request of an operation that is sent alone. -/
def operationRequest (c : Client) (op : Operation) : Request :=
  let headers := c.headersWith op.headers
  let headers := match op.ifMatch with
    | some etag => headers.insert "If-Match" etag
    | none => headers
  if op.kind.hasBody then
    { method := op.method, url := op.url, body := some op.bodyText
      headers := headers.insert "Content-Type" "application/json" }
  else { method := op.method, url := op.url, body := none, headers }

/-- The result of an operation; that the service holds another version is a
failure. -/
def resultOf (op : Operation) (response : Response) : Except Failure OperationResult :=
  let result := response.resultFor op
  match result.conflict with
  | some conflict => .error conflict.toFailure
  | none => .ok result

/-- Sends an operation alone. -/
def perform (c : Client) (op : Operation) : InSession OperationResult := do
  match resultOf op (← c.send (c.operationRequest op)) with
  | .ok result => return result
  | .error failure => throw (.failed failure)

/-- Sends an operation that the service may accept for later. -/
def start (c : Client) (op : Operation) (expects : Shape) : InSession AsyncAnswer := do
  let request := c.operationRequest op
  let response ← c.send { request with headers := request.headers.prefer "respond-async" }
  match Monitor.ofResponse? c.settings response expects with
  | some monitor => return .accepted monitor
  | none =>
    match resultOf op response with
    | .ok result => return .completed result
    | .error failure => throw (.failed failure)

/-- The monitor at a URL. -/
def monitor (c : Client) (url : String) (expects : Shape) : Monitor :=
  .ofUrl c.settings url expects

/-! ## Batches -/

/-- The request of a batch. -/
def batchRequest (c : Client) (encoded : BatchRequest) : Request :=
  { method := "POST", url := "$batch", body := some encoded.body
    headers := c.settings.headers.insert "Content-Type" encoded.contentType }

/-- The results in the response to a batch. -/
def batchResponseOf (b : Batch) (response : Response) : Except Failure BatchResponse :=
  let contentType := (response.header? "Content-Type").getD ""
  let multipart := "multipart/".toList.isPrefixOf (Text.asciiLower contentType.toList)
  if !response.isSuccess && !multipart then .error (.http response.status response.body)
  else BatchResponse.decode b.operations contentType response.body

/-- Sends a batch, under the boundaries given. -/
def performBatch (c : Client) (boundary : String) (fresh : Nat → String) (b : Batch) :
    InSession BatchResponse := do
  match BatchRequest.encode boundary fresh b with
  | .error failure => throw (.failed failure)
  | .ok encoded =>
    match batchResponseOf b (← c.send (c.batchRequest encoded)) with
    | .ok response => return response
    | .error failure => throw (.failed failure)

end Client
end OData
