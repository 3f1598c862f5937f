import OData.Headers
import OData.Operation.Result

/-! # Requests and responses

What a client sends to a service and what comes back.
-/
namespace OData

/-- A request.  Its URL is absolute or below the root of the service. -/
structure Request where
  method : String
  url : String
  headers : Headers
  body : Option String
  deriving DecidableEq

/-- A response.  Its headers have names in lower case. -/
structure Response where
  status : Nat
  headers : Headers
  body : String
  deriving DecidableEq

namespace Response

/-- The response with headers as the service wrote them. -/
def ofHeaders (status : Nat) (headers : Headers) (body : String) : Response :=
  ⟨status, headers.lowerNames, body⟩

/-- The value of a header, whatever the case of the name asked for. -/
def header? (r : Response) (name : String) : Option String := r.headers.get? (lowercased name)

def isSuccess (r : Response) : Bool := isSuccessStatus r.status

/-- The result that the response gives for an operation. -/
def resultFor (r : Response) (op : Operation) : OperationResult :=
  .forOperation op r.status r.headers r.body

end Response
end OData
