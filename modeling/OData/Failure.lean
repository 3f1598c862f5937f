import OData.Duration
import OData.Text.Escaped

/-! # Failures

The reasons for which a call of this library can fail, and the sentence that
reports each of them.
-/
namespace OData

/-- Why a call failed. -/
inductive Failure where
  /-- A filter has a node that no filter text can express. -/
  | unsupported (kind detail : String)
  /-- A value cannot be the key of an entity. -/
  | invalidKey (reason : String)
  /-- A batch cannot be written. -/
  | invalidBatch (reason : String)
  /-- The answer to a batch cannot be read. -/
  | invalidBatchResponse (reason : String)
  /-- The service gave up a long-running operation. -/
  | operationFailed (url reason : String)
  /-- A long-running operation took longer than allowed. -/
  | timeout (limit : Duration)
  | cancelled
  /-- The service holds another version of the entity than the client. -/
  | conflict (expected current : Option String)
  /-- The service answered with a status that is no success. -/
  | http (status : Nat) (body : String)
  /-- No answer arrived. -/
  | transport (reason : String)
  /-- A body is not the JSON it should be. -/
  | json
  /-- The settings do not allow the call. -/
  | configuration (reason : String)
  deriving DecidableEq, Repr

namespace Failure

/-- An entity tag in a report. -/
def describeTag : Option String → String
  | none => "None"
  | some tag => "Some(" ++ escaped tag ++ ")"

/-- The sentence that reports a failure. -/
def message : Failure → String
  | unsupported kind detail => s!"unsupported expression ({kind}): {detail}"
  | invalidKey reason => s!"invalid entity key: {reason}"
  | invalidBatch reason => s!"invalid batch: {reason}"
  | invalidBatchResponse reason => s!"invalid batch response: {reason}"
  | operationFailed url reason => s!"async operation at {url} failed: {reason}"
  | timeout limit => "operation timed out after " ++ limit.toText
  | cancelled => "operation was cancelled"
  | conflict expected current =>
    "concurrency conflict: expected ETag " ++ describeTag expected ++ ", server has " ++
      describeTag current
  | http status body => s!"HTTP {status}: {body}"
  | transport reason => s!"transport error: {reason}"
  | json => "JSON error"
  | configuration reason => s!"configuration error: {reason}"

/-- The query could not be written down, so nothing was sent. -/
def isTranslation : Failure → Bool
  | unsupported .. => true
  | invalidKey _ => true
  | _ => false

end Failure
end OData
