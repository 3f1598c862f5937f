import OData.Double
import OData.Session
import OData.Text.Digits

/-! # Sending again

A request that failed in a way that may pass is sent again after a pause.  The
statuses 429 and 503 say that the service did nothing, so any request may follow
them; after other failures only a method that may be repeated is sent again.
Pauses grow from one to the next, and the service may ask for a certain one, but
none is longer than the policy allows.
-/
namespace OData

/-- How often a request is sent, and how long the pauses are. -/
structure RetryPolicy where
  /-- How often a request is sent at most; it is always sent once. -/
  maxAttempts : Nat
  /-- The first pause. -/
  baseDelay : Duration
  /-- The longest pause. -/
  maxDelay : Duration
  /-- How many times longer each pause is than the one before. -/
  multiplier : Double
  /-- Whether a pause may be cut to a random part of itself. -/
  jitter : Bool
  deriving DecidableEq, Repr

namespace RetryPolicy

def default : RetryPolicy := ⟨3, .ofMillis 500, .ofSeconds 30, .ofInt 2, true⟩

/-- Sends once. -/
def disabled : RetryPolicy := ⟨1, ⟨0⟩, ⟨0⟩, .ofInt 1, false⟩

/-- Sends more often and waits longer. -/
def conservative : RetryPolicy :=
  { default with maxAttempts := 5, baseDelay := .ofSeconds 1, maxDelay := .ofSeconds 60 }

/-- The largest exponent of the multiplier. -/
def maxExponent : Nat := 16

/-- A duration in seconds. -/
def secondsOf (d : Duration) : Double :=
  (Double.ofInt (d.nanos / 1000000000)).add
    ((Double.ofInt (d.nanos % 1000000000)).div (.ofInt 1000000000))

/-- The duration of so many seconds, to the nearest nanosecond; `none` for what is
negative, no number, or `2 ^ 64` seconds or more. -/
def durationOf? (seconds : Double) : Option Duration :=
  (seconds.nearestMultiple? 1000000000).bind fun nanos =>
    if nanos < UInt64.size * 1000000000 then some ⟨nanos⟩ else none

/-- The pause after sending for the `attempt`-th time, before any jitter. -/
def delayFor (p : RetryPolicy) (attempt : Nat) : Duration :=
  let factor := (p.multiplier.maximum (.ofInt 1)).power (min (attempt - 1) maxExponent)
  match durationOf? ((secondsOf p.baseDelay).mul factor) with
  | some d => d.least p.maxDelay
  | none => p.maxDelay

/-- A method that the service may see twice without harm. -/
def isRepeatable (method : String) : Bool :=
  ["GET", "HEAD", "PUT", "DELETE", "OPTIONS"].contains method

/-- A status after which a request may be sent again. -/
def isPassing (status : Nat) (method : String) : Bool :=
  status == 429 || status == 503 ||
    ([500, 502, 504].contains status && isRepeatable method)

/-- The pause that a response asks for, in whole seconds. -/
def requestedDelay? (response : Response) : Option Duration :=
  (response.header? "Retry-After").bind fun value =>
    (Text.natBelow? UInt64.size (Text.trim value.toList)).map .ofSeconds

/-- The pause before a request is sent again, if its outcome allows that. -/
def pauseAfter? (p : RetryPolicy) (method : String) (attempt : Nat) :
    Except Halt Response → Option Duration
  | .ok response =>
    if isPassing response.status method then
      match requestedDelay? response with
      | some d => some (d.least p.maxDelay)
      | none => some (p.delayFor attempt)
    else none
  | .error (.failed (.transport _)) =>
    if isRepeatable method then some (p.delayFor attempt) else none
  | .error _ => none

/-- Sends a request for the `attempt`-th time, and again while the outcome allows
that, at most `more` times. -/
def sendFrom (p : RetryPolicy) (inner : Sender) (request : Request) (attempt : Nat) :
    Nat → InSession Response
  | 0 => inner request
  | more + 1 => fun s =>
    match inner request s with
    | (outcome, s) =>
      match p.pauseAfter? request.method attempt outcome with
      | none => (outcome, s)
      | some d =>
        match Session.pause d s with
        | (.error halt, s) => (.error halt, s)
        | (.ok (), s) => p.sendFrom inner request (attempt + 1) more s

/-- The sender that sends again as the policy says. -/
def sender (p : RetryPolicy) (inner : Sender) : Sender := fun request =>
  p.sendFrom inner request 1 (p.maxAttempts - 1)

end RetryPolicy
end OData
