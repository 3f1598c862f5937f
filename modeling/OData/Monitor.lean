import OData.Json.Reader
import OData.Settings
import OData.Shape

/-! # Monitors

A service can accept an operation and work on it later.  It then names a monitor,
a URL that tells how far the operation has come: the status 202 says that it is
still running, another success that it is done, any other status that it failed.
Once an operation has come to an end, no request is sent for it any more.
-/
namespace OData

/-- How far a long-running operation has come. -/
inductive Progress where
  | pending
  | running
  /-- Done; the result is there unless the service gave none that could be read, or
  it was handed out. -/
  | completed (result : Option Json)
  | failed (error : String)
  | cancelled
  deriving DecidableEq

namespace Progress

/-- Whether the operation has come to an end. -/
def isTerminal : Progress → Bool
  | pending | running => false
  | completed _ | failed _ | cancelled => true

/-- The word for the progress. -/
def word : Progress → String
  | pending => "pending"
  | running => "running"
  | completed _ => "completed"
  | failed _ => "failed"
  | cancelled => "cancelled"

def result? : Progress → Option Json
  | completed result => result
  | _ => none

def error? : Progress → Option String
  | failed error => some error
  | _ => none

end Progress

/-- A long-running operation as the client knows it. -/
structure Monitor where
  url : String
  progress : Progress
  /-- The pause between two looks. -/
  interval : Duration
  /-- How long to wait if nothing else is said. -/
  limit : Option Duration
  headers : Headers
  /-- What the result is expected to be. -/
  expects : Shape

namespace Monitor

/-- The monitor at a URL, of which nothing is known yet. -/
def ofUrl (settings : Settings) (url : String) (expects : Shape) : Monitor :=
  ⟨url, .pending, settings.pollInterval, settings.waitLimit, settings.headers, expects⟩

/-- The monitor that a response names, if it says that the operation was
accepted. -/
def ofResponse? (settings : Settings) (response : Response) (expects : Shape) : Option Monitor :=
  if response.status = 202 then
    (response.header? "Location").map fun url => ofUrl settings url expects
  else none

/-- The request for the monitor with the method given. -/
def request (m : Monitor) (method : String) : Request := ⟨method, m.url, m.headers, none⟩

/-- The result in a body; one that cannot be read counts as none. -/
def resultOf? (expects : Shape) (body : String) : Option Json :=
  if blank body then none else (Json.readWritten? body).bind expects.read?

/-- What the client knows after a look at the monitor. -/
def observe (m : Monitor) (response : Response) : Monitor :=
  if response.status = 202 then
    { m with progress := .running, url := (response.header? "Location").getD m.url }
  else if response.isSuccess then
    { m with progress := .completed (resultOf? m.expects response.body) }
  else { m with progress := .failed response.body }

/-- Looks at the monitor once, unless the operation has come to an end. -/
def poll (send : Sender) (m : Monitor) : StateM Session (Except Halt Unit × Monitor) := do
  if m.progress.isTerminal then return (.ok (), m)
  match ← (send (m.request "GET")).run with
  | .ok response => return (.ok (), m.observe response)
  | .error halt => return (.error halt, m)

/-- Looks at the monitor again and again, at most `looks` times, until the
operation has come to an end. -/
def watch (send : Sender) : Nat → Monitor → StateM Session (Except Halt Unit × Monitor)
  | 0, m => return (.error .unfinished, m)
  | looks + 1, m => do
    if (← get).isCancelled then return (.error (.failed .cancelled), m)
    match ← m.poll send with
    | (.error halt, m) => return (.error halt, m)
    | (.ok (), m) =>
      if m.progress.isTerminal then return (.ok (), m)
      match ← (Session.pause m.interval).run with
      | .error halt => return (.error halt, m)
      | .ok () => watch send looks m

/-- What an operation that has come to an end gives; its result is handed out
once. -/
def conclude (m : Monitor) : Except Halt (Option Json) × Monitor :=
  match m.progress with
  | .failed error => (.error (.failed (.operationFailed m.url error)), m)
  | .cancelled => (.error (.failed .cancelled), m)
  | .completed result => (.ok result, { m with progress := .completed none })
  | .pending | .running => (.ok none, m)

/-- Waits until the operation has come to an end, with at most `looks` looks and
no longer than `limit` or what the settings say. -/
def wait (send : Sender) (looks : Nat) (limit : Option Duration) (m : Monitor) :
    StateM Session (Except Halt (Option Json) × Monitor) := do
  let outcome ← match limit.or m.limit with
    | some limit => Session.within limit (m.watch send looks)
    | none => m.watch send looks
  match outcome with
  | (.error halt, m) => return (.error halt, m)
  | (.ok (), m) => return m.conclude

/-- Asks the service to give the operation up, unless it has come to an end;
tells whether the service agreed. -/
def tryCancel (send : Sender) (m : Monitor) : StateM Session (Except Halt Bool × Monitor) := do
  if m.progress.isTerminal then return (.ok false, m)
  match ← (send (m.request "DELETE")).run with
  | .ok response =>
    if response.isSuccess then return (.ok true, { m with progress := .cancelled })
    else return (.ok false, m)
  | .error halt => return (.error halt, m)

end Monitor
end OData
