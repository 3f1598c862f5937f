import OData.Batch.Definition
import OData.Client
import OData.CommandLine.Arguments
import OData.Settings.Reader
import OData.Text.Styled

/-! # Running commands

A command prints to the output and beside it, as notes, and either is done or
fails for a chain of reasons, the first of which is the one to show.
-/
namespace OData
namespace CommandLine

/-- A reason for which a command fails. -/
inductive Reason where
  | text (text : String)
  | failure (failure : Failure)
  /-- A file cannot be read. -/
  | unreadable
  /-- A text is not the JSON it should be. -/
  | malformed
  /-- The steps allowed were not enough. -/
  | unfinished
  deriving DecidableEq, Repr

/-- The sentence for a reason. -/
def Reason.message : Reason → String
  | text s => s
  | failure f => f.message
  | unreadable => "the file cannot be read"
  | malformed => "the text is not the JSON expected"
  | unfinished => "the operation takes too many steps"

/-- What a command printed. -/
structure Printed where
  output : String
  notes : String
  deriving DecidableEq, Repr

/-- Something that a command does. -/
abbrev Run (α : Type) := ExceptT (List Reason) (StateT Printed (StateM Session)) α

/-- What a command is given besides its words. -/
structure World where
  /-- The text of the file at a path, if it can be read. -/
  file? : String → Option String
  /-- Whether styles are shown. -/
  styled : Bool
  /-- Sends to absolute URLs. -/
  transport : Sender
  /-- Ids for operations that name none. -/
  freshId : Nat → String
  /-- The boundary of a batch, and those of its change sets. -/
  boundary : String
  innerBoundary : Nat → String
  /-- How often a wait looks at most. -/
  looks : Nat

namespace Run

def print (text : String) : Run Unit :=
  modifyThe Printed fun p => { p with output := p.output ++ text }

def printLine (text : String) : Run Unit := print (text ++ "\n")

def noteLine (text : String) : Run Unit :=
  modifyThe Printed fun p => { p with notes := p.notes ++ text ++ "\n" }

/-- The reason for a halt. -/
def reasonOf : Halt → Reason
  | .failed failure => .failure failure
  | .expired | .unfinished => .unfinished

/-- Does something in the session; `context` stands in front of the reason why it
fails. -/
def ask {α : Type} (context : List Reason) (act : InSession α) : Run α := do
  match ← (act.run : StateM Session _) with
  | .ok a => return a
  | .error halt => throw (context ++ [reasonOf halt])

/-- The value, or else a failure in its context. -/
def require {α : Type} (context : String) : Except Failure α → Run α
  | .ok a => return a
  | .error failure => throw [.text context, .failure failure]

end Run

open Run

/-- A text in a style, if styles are shown. -/
def World.paint (w : World) (style : Style) (text : String) : String :=
  if w.styled then style.paint text else text

/-! ## Queries -/

/-- The records of the pages behind a page, at most `pages` of them. -/
def laterRecords (c : Client) : Nat → PageResult → Run (List Json)
  | 0, _ => throw [.unfinished]
  | pages + 1, page => do
    match ← ask [] (c.nextPage page) with
    | none => return []
    | some next => return next.records?.getD [] ++ (← laterRecords c pages next)

/-- Prints the URL of a query, or its records. -/
def runUrl (w : World) (settings : Settings) (a : UrlArguments) : Run Unit := do
  let query ← require "Failed to compile query" (a.draft.build.mapError (·.toFailure))
  if !a.send then
    printLine query.url
    return
  let client := Client.connect w.transport settings
  noteLine (w.paint .bold "GET" ++ " " ++ w.paint .dimmed query.url)
  let first ← ask [.text "Failed to execute query"] (client.execute query)
  if !first.isSuccess then
    let error := first.error?.getD ""
    throw [.text s!"Query failed with HTTP {first.status}: {error}"]
  let later ← if a.allPages then laterRecords client w.looks first else pure []
  printLine (a.format.render (.array (first.records?.getD [] ++ later)))
  match first.count? with
  | some n => noteLine (w.paint .bold "Total count:" ++ s!" {n}")
  | none => return

/-! ## Batches -/

/-- The lines about a result. -/
def printResult (w : World) (bodies : Bool) (r : OperationResult) : Run Unit := do
  let (sign, status) := if r.success then
      (w.paint .brightGreen "✓", w.paint .green (toString r.status))
    else (w.paint .brightRed "✗", w.paint .red (toString r.status))
  printLine (sign ++ " " ++ w.paint .bold r.operation ++ " " ++ status)
  match r.conflict, r.error with
  | some c, _ =>
    let expected := c.expected.getD "none"
    let current := c.current.getD "unknown"
    printLine ("    " ++ w.paint .yellow "ETag conflict:" ++
      s!" expected {expected}, server has {current}")
  | none, some error => printLine ("    " ++ w.paint .dimmed error)
  | none, none =>
    if bodies && !r.body.isEmpty then printLine ("    " ++ w.paint .dimmed r.body)

/-- The lines about the results of a batch. -/
def printResponse (w : World) (bodies : Bool) (r : BatchResponse) : Run Unit := do
  r.results.forM (printResult w bodies)
  printLine ""
  let failed := r.failed.length
  let summary := s!"{r.results.length} operations, {failed} failed"
  printLine (w.paint (if failed = 0 then .brightGreen else .brightRed) summary)

/-- The batch that a file describes. -/
def readBatch (w : World) (path : String) : Run Batch := do
  match w.file? path with
  | none => throw [.text s!"Failed to read batch definition: {path}", .unreadable]
  | some text =>
    match BatchDefinition.read? w.freshId text with
    | none => throw [.text s!"Invalid batch definition: {path}", .malformed]
    | some batch => return batch

/-- Prints the body of a batch, or what the service answers to it. -/
def runBatch (w : World) (settings : Settings) (a : BatchArguments) : Run Unit := do
  let batch ← readBatch w a.file
  if batch.isEmpty then throw [.text s!"Batch definition has no operations: {a.file}"]
  if !a.send then
    let encoded ← require "Failed to encode batch"
      (BatchRequest.encode w.boundary w.innerBoundary batch)
    noteLine (w.paint .bold "Content-Type:" ++ " " ++ encoded.contentType)
    print encoded.body
    return
  let client := Client.connect w.transport settings
  noteLine s!"Sending {w.paint .cyan (toString batch.size)} operations..."
  let response ← ask [.text "Batch request failed"]
    (client.performBatch w.boundary w.innerBoundary batch)
  printResponse w a.bodies response
  if response.hasErrors then throw [.text s!"{response.failed.length} operations failed"]

/-- Prints what the answer in a file says. -/
def runDecode (w : World) (a : DecodeArguments) : Run Unit := do
  match w.file? a.file with
  | none => throw [.text s!"Failed to read response: {a.file}", .unreadable]
  | some body =>
    let operations ← match a.definition with
      | some path => do pure (← readBatch w path).operations
      | none => pure []
    let response ← require "Failed to decode batch response"
      (BatchResponse.decode operations a.contentType body)
    if response.results.isEmpty then printLine "Response contained no operation results"
    else printResponse w a.bodies response

/-! ## Long-running operations -/

/-- Does something with a monitor; gives what it came to, and the monitor. -/
def withMonitor {α : Type} (act : StateM Session (Except Halt α × Monitor)) :
    Run (Except Halt α × Monitor) := act

/-- Asks the service to give an operation up. -/
def runCancel (w : World) (send : Sender) (m : Monitor) (url : String) : Run Unit := do
  match ← withMonitor (m.tryCancel send) with
  | (.error halt, _) => throw [reasonOf halt]
  | (.ok true, _) => printLine (w.paint .brightYellow "Cancelled" ++ " " ++ url)
  | (.ok false, _) => throw [.text s!"Server refused to cancel {url}"]

/-- Gives an operation up because the client was told to stop. -/
def interrupt (w : World) (send : Sender) (m : Monitor) : Run Unit := do
  noteLine (w.paint .yellow "Interrupted, cancelling server-side operation")
  modifyThe Session Session.renew
  match ← withMonitor (m.tryCancel send) with
  | (.ok true, _) => noteLine "Operation cancelled"
  | (.ok false, _) => noteLine "Server did not accept the cancel"
  | (.error _, _) => pure ()
  throw [.text "Interrupted"]

/-- Waits for an operation and prints its result. -/
def runPoll (w : World) (settings : Settings) (a : PollArguments) : Run Unit := do
  let client := Client.connect w.transport settings
  let monitor := client.monitor a.url .anything
  let monitor := { monitor with
    interval := (a.interval.map Duration.ofSeconds).getD monitor.interval }
  if a.cancel then return ← runCancel w client.send monitor a.url
  noteLine s!"Waiting for {w.paint .cyan a.url}..."
  match ← withMonitor (monitor.wait client.send w.looks (a.timeout.map Duration.ofSeconds)) with
  | (.ok (some result), _) => printLine (a.format.render result)
  | (.ok none, _) => printLine (w.paint .brightGreen "Completed")
  | (.error (.failed .cancelled), m) => interrupt w client.send m
  | (.error halt, m) =>
    throw [.text s!"Async operation did not complete ({m.progress.word})", reasonOf halt]

/-! ## All commands -/

/-- The settings that the options and the files give. -/
def settingsFor (sources : Settings.Sources) (g : Globals) : Except (List Reason) Settings := do
  let settings ← match g.config with
    | some path =>
      match Settings.load sources path with
      | .error failure => throw [.text s!"Failed to load config from {path}", .failure failure]
      | .ok settings => (settings.override sources.fullEnvironment).mapError fun failure =>
        [.failure failure]
    | none => (Settings.loadDefault sources).mapError fun failure =>
      [.text "Failed to load default config", .failure failure]
  return { settings with root := g.root.or settings.root }

/-- The files that a command reads. -/
def Command.paths : Command → List String
  | .url _ | .poll _ => []
  | .batch a => [a.file]
  | .decode a => a.file :: a.definition.toList

/-- Runs a command. -/
def runCommand (w : World) (settings : Settings) : Command → Run Unit
  | .url a => runUrl w settings a
  | .batch a => runBatch w settings a
  | .decode a => runDecode w a
  | .poll a => runPoll w settings a

/-- What came of a command line: what was printed, and why it failed, if it did. -/
structure Report where
  printed : Printed
  reasons : Option (List Reason)

/-- Runs the command that the options and words of a command line give.  Styles are
shown only if they are not switched off. -/
def run (w : World) (sources : Settings.Sources) (g : Globals) (c : Command) :
    StateM Session Report := fun s =>
  let w := { w with styled := w.styled && !g.noColor }
  match settingsFor sources g with
  | .error reasons => (⟨⟨"", ""⟩, some reasons⟩, s)
  | .ok settings =>
    match ((runCommand w settings c).run ⟨"", ""⟩).run s with
    | ((.error reasons, printed), s) => (⟨printed, some reasons⟩, s)
    | ((.ok (), printed), s) => (⟨printed, none⟩, s)

end CommandLine
end OData
