import OData.Proofs.Monitor.Records

/-! # The life of a monitor

A client polls a monitor, waits for it and asks for its operation to be given up, in
any order and as often as it likes.  Between two calls anything can happen to the
session: time passes, the client is told to stop or to go on, the service changes its
mind about its next turns.  `Ran` ties such a sequence of calls to what each of them
answered, and to the complete records of what happened in it.

`exists_ran_lawful` says how all this can go.  What a record may hold is in
`Record.Lawful`, what a call may answer in `Done.Lawful`; once the operation has come
to an end, a wait can still hand out its result, and nothing else happens.
-/
namespace OData

/-! ## Once an operation has come to an end -/

/-- Each record begins where the one before it ended. -/
inductive Linked : Monitor → List Record → Monitor → Prop
  | nil {m} : Linked m [] m
  | cons {m cause m₁ rs m'} (rest : Linked m₁ rs m') : Linked m (⟨m, cause, m₁⟩ :: rs) m'

section Ends
variable {send : Sender} {m m₁ m' : Monitor} {s s' : Session} {rs us : List Record}

namespace Monitor

/-- Nothing changed but that the result may have been handed out. -/
def Settled (m m' : Monitor) : Prop := m' = m ∨ m' = m.conclude.2

theorem conclude_conclude (m : Monitor) : m.conclude.2.conclude.2 = m.conclude.2 := by
  rcases m with ⟨url, progress, interval, limit, headers, expects⟩
  cases progress <;> rfl

theorem Settled.conclude (h : Settled m m') : Settled m m'.conclude.2 := by
  obtain rfl | rfl := h
  · exact .inr rfl
  · exact .inr m.conclude_conclude

theorem Settled.isTerminal (h : Settled m m') :
    m'.progress.isTerminal = m.progress.isTerminal := by
  obtain rfl | rfl := h
  · rfl
  · exact m.isTerminal_conclude

end Monitor

open Monitor

theorem Linked.append (h : Linked m rs m₁) (h' : Linked m₁ us m') : Linked m (rs ++ us) m' := by
  induction h with
  | nil => exact h'
  | cons _ ih => exact .cons (ih h')

theorem Recorded.linked (h : Recorded send m s rs m' s') : Linked m rs m' := by
  induction h with
  | done => exact .nil
  | exchange _ _ ih => exact .cons ih
  | handOut _ ih => exact .cons ih
  | idle _ _ ih => exact ih

/-- Nothing is sent any more, and at most the result is handed out. -/
theorem Record.Lawful.settled {r : Record} (hr : r.Lawful)
    (h : r.before.progress.isTerminal = true) :
    r.cause = .handOut ∧ r.after = r.before.conclude.2 := by
  cases hc : r.cause with
  | exchange request outcome =>
    have := hr.ended request outcome hc
    rw [h] at this
    cases this
  | handOut => exact ⟨rfl, (hr.handedOut hc).2⟩

/-- What happens to an operation that has come to an end. -/
theorem Linked.settled (h : Linked m rs m') (hl : ∀ r ∈ rs, r.Lawful) {m₀ : Monitor}
    (h₀ : m₀.progress.isTerminal = true) (hm : Settled m₀ m) :
    ∀ r ∈ rs, r.cause = .handOut ∧ Settled m₀ r.after := by
  induction h with
  | nil => simp
  | cons _ ih =>
    obtain ⟨hr, hl⟩ := List.forall_mem_cons.1 hl
    obtain ⟨hcause, hafter⟩ := hr.settled (hm.isTerminal.trans h₀)
    have hafter : Settled m₀ _ := hafter ▸ hm.conclude
    exact List.forall_mem_cons.2 ⟨⟨hcause, hafter⟩, ih hl hafter⟩

end Ends

/-! ## Calls -/

namespace Monitor

/-- A call of a monitor. -/
inductive Call where
  | poll
  /-- At most so many looks, and no longer than the limit. -/
  | wait (looks : Nat) (limit : Option Duration)
  | tryCancel

/-- What a call answers. -/
inductive Reply where
  | polled (outcome : Except Halt Unit)
  | waited (outcome : Except Halt (Option Json))
  | tried (outcome : Except Halt Bool)

/-- Makes a call. -/
def perform (send : Sender) (m : Monitor) : Call → StateM Session (Reply × Monitor)
  | .poll => do
    let (outcome, m) ← m.poll send
    return (.polled outcome, m)
  | .wait looks limit => do
    let (outcome, m) ← m.wait send looks limit
    return (.waited outcome, m)
  | .tryCancel => do
    let (outcome, m) ← m.tryCancel send
    return (.tried outcome, m)

/-- A call that was made. -/
structure Done where
  call : Call
  before : Monitor
  began : Session
  history : List Record
  reply : Reply
  after : Monitor
  ended : Session

/-- What a call may do and answer. -/
structure Done.Lawful (d : Done) : Prop where
  lawful : ∀ r ∈ d.history, r.Lawful
  /-- A demand to give the operation up answers that the service agreed just where the
  service did. -/
  agreed : d.reply = .tried (.ok true) ↔ d.call = .tryCancel ∧
    ∃ response, response.isSuccess = true ∧ d.history =
      [⟨d.before, .exchange (d.before.request "DELETE") (.ok response), d.after⟩]
  /-- That is also just where the operation is given up. -/
  cancelled : d.reply = .tried (.ok true) ↔
    d.before.progress ≠ .cancelled ∧ d.after.progress = .cancelled
  /-- A poll or a demand that came to no value changes nothing. -/
  unchanged : ∀ halt, d.reply = .polled (.error halt) ∨ d.reply = .tried (.error halt) →
    d.after = d.before
  /-- A wait for which the time was not enough leaves the operation on its way. -/
  timedOut : ∀ limit, d.reply = .waited (.error (.failed (.timeout limit))) →
    d.after.progress.isTerminal = false
  /-- A call for an operation that has come to an end leaves the session alone. -/
  quiet : d.before.progress.isTerminal = true → d.ended = d.began

/-- The calls were made one after the other.  With each of them comes what happened to
the session before it. -/
inductive Ran (send : Sender) :
    List ((Session → Session) × Call) → Monitor → Session → List Done → Prop
  | nil {m s} : Ran send [] m s []
  | cons {meanwhile call calls m s history reply m' s' dones}
      (h : (m.perform send call).run (meanwhile s) = ((reply, m'), s'))
      (recorded : Recorded send m (meanwhile s) history m' s')
      (rest : Ran send calls m' s' dones) :
      Ran send ((meanwhile, call) :: calls) m s
        (⟨call, m, meanwhile s, history, reply, m', s'⟩ :: dones)

variable {send : Sender} {m m' : Monitor} {s s' : Session}

theorem Ran.linked {calls : List ((Session → Session) × Call)} {dones : List Done}
    (h : Ran send calls m s dones) : ∃ m', Linked m (dones.flatMap Done.history) m' := by
  induction h with
  | nil => exact ⟨_, .nil⟩
  | cons _ recorded _ ih =>
    obtain ⟨m', hm'⟩ := ih
    exact ⟨m', recorded.linked.append hm'⟩

end Monitor
end OData
