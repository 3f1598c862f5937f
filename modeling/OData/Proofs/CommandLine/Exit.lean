import OData.CommandLine.Run

/-! # How a sent batch ends the command

A command that sends a batch prints what came of each operation and then fails just if
one of the results is an error (`run_runBatch_sent`).  Printing has no say in that:
`Prints` names what comes to a value and leaves the session alone, and it is closed under
doing one thing after the other.
-/
namespace OData
namespace CommandLine

open Run

/-- Something that prints at most: it does not fail, and the session stays as it is. -/
def Prints (act : Run Unit) : Prop :=
  ∀ p s, ∃ p', (act.run.run p).run s = ((.ok (), p'), s)

section
variable {α β : Type} {act : Run α} {next : α → Run β} {a : α} {p p' : Printed} {s s' : Session}

/-- What follows something that came to a value goes on from there. -/
theorem run_bind_of_ok (h : (act.run.run p).run s = ((.ok a, p'), s')) :
    ((act >>= next).run.run p).run s = ((next a).run.run p').run s' := by
  have h : act.run p s = ((.ok a, p'), s') := h
  change (ExceptT.bindCont next (act.run p s).1.1).run (act.run p s).1.2 (act.run p s).2 = _
  rw [h]
  rfl

theorem Prints.bind {act next : Run Unit} (h : Prints act) (h' : Prints next) :
    Prints (act >>= fun _ => next) := by
  intro p s
  obtain ⟨p₁, hact⟩ := h p s
  obtain ⟨p₂, hnext⟩ := h' p₁ s
  exact ⟨p₂, (run_bind_of_ok hact).trans hnext⟩

theorem prints_pure : Prints (pure ()) := fun p _ => ⟨p, rfl⟩

theorem prints_printLine (text : String) : Prints (printLine text) := fun _ _ => ⟨_, rfl⟩

theorem prints_noteLine (text : String) : Prints (noteLine text) := fun _ _ => ⟨_, rfl⟩

theorem prints_forM {γ : Type} {f : γ → Run Unit} (h : ∀ x, Prints (f x)) (l : List γ) :
    Prints (l.forM f) := by
  induction l with
  | nil => exact prints_pure
  | cons x l ih => exact (h x).bind ih

end

theorem prints_printResult (w : World) (bodies : Bool) (r : OperationResult) :
    Prints (printResult w bodies r) := by
  rw [printResult]
  refine (prints_printLine _).bind ?_
  split
  · exact prints_printLine _
  · exact prints_printLine _
  · split
    · exact prints_printLine _
    · exact prints_pure

theorem prints_printResponse (w : World) (bodies : Bool) (r : BatchResponse) :
    Prints (printResponse w bodies r) :=
  (prints_forM (prints_printResult w bodies) r.results).bind
    ((prints_printLine "").bind (prints_printLine _))

variable {w : World} {settings : Settings} {a : BatchArguments} {b : Batch} {r : BatchResponse}
  {text : String} {p : Printed} {s s' : Session}

theorem run_readBatch (file : w.file? a.file = some text)
    (described : BatchDefinition.read? w.freshId text = some b) :
    ((readBatch w a.file).run.run p).run s = ((.ok b, p), s) := by
  rw [readBatch, file]
  dsimp only
  rw [described]
  rfl

/-- What was asked in the session and came to a value. -/
theorem run_ask {α : Type} {act : InSession α} {x : α} (context : List Reason) (p : Printed)
    (h : act.run.run s = (.ok x, s')) : ((ask context act).run.run p).run s = ((.ok x, p), s') := by
  have lifted : (((act.run : StateM Session _) : Run (Except Halt α)).run.run p).run s =
      ((.ok (act.run.run s).1, p), (act.run.run s).2) := rfl
  rw [h] at lifted
  rw [ask, run_bind_of_ok lifted]
  rfl

/-- Once the answer to a batch is decoded, the command fails just if a result is an
error. -/
theorem run_runBatch_sent (send : a.send = true) (file : w.file? a.file = some text)
    (described : BatchDefinition.read? w.freshId text = some b) (nonempty : b.isEmpty = false)
    (sent : ((Client.connect w.transport settings).performBatch w.boundary w.innerBoundary
      b).run.run s = (.ok r, s')) :
    ∃ p', ((runBatch w settings a).run.run p).run s =
      ((if r.hasErrors then .error [.text s!"{r.failed.length} operations failed"] else .ok (),
        p'), s') := by
  obtain ⟨p₁, hnote⟩ := prints_noteLine
    s!"Sending {w.paint .cyan (toString b.size)} operations..." p s
  have hask := run_ask [.text "Batch request failed"] p₁ sent
  obtain ⟨p₂, hprint⟩ := prints_printResponse w a.bodies r p₁ s'
  refine ⟨p₂, ?_⟩
  rw [runBatch, run_bind_of_ok (run_readBatch file described)]
  dsimp only
  rw [if_neg (by simp [nonempty]), send, if_neg (by simp), run_bind_of_ok hnote,
    run_bind_of_ok hask, run_bind_of_ok hprint]
  cases r.hasErrors <;> rfl

end CommandLine
end OData
