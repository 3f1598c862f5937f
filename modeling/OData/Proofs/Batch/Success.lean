import OData.Proofs.Batch.Attribution
import OData.Proofs.CommandLine.Exit

/-! # What a fully successful response says

A response is fully successful when all its results are, and its results are those of the
entries that could be read (`allSucceeded_iff`).  So every operation to which an entry was
attributed has a result that reports a success, and the command that sent the batch ends
well: `answered_of_allSucceeded`.  An operation to which no entry was attributed has no
result at all, and no one asks for it: `succeeds_unanswered` is a response that leaves
an operation without an answer and is fully successful.
-/
namespace OData
namespace BatchResponse

variable {ops : List Operation} {es : List (Option BatchEntry)} {e : BatchEntry}
  {r : BatchResponse} {op : Operation} {i k : Nat}

theorem hasErrors_eq_not_allSucceeded (r : BatchResponse) : r.hasErrors = !r.allSucceeded := by
  rw [hasErrors, allSucceeded, List.not_all_eq_any_not]
  rfl

theorem success_assign (ops : List Operation) (i : Nat) (e : BatchEntry) :
    (assign ops i e).2.success = isSuccessStatus e.status := by
  rw [assign]
  split <;> rfl

theorem isSuccessStatus_iff {status : Nat} :
    isSuccessStatus status = true ↔ 200 ≤ status ∧ status < 300 := by
  simp [isSuccessStatus]

/-- A response is fully successful just if every entry that could be read reports a
success. -/
theorem allSucceeded_iff
    (h : r.results.Perm ((readable es).map fun x => (assign ops x.1 x.2).2)) :
    r.allSucceeded = true ↔ ∀ i e, (i, e) ∈ readable es → 200 ≤ e.status ∧ e.status < 300 := by
  rw [allSucceeded, List.all_eq_true]
  constructor
  · intro hall i e he
    have hmem : (assign ops i e).2 ∈ r.results :=
      h.mem_iff.mpr (List.mem_map.mpr ⟨(i, e), he, rfl⟩)
    have hsuccess := hall _ hmem
    rw [success_assign] at hsuccess
    exact isSuccessStatus_iff.mp hsuccess
  · intro hall x hx
    obtain ⟨⟨i, e⟩, he, rfl⟩ := List.mem_map.mp (h.mem_iff.mp hx)
    rw [success_assign]
    exact isSuccessStatus_iff.mpr (hall i e he)

/-- **A fully successful response answers with success whatever it answers.**  Its
results are those of the entries that could be read, all of them successes; each operation
to which an entry is attributed is among them, and the command that sent the batch does
not fail. -/
theorem answered_of_allSucceeded {b : Batch} {contentType body : String} {r : BatchResponse}
    (decoded : decode b.operations contentType body = .ok r) (succeeded : r.allSucceeded = true) :
    r.hasErrors = false ∧
    (∃ es, entries contentType body = .ok es ∧
      r.results.Perm ((readable es).map fun x => (assign b.operations x.1 x.2).2) ∧
      (∀ i e, (i, e) ∈ readable es → 200 ≤ e.status ∧ e.status < 300) ∧
      ∀ i e k op, (i, e) ∈ readable es → b.operations[k]? = some op →
        (assign b.operations i e).1 = some k →
        ∃ x ∈ r.results, x.operation = op.id ∧ 200 ≤ x.status ∧ x.status < 300) ∧
    ∀ (w : CommandLine.World) (settings : Settings) (a : CommandLine.BatchArguments) (text : String)
      (p : CommandLine.Printed) (s s' : Session), a.send = true → w.file? a.file = some text →
      BatchDefinition.read? w.freshId text = some b → b.isEmpty = false →
      ((Client.connect w.transport settings).performBatch w.boundary w.innerBoundary
        b).run.run s = (.ok r, s') →
      ∃ p', ((CommandLine.runBatch w settings a).run.run p).run s = ((.ok (), p'), s') := by
  have hasErrors : r.hasErrors = false := by rw [hasErrors_eq_not_allSucceeded, succeeded]; rfl
  obtain ⟨es, hes, hperm⟩ := exists_results_perm decoded
  have hsuccess := (allSucceeded_iff hperm).mp succeeded
  refine ⟨hasErrors, ⟨es, hes, hperm, hsuccess, ?_⟩, ?_⟩
  · intro i e k op he hop hassign
    have hmem : (assign b.operations i e).2 ∈ r.results :=
      hperm.mem_iff.mpr (List.mem_map.mpr ⟨(i, e), he, rfl⟩)
    refine ⟨_, hmem, ?_, ?_⟩
    · rw [assign_snd hassign hop]
      rfl
    · rw [status_assign]
      exact hsuccess i e he
  · intro w settings a text p s s' send file described nonempty sent
    obtain ⟨p', hrun⟩ := CommandLine.run_runBatch_sent (p := p) send file described nonempty sent
    rw [hasErrors] at hrun
    exact ⟨p', hrun⟩

/-- A response with an answer to the operation `a`, and an entry for the operation `b`
that lacks a status. -/
def answeredThenSkipped : Json :=
  .object [("responses", .array [.object [("id", .text "a"), ("status", .int 204)],
    .object [("id", .text "b")]])]

theorem decode_answeredThenSkipped :
    decode [.get "a" "A", .get "b" "B"] "application/json" answeredThenSkipped.compact =
      .ok ⟨[.forOperation (.get "a" "A") 204 ∅ ""]⟩ := by
  have text : Json.read? answeredThenSkipped.compact = some answeredThenSkipped := by
    decide +kernel
  have hes : entries "application/json" answeredThenSkipped.compact =
      .ok [some ⟨some "a", 204, ∅, ""⟩, none] := by
    rw [entries_of_json (by decide +kernel) text rfl]
    exact congrArg Except.ok (by decide +kernel)
  exact decode_of_pairwise hes (List.pairwise_singleton _ _)

/-- The operation `a` has its result. -/
theorem answered_of_allSucceeded_skipped :
    ∃ r, decode (Batch.ofOperations [.get "a" "A", .get "b" "B"]).operations "application/json"
        answeredThenSkipped.compact = .ok r ∧ r.allSucceeded = true ∧ r.hasErrors = false ∧
      ∃ es, entries "application/json" answeredThenSkipped.compact = .ok es ∧
        ∀ i e k op, (i, e) ∈ readable es → [Operation.get "a" "A", .get "b" "B"][k]? = some op →
          (assign [.get "a" "A", .get "b" "B"] i e).1 = some k →
          ∃ x ∈ r.results, x.operation = op.id ∧ 200 ≤ x.status ∧ x.status < 300 := by
  obtain ⟨herrors, ⟨es, hes, -, -, hanswered⟩, -⟩ := answered_of_allSucceeded
    (b := Batch.ofOperations [.get "a" "A", .get "b" "B"]) decode_answeredThenSkipped rfl
  exact ⟨_, decode_answeredThenSkipped, rfl, herrors, es, hes, hanswered⟩

/-- The response is fully successful although the operation `b` has no result. -/
theorem succeeds_unanswered :
    ∃ request r, BatchRequest.encode "outer" (fun _ => "inner")
        (Batch.ofOperations [.get "a" "A", .get "b" "B"]) = .ok request ∧
      decode (Batch.ofOperations [.get "a" "A", .get "b" "B"]).operations "application/json"
        answeredThenSkipped.compact = .ok r ∧
      r.allSucceeded = true ∧ r.hasErrors = false ∧
      .get "b" "B" ∈ (Batch.ofOperations [.get "a" "A", .get "b" "B"]).operations ∧
      ∀ x ∈ r.results, x.operation ≠ "b" := by
  refine ⟨_, _, rfl, decode_answeredThenSkipped, rfl, rfl, ?_, ?_⟩
  · exact List.mem_cons_of_mem _ (List.mem_cons_self ..)
  · intro x hx
    obtain rfl := List.mem_singleton.mp hx
    decide

end BatchResponse
end OData
