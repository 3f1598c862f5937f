import OData.Proofs.Batch.Order
import OData.Proofs.Batch.Success
import OData.Proofs.Client.Paging

/-! # What results say of themselves

The fields of a result are not independent of each other.  `OperationResult.Consistent` says
how they hang together, given the operation that the result belongs to, if there is one:
the status decides between data and an error, the operation says which data are wanted,
and only an operation's result can report that the service holds another version.

Both forms of batch responses and single requests make results in the same way, so the law
holds wherever a result comes from (`BatchResponse.decode_consistent`).  The one thing it takes
is that no header stands there twice: both readers of entries write names in lower case
(`BatchResponse.lower_of_mem_readable`).
-/
namespace OData

/-! ## Names in lower case -/

namespace Headers
variable {h : Headers} {name value : String}

/-- No name has an upper-case letter. -/
def Lower (h : Headers) : Prop := ∀ a, h.Has a → lowercased a = a

theorem Lower.onePerName (lower : h.Lower) : h.OnePerName := by
  refine onePerName_iff.mpr fun a b ha hb hsame => ?_
  rw [← lower a ha, ← lower b hb]
  exact sameIgnoringCase_iff.mp hsame

theorem lower_ofList {entries : List (String × String)}
    (lower : ∀ e ∈ entries, lowercased e.1 = e.1) : Lower (NameMap.ofList entries) := by
  rintro a ⟨value, hvalue⟩
  have hvalue : Entries.get? a (Entries.ofList entries) = some value := hvalue
  rw [Entries.get?_ofList] at hvalue
  obtain ⟨e, he, rfl⟩ := NameMap.has_entries.mp ⟨value, hvalue⟩
  exact lower e (List.mem_reverse.mp he)

theorem lower_ofBlock (block : List Char) : Lower (ofBlock block) := by
  refine lower_ofList fun e he => ?_
  obtain ⟨line, -, hline⟩ := List.mem_filterMap.mp he
  obtain ⟨p, -, rfl⟩ := Option.map_eq_some_iff.mp hline
  have hname : String.ofList (Text.asciiLower (Text.trim p.1)) = lowercased (trimmed
      (String.ofList p.1)) := by
    rw [lowercased, trimmed, String.toList_ofList, String.toList_ofList]
  rw [hname]
  exact lowercased_lowercased _

/-- A look-up in any case finds the header that has the name in some case. -/
theorem getIgnoringCase?_eq_some_iff (one : h.OnePerName) :
    h.getIgnoringCase? name = some value ↔
      ∃ a, sameIgnoringCase a name = true ∧ h.get? a = some value := by
  rw [getIgnoringCase?, entryIgnoringCase?, Option.map_eq_some_iff]
  constructor
  · rintro ⟨e, hfind, rfl⟩
    exact ⟨e.1, by simpa using List.find?_some hfind,
      NameMap.get?_eq_some_iff.mpr (List.mem_of_find?_eq_some hfind)⟩
  · rintro ⟨a, hsame, hvalue⟩
    -- The header is alone under its name, so it is the first one.
    refine ⟨(a, value), ?_, rfl⟩
    rw [← List.head?_filter, one.filter_eq hvalue hsame]
    rfl

end Headers

/-! ## Results -/

/-- The fields of a result agree with each other and with the operation that the result
belongs to. -/
structure OperationResult.Consistent (op? : Option Operation) (r : OperationResult) : Prop where
  success : r.success = true ↔ 200 ≤ r.status ∧ r.status < 300
  /-- A failure has an error, which is the body; a success has none. -/
  error : ∀ text, r.error = some text ↔ r.success = false ∧ text = r.body
  /-- A success has data if its operation says what it expects and the body is that. -/
  data : ∀ j, r.data = some j ↔ r.success = true ∧ ∃ op ∈ op?, ∃ shape ∈ op.expects,
    blank r.body = false ∧ Json.read? r.body = some j ∧ ∃ v, shape.read? j = some v
  /-- A refused version is reported with both versions: the one that an update or a deletion
  carries, and the one in the header for it, whatever the case of its name. -/
  conflict : ∀ c, r.conflict = some c ↔ r.status = 412 ∧ ∃ op ∈ op?,
    (∀ tag, c.expected = some tag ↔
      (op.kind = .update ∨ op.kind = .delete) ∧ op.etag = some tag) ∧
    ∀ tag, c.current = some tag ↔
      ∃ name, sameIgnoringCase name "ETag" = true ∧ r.headers.get? name = some tag

namespace OperationResult
variable {op : Operation} {op? : Option Operation} {r : OperationResult} {headers : Headers}
  {body : String} {shape : Shape} {status : Nat} {j : Json}

theorem dataOf?_eq_some_iff : dataOf? body shape = some j ↔
    blank body = false ∧ Json.read? body = some j ∧ ∃ v, shape.read? j = some v := by
  rw [dataOf?]
  cases blank body with
  | true => simp
  | false =>
    simp only [Bool.false_eq_true, if_false, Option.bind_eq_some_iff, true_and,
      ← Option.isSome_iff_exists]
    constructor
    · rintro ⟨v, hread, hv⟩
      split at hv
      · next hshape =>
        obtain rfl := Option.some.inj hv
        exact ⟨hread, hshape⟩
      · cases hv
    · rintro ⟨hread, hshape⟩
      exact ⟨j, hread, if_pos hshape⟩

theorem ofResponse_success (operation : String) (status : Nat) (headers : Headers) (body : String)
    (expects : Option Shape) : (ofResponse operation status headers body expects).success = true ↔
      200 ≤ status ∧ status < 300 :=
  BatchResponse.isSuccessStatus_iff

theorem ofResponse_error (operation : String) (status : Nat) (headers : Headers) (body : String)
    (expects : Option Shape) (text : String) :
    (ofResponse operation status headers body expects).error = some text ↔
      (ofResponse operation status headers body expects).success = false ∧ text = body := by
  simp only [ofResponse]
  cases isSuccessStatus status <;> simp [eq_comm]

theorem ofResponse_data (operation : String) (status : Nat) (headers : Headers) (body : String)
    (expects : Option Shape) (j : Json) :
    (ofResponse operation status headers body expects).data = some j ↔
      (ofResponse operation status headers body expects).success = true ∧ ∃ shape ∈ expects,
        blank body = false ∧ Json.read? body = some j ∧ ∃ v, shape.read? j = some v := by
  simp only [ofResponse]
  cases isSuccessStatus status with
  | false => simp
  | true => simp only [if_true, true_and, Option.bind_eq_some_iff, dataOf?_eq_some_iff,
      Option.mem_def]

theorem ifMatch_eq_some_iff {tag : String} : op.ifMatch = some tag ↔
    (op.kind = .update ∨ op.kind = .delete) ∧ op.etag = some tag := by
  rw [Operation.ifMatch]
  cases op.kind <;> simp [OperationKind.usesEtag]

/-- What a result reports of versions is settled by its status, its operation and its
headers. -/
theorem forOperation_conflict (one : headers.OnePerName) (c : EtagConflict) :
    (forOperation op status headers body).conflict = some c ↔ status = 412 ∧
      (∀ tag, c.expected = some tag ↔
        (op.kind = .update ∨ op.kind = .delete) ∧ op.etag = some tag) ∧
      ∀ tag, c.current = some tag ↔
        ∃ name, sameIgnoringCase name "ETag" = true ∧ headers.get? name = some tag := by
  simp only [forOperation, ← ifMatch_eq_some_iff, ← Headers.getIgnoringCase?_eq_some_iff one]
  by_cases h : status = 412
  · rw [if_pos h, Option.some.injEq]
    constructor
    · rintro rfl
      exact ⟨h, fun _ => Iff.rfl, fun _ => Iff.rfl⟩
    · rintro ⟨-, hexpected, hcurrent⟩
      obtain ⟨expected, current⟩ := c
      rw [EtagConflict.mk.injEq]
      exact ⟨(Option.ext hexpected).symm, (Option.ext hcurrent).symm⟩
  · simp [h]

theorem consistent_forOperation (op : Operation) (status : Nat) (body : String)
    (one : headers.OnePerName) :
    (forOperation op status headers body).Consistent (some op) where
  success := ofResponse_success op.id status headers body op.expects
  error := ofResponse_error op.id status headers body op.expects
  data j := by
    simp only [Option.mem_def, Option.some.injEq, exists_eq_left']
    exact ofResponse_data op.id status headers body op.expects j
  conflict c := by
    simp only [Option.mem_def, Option.some.injEq, exists_eq_left']
    exact forOperation_conflict one c

theorem consistent_ofResponse (operation : String) (status : Nat) (headers : Headers)
    (body : String) : (ofResponse operation status headers body none).Consistent none where
  success := ofResponse_success operation status headers body none
  error := ofResponse_error operation status headers body none
  data j := by simpa using ofResponse_data operation status headers body none j
  conflict c := by simp [ofResponse]

/-- A refused version is no success. -/
theorem Consistent.isError_of_isConflict (h : r.Consistent op?) (conflict : r.isConflict = true) :
    r.isError = true := by
  obtain ⟨c, hc⟩ := Option.isSome_iff_exists.mp conflict
  obtain ⟨hstatus, -⟩ := (h.conflict c).mp hc
  rw [isError, Bool.not_eq_true', ← Bool.not_eq_true, h.success]
  omega

end OperationResult

/-! ## Single requests -/

namespace Client
variable {c : Client} {op : Operation} {response : Response} {s s' : Session}

/-- Of an operation that is sent alone the result is what a batch would give, but a refused
version is a failure. -/
theorem run_perform (sent : (c.send (c.operationRequest op)).run.run s = (.ok response, s')) :
    (c.perform op).run.run s = (match (response.resultFor op).conflict with
      | some conflict => .error (.failed (.conflict conflict.expected conflict.current))
      | none => .ok (response.resultFor op), s') := by
  rw [perform, InSession.run_bind_ok sent, resultOf]
  cases (response.resultFor op).conflict <;> rfl

end Client

/-! ## Batches -/

namespace BatchEntry
variable {leaf : Multipart.Leaf} {e : BatchEntry} {j : Json}

theorem lower_of_ofLeaf? (h : ofLeaf? leaf = some e) : e.headers.Lower := by
  simp only [ofLeaf?, Option.bind_eq_bind, Option.bind_eq_some_iff, Option.pure_def,
    Option.some.injEq] at h
  obtain ⟨http, -, status, -, rfl⟩ := h
  exact Headers.lower_ofBlock _

theorem lower_headersOfJson (j : Option Json) : (headersOfJson j).Lower := by
  rw [headersOfJson.eq_def]
  split
  · refine Headers.lower_ofList fun e he => ?_
    obtain ⟨m, -, hm⟩ := List.mem_filterMap.mp he
    obtain ⟨v, -, rfl⟩ := Option.map_eq_some_iff.mp hm
    exact lowercased_lowercased m.1
  · rintro a ⟨value, hvalue⟩
    cases hvalue

theorem lower_of_ofJson? (h : ofJson? j = some e) : e.headers.Lower := by
  simp only [ofJson?, Option.bind_eq_bind, Option.bind_eq_some_iff, Option.pure_def,
    Option.some.injEq] at h
  obtain ⟨status, -, rfl⟩ := h
  exact lower_headersOfJson _

end BatchEntry

namespace BatchResponse
variable {ops : List Operation} {es : List (Option BatchEntry)} {contentType body : String}
  {r : BatchResponse} {e : BatchEntry} {i : Nat}

/-- Both forms of responses give headers under lower-case names. -/
theorem lower_of_mem_readable (h : entries contentType body = .ok es)
    (he : (i, e) ∈ readable es) : e.headers.Lower := by
  have hmem : some e ∈ es := List.mem_of_getElem? (mem_readable.mp he)
  rw [entries] at h
  split at h
  · obtain rfl := Except.ok.inj h
    obtain ⟨leaf, -, hleaf⟩ := List.mem_map.mp hmem
    exact BatchEntry.lower_of_ofLeaf? hleaf
  · obtain ⟨-, items, -, -, rfl⟩ := exists_of_jsonEntries h
    obtain ⟨item, -, hitem⟩ := List.mem_map.mp hmem
    exact BatchEntry.lower_of_ofJson? hitem

/-- The operation to which an entry is attributed, if there is one. -/
def operation? (ops : List Operation) (i : Nat) (e : BatchEntry) : Option Operation :=
  (assign ops i e).1.bind fun k => ops[k]?

/-- An entry gives the result of its operation, or one of which no operation is known. -/
theorem assign_snd_cases (ops : List Operation) (i : Nat) (e : BatchEntry) :
    (∃ op, operation? ops i e = some op ∧
      (assign ops i e).2 = .forOperation op e.status e.headers e.body) ∨
    operation? ops i e = none ∧ ∃ id,
      (assign ops i e).2 = .ofResponse id e.status e.headers e.body none := by
  rw [operation?, assign_fst]
  cases hop : (correlate ops e.id i).bind fun k => ops[k]? with
  | some op => exact .inl ⟨op, rfl, by simp [assign, hop]⟩
  | none =>
    refine .inr ⟨rfl, e.id.getD (toString i), ?_⟩
    simp only [assign, hop]

theorem consistent_assign (ops : List Operation) (i : Nat) (one : e.headers.OnePerName) :
    (assign ops i e).2.Consistent (operation? ops i e) := by
  rcases assign_snd_cases ops i e with ⟨op, hop, hresult⟩ | ⟨hop, id, hresult⟩
  · rw [hop, hresult]
    exact OperationResult.consistent_forOperation op e.status e.body one
  · rw [hop, hresult]
    exact OperationResult.consistent_ofResponse id e.status e.headers e.body

/-- A result keeps what its entry says. -/
theorem kept_assign (ops : List Operation) (i : Nat) (e : BatchEntry) :
    (assign ops i e).2.status = e.status ∧ (assign ops i e).2.headers = e.headers ∧
      (assign ops i e).2.body = e.body := by
  rcases assign_snd_cases ops i e with ⟨op, -, hresult⟩ | ⟨-, id, hresult⟩
  · rw [hresult]
    exact ⟨rfl, rfl, rfl⟩
  · rw [hresult]
    exact ⟨rfl, rfl, rfl⟩

/-- The successes and the failures are all the results. -/
theorem succeeded_append_failed_perm (r : BatchResponse) :
    (r.succeeded ++ r.failed).Perm r.results :=
  List.filter_append_perm OperationResult.success r.results

theorem not_mem_failed_of_mem_succeeded {x : OperationResult} (h : x ∈ r.succeeded) :
    x ∉ r.failed := by
  intro hfailed
  have hsuccess : x.success = true := (List.mem_filter.mp h).2
  have herror : x.isError = true := (List.mem_filter.mp hfailed).2
  simp [OperationResult.isError, hsuccess] at herror

/-- Refused versions are among the failures if the results are consistent. -/
theorem conflicts_sublist_failed (h : ∀ x ∈ r.results, ∃ op?, x.Consistent op?) :
    r.conflicts.Sublist r.failed := by
  have hconflicts : r.conflicts = r.failed.filter OperationResult.isConflict := by
    rw [conflicts, failed, List.filter_filter]
    refine List.filter_congr fun x hx => ?_
    obtain ⟨op?, hconsistent⟩ := h x hx
    cases hconflict : x.isConflict with
    | false => simp
    | true => simp [hconsistent.isError_of_isConflict hconflict]
  rw [hconflicts]
  exact List.filter_sublist

/-- **Results are consistent**, in whichever form the response came.  There is one result for
each entry that could be read, and it agrees with the entry and with the operation to
which that is attributed.  The same answer to this operation alone gives the same result, or
fails with the same two versions if the result reports them.  So successes and failures
split the results, and refused versions are failures. -/
theorem decode_consistent {ops : List Operation} {contentType body : String} {r : BatchResponse}
    (decoded : decode ops contentType body = .ok r) :
    (∃ es, entries contentType body = .ok es ∧
      r.results.Perm ((readable es).map fun x => (assign ops x.1 x.2).2) ∧
      ∀ i e, (i, e) ∈ readable es →
        ((assign ops i e).2.status = e.status ∧ (assign ops i e).2.headers = e.headers ∧
          (assign ops i e).2.body = e.body) ∧
        (assign ops i e).2.Consistent (operation? ops i e) ∧
        ∀ op ∈ operation? ops i e, ∀ (c : Client) (s s' : Session),
          (c.send (c.operationRequest op)).run.run s =
            (.ok ⟨e.status, e.headers, e.body⟩, s') →
          (c.perform op).run.run s = (match (assign ops i e).2.conflict with
            | some conflict => .error (.failed (.conflict conflict.expected conflict.current))
            | none => .ok (assign ops i e).2, s')) ∧
    (r.succeeded ++ r.failed).Perm r.results ∧ (∀ x ∈ r.succeeded, x ∉ r.failed) ∧
    r.conflicts.Sublist r.failed := by
  obtain ⟨es, hes, hperm⟩ := exists_results_perm decoded
  have hconsistent : ∀ i e, (i, e) ∈ readable es →
      (assign ops i e).2.Consistent (operation? ops i e) := fun i e he =>
    consistent_assign ops i (lower_of_mem_readable hes he).onePerName
  refine ⟨⟨es, hes, hperm, fun i e he => ⟨kept_assign ops i e, hconsistent i e he, ?_⟩⟩,
    succeeded_append_failed_perm r, fun x => not_mem_failed_of_mem_succeeded, ?_⟩
  · intro op hop c s s' sent
    have hresult : (assign ops i e).2 = .forOperation op e.status e.headers e.body := by
      rcases assign_snd_cases ops i e with ⟨op', hop', hresult⟩ | ⟨hnone, -⟩
      · obtain rfl := Option.some.inj (hop'.symm.trans hop)
        exact hresult
      · cases hnone.symm.trans hop
    rw [hresult]
    exact Client.run_perform sent
  · refine conflicts_sublist_failed fun x hx => ?_
    obtain ⟨⟨i, e⟩, he, rfl⟩ := List.mem_map.mp (hperm.mem_iff.mp hx)
    exact ⟨_, hconsistent i e he⟩

/-- An update that holds for one version of a note only. -/
def noteUpdate : Operation :=
  { Operation.ofKind "a" .update "Notes(1)" with body := some .null, etag := some "W/1" }

/-- A response that reports another version of the note, and holds an entry to which no
operation belongs. -/
def refusedThenUnasked : Json :=
  .object [("responses", .array [
    .object [("headers", .object [("eTAG", .text "W/2")]), ("id", .text "a"), ("status", .int 412)],
    .object [("status", .int 200)]])]

theorem entries_refusedThenUnasked :
    entries "application/json" refusedThenUnasked.compact =
      .ok [some ⟨some "a", 412, NameMap.ofList [("etag", "W/2")], ""⟩,
        some ⟨none, 200, ∅, ""⟩] := by
  have text : Json.read? refusedThenUnasked.compact = some refusedThenUnasked := by
    decide +kernel
  rw [entries_of_json (by decide +kernel) text rfl]
  exact congrArg Except.ok (by decide +kernel)

/-- The update is reported with both versions, and alone it fails with these; the other
result belongs to no operation. -/
theorem decode_consistent_refused :
    ∃ r es e, decode [noteUpdate] "application/json" refusedThenUnasked.compact = .ok r ∧
      entries "application/json" refusedThenUnasked.compact = .ok es ∧ (0, e) ∈ readable es ∧
      (assign [noteUpdate] 0 e).2.conflict = some ⟨some "W/1", some "W/2"⟩ ∧
      (∀ (c : Client) (s s' : Session),
        (c.send (c.operationRequest noteUpdate)).run.run s =
          (.ok ⟨412, NameMap.ofList [("etag", "W/2")], ""⟩, s') →
        (c.perform noteUpdate).run.run s =
          (.error (.failed (.conflict (some "W/1") (some "W/2"))), s')) ∧
      (r.succeeded ++ r.failed).Perm r.results ∧ r.conflicts.Sublist r.failed := by
  have decoded : decode [noteUpdate] "application/json" refusedThenUnasked.compact = .ok _ :=
    decode_of_ok entries_refusedThenUnasked
  obtain ⟨⟨es, hes, -, hall⟩, hsplit, -, hconflicts⟩ := decode_consistent decoded
  obtain rfl := Except.ok.inj (entries_refusedThenUnasked.symm.trans hes)
  have hmem : (0, ⟨some "a", 412, NameMap.ofList [("etag", "W/2")], ""⟩) ∈
      readable [some ⟨some "a", 412, NameMap.ofList [("etag", "W/2")], ""⟩,
        some ⟨none, 200, ∅, ""⟩] := mem_readable.mpr rfl
  have hconflict : (assign [noteUpdate] 0 ⟨some "a", 412, NameMap.ofList [("etag", "W/2")],
      ""⟩).2.conflict = some ⟨some "W/1", some "W/2"⟩ := by decide +kernel
  obtain ⟨-, -, halone⟩ := hall _ _ hmem
  refine ⟨_, _, _, decoded, hes, hmem, hconflict, fun c s s' sent => ?_, hsplit, hconflicts⟩
  have hop : operation? [noteUpdate] 0 ⟨some "a", 412, NameMap.ofList [("etag", "W/2")], ""⟩ =
      some noteUpdate := by
    have hindex : (assign [noteUpdate] 0 ⟨some "a", 412, NameMap.ofList [("etag", "W/2")],
        ""⟩).1 = some 0 := by decide +kernel
    rw [operation?, hindex]
    rfl
  rw [halone noteUpdate hop c s s' sent, hconflict]

end BatchResponse
end OData
