import OData.Proofs.Batch.Correlation

/-! # Which entries an operation can get

Any text may come back for a batch, and decoding it gives one result for each entry
that could be read (`exists_results_perm`).  An entry goes to the operation whose id it
names, and one that names no operation goes by its position; `assign_fst_iff` says this
of distinct ids.  The two rules can meet: an entry without an id may stand at the
position of an operation that another entry names.  They cannot meet otherwise, which is
`exists_attributions`, and `position_meets_id` is a response in which they do.
-/
namespace OData

/-- The entry names none of the operations: it has no id, or one that is not theirs. -/
def BatchEntry.NamesNone (ops : List Operation) (e : BatchEntry) : Prop :=
  ∀ op ∈ ops, e.id ≠ some op.id

namespace BatchResponse

variable {ops : List Operation} {es : List (Option BatchEntry)} {contentType body : String}
  {r : BatchResponse} {e : BatchEntry} {op : Operation} {id : Option String} {i k position : Nat}

/-! ## Decoding -/

/-- The entries that could be read, each with its position. -/
def readable (es : List (Option BatchEntry)) : List (Nat × BatchEntry) :=
  es.zipIdx.filterMap fun x => x.1.map fun e => (x.2, e)

theorem mem_readable : (i, e) ∈ readable es ↔ es[i]? = some (some e) := by
  rw [readable, List.mem_filterMap]
  constructor
  · rintro ⟨⟨entry, j⟩, hmem, heq⟩
    obtain ⟨e', rfl, hpair⟩ := Option.map_eq_some_iff.mp heq
    obtain ⟨rfl, rfl⟩ := Prod.mk.inj hpair
    exact List.mem_zipIdx_iff_getElem?.mp hmem
  · intro h
    exact ⟨(some e, i), List.mem_zipIdx_iff_getElem?.mpr h, rfl⟩

theorem assignFrom_eq_map (ops : List Operation) (position : Nat)
    (es : List (Option BatchEntry)) :
    assignFrom ops position es = ((es.zipIdx position).filterMap fun x =>
      x.1.map fun e => (x.2, e)).map fun x => assign ops x.1 x.2 := by
  induction es generalizing position with
  | nil => rfl
  | cons entry es ih =>
    rw [List.zipIdx_cons]
    cases entry with
    | none =>
      rw [assignFrom, ih]
      rfl
    | some e =>
      rw [assignFrom, ih]
      rfl

theorem decode_of_ok (h : entries contentType body = .ok es) :
    decode ops contentType body =
      .ok ⟨((assignFrom ops 0 es).mergeSort precedes).map Prod.snd⟩ := by
  rw [decode, h]
  rfl

/-- Results are sorted, and none gets lost. -/
theorem sorted_perm (ops : List Operation) (es : List (Option BatchEntry)) :
    (((assignFrom ops 0 es).mergeSort precedes).map Prod.snd).Perm
      ((readable es).map fun x => (assign ops x.1 x.2).2) := by
  have hmap : (assignFrom ops 0 es).map Prod.snd =
      (readable es).map fun x => (assign ops x.1 x.2).2 := by
    rw [assignFrom_eq_map, List.map_map]
    rfl
  exact hmap ▸ (List.mergeSort_perm (assignFrom ops 0 es) precedes).map Prod.snd

/-- The results of a response are those of the entries that could be read, one for
each. -/
theorem exists_results_perm (h : decode ops contentType body = .ok r) :
    ∃ es, entries contentType body = .ok es ∧
      r.results.Perm ((readable es).map fun x => (assign ops x.1 x.2).2) := by
  cases hes : entries contentType body with
  | error failure =>
    rw [decode, hes] at h
    cases h
  | ok es =>
    rw [decode_of_ok hes] at h
    obtain rfl := Except.ok.inj h
    exact ⟨es, rfl, sorted_perm ops es⟩

/-- Results that come in order stay in it. -/
theorem decode_of_pairwise (h : entries contentType body = .ok es)
    (sorted : (assignFrom ops 0 es).Pairwise fun a b => precedes a b = true) :
    decode ops contentType body = .ok ⟨(assignFrom ops 0 es).map Prod.snd⟩ := by
  rw [decode_of_ok h, List.mergeSort_of_pairwise sorted]

/-- A JSON text whose value has a list of responses. -/
theorem entries_of_json {j : Json} {items : List Json}
    (type : Multipart.boundary? contentType.toList = none) (text : Json.read? body = some j)
    (responses : (j.member? "responses").bind Json.items? = some items) :
    entries contentType body = .ok (items.map BatchEntry.ofJson?) := by
  rw [entries, type]
  dsimp only
  rw [jsonEntries, text]
  dsimp only
  rw [responses]

/-! ## Attributing -/

theorem assign_fst (ops : List Operation) (position : Nat) (e : BatchEntry) :
    (assign ops position e).1 = correlate ops e.id position := by
  rw [assign]
  split <;> rfl

theorem status_assign (ops : List Operation) (i : Nat) (e : BatchEntry) :
    (assign ops i e).2.status = e.status := by
  rw [assign]
  split <;> rfl

/-- The result of an entry that is attributed to an operation. -/
theorem assign_snd (h : (assign ops position e).1 = some k) (hop : ops[k]? = some op) :
    (assign ops position e).2 = .forOperation op e.status e.headers e.body := by
  rw [assign_fst] at h
  rw [assign_of_correlate h hop]

/-- An operation gets an entry by its id, or by the position of an entry that names no
operation. -/
theorem correlate_cases (h : correlate ops id position = some k) :
    (∃ op, ops[k]? = some op ∧ id = some op.id) ∨
      position = k ∧ k < ops.length ∧ ∀ op ∈ ops, id ≠ some op.id := by
  rw [correlate] at h
  split at h
  · next index hfind =>
    obtain rfl := Option.some.inj h
    obtain ⟨id, rfl, hfind⟩ := Option.bind_eq_some_iff.mp hfind
    obtain ⟨hk, hid, -⟩ := List.findIdx?_eq_some_iff_getElem.mp hfind
    refine .inl ⟨ops[index], List.getElem?_eq_getElem hk, congrArg some ?_⟩
    exact (eq_of_beq hid).symm
  · next hfind =>
    split at h
    · next hlt =>
      obtain rfl := Option.some.inj h
      refine .inr ⟨rfl, hlt, ?_⟩
      rintro op hop rfl
      rw [Option.bind_some, List.findIdx?_eq_none_iff] at hfind
      simpa using hfind op hop
    · cases h

theorem namesNone_iff : e.NamesNone ops ↔
    (e.id.bind fun id => ops.findIdx? fun op => op.id == id) = none := by
  rw [BatchEntry.NamesNone, Option.bind_eq_none_iff]
  constructor
  · intro h id hid
    rw [List.findIdx?_eq_none_iff]
    intro op hop
    simpa using fun heq => h op hop (hid.trans (congrArg some heq.symm))
  · intro h op hop hid
    have hnone := List.findIdx?_eq_none_iff.mp (h op.id hid) op hop
    simp at hnone

theorem correlate_of_namesNone (h : e.NamesNone ops) (hlt : position < ops.length) :
    correlate ops e.id position = some position := by
  rw [correlate, namesNone_iff.mp h]
  exact if_pos hlt

/-- **The rule of attribution.**  With distinct ids an operation gets the entries that
carry its id, and an entry at its own position that names no operation. -/
theorem assign_fst_iff (distinct : (ops.map Operation.id).Nodup) (hop : ops[k]? = some op) :
    (assign ops position e).1 = some k ↔
      e.id = some op.id ∨ position = k ∧ e.NamesNone ops := by
  rw [assign_fst]
  constructor
  · intro h
    rcases correlate_cases h with ⟨op', hop', hid⟩ | ⟨hposition, _, hnone⟩
    · obtain rfl := Option.some.inj (hop.symm.trans hop')
      exact .inl hid
    · exact .inr ⟨hposition, hnone⟩
  · rintro (hid | ⟨rfl, hnone⟩)
    · rw [hid]
      exact correlate_of_id distinct hop position
    · exact correlate_of_namesNone hnone (List.getElem?_eq_some_iff.mp hop).1

/-! ## Two entries for one operation -/

/-- **Attributions meet only where an id meets a position.**  Of two entries that are
attributed to one operation, both carry its id, or one does and the other, which names no
operation, stands at its position.  An entry that names no operation can thus get in
the way of another only there. -/
theorem exists_attributions {ops : List Operation} {contentType body : String}
    {r : BatchResponse} (distinct : (ops.map Operation.id).Nodup)
    (decoded : decode ops contentType body = .ok r) :
    ∃ es, entries contentType body = .ok es ∧
      r.results.Perm ((readable es).map fun x => (assign ops x.1 x.2).2) ∧
      (∀ i e k op, (i, e) ∈ readable es → ops[k]? = some op →
        ((assign ops i e).1 = some k ↔ e.id = some op.id ∨ i = k ∧ e.NamesNone ops)) ∧
      ∀ i e j e' k op, (i, e) ∈ readable es → (j, e') ∈ readable es → i ≠ j →
        ops[k]? = some op → (assign ops i e).1 = some k → (assign ops j e').1 = some k →
        (e.id = some op.id ∧ e'.id = some op.id) ∨
          (e.id = some op.id ∧ j = k ∧ e'.NamesNone ops) ∨
          (e'.id = some op.id ∧ i = k ∧ e.NamesNone ops) := by
  obtain ⟨es, hes, hperm⟩ := exists_results_perm decoded
  refine ⟨es, hes, hperm, fun i e k op _ hop => assign_fst_iff distinct hop, ?_⟩
  intro i e j e' k op _ _ hij hop hi hj
  rcases (assign_fst_iff distinct hop).mp hi with hid | ⟨hik, hnone⟩
  · rcases (assign_fst_iff distinct hop).mp hj with hid' | hposition
    · exact .inl ⟨hid, hid'⟩
    · exact .inr (.inl ⟨hid, hposition⟩)
  · rcases (assign_fst_iff distinct hop).mp hj with hid' | ⟨hjk, _⟩
    · exact .inr (.inr ⟨hid', hik, hnone⟩)
    · -- Two entries do not stand at one position.
      exact absurd (hik.trans hjk.symm) hij

/-- A response with an entry that names the operation `b` and, behind it, one without
an id. -/
def namedThenUnnamed : Json :=
  .object [("responses", .array [.object [("id", .text "b"), ("status", .int 200)],
    .object [("status", .int 500)]])]

theorem entries_namedThenUnnamed :
    entries "application/json" namedThenUnnamed.compact =
      .ok [some ⟨some "b", 200, ∅, ""⟩, some ⟨none, 500, ∅, ""⟩] := by
  have text : Json.read? namedThenUnnamed.compact = some namedThenUnnamed := by decide +kernel
  rw [entries_of_json (by decide +kernel) text rfl]
  exact congrArg Except.ok (by decide +kernel)

theorem decode_namedThenUnnamed :
    decode [.get "a" "A", .get "b" "B"] "application/json" namedThenUnnamed.compact =
      .ok ⟨[.forOperation (.get "b" "B") 200 ∅ "", .forOperation (.get "b" "B") 500 ∅ ""]⟩ := by
  refine decode_of_pairwise entries_namedThenUnnamed ?_
  exact List.pairwise_pair.mpr (by decide +kernel)

/-- The operation `b` gets both entries: the first by its id, the second by its
position. -/
theorem exists_attributions_named :
    ([.get "a" "A", .get "b" "B"].map Operation.id).Nodup ∧
    ∃ r es, decode [.get "a" "A", .get "b" "B"] "application/json"
        namedThenUnnamed.compact = .ok r ∧
      entries "application/json" namedThenUnnamed.compact = .ok es ∧
      ∀ i e, (i, e) ∈ readable es →
        ((assign [.get "a" "A", .get "b" "B"] i e).1 = some 1 ↔
          e.id = some "b" ∨ i = 1 ∧ e.NamesNone [.get "a" "A", .get "b" "B"]) := by
  obtain ⟨es, hes, -, hrule, -⟩ := exists_attributions (by decide) decode_namedThenUnnamed
  exact ⟨by decide, _, es, decode_namedThenUnnamed, hes,
    fun i e he => hrule i e 1 (.get "b" "B") he rfl⟩

/-- Here the two rules meet: the second entry carries no id, and both results are
those of the operation `b`, which the first one names. -/
theorem position_meets_id :
    ([.get "a" "A", .get "b" "B"].map Operation.id).Nodup ∧
    ∃ r es e e', decode [.get "a" "A", .get "b" "B"] "application/json"
        namedThenUnnamed.compact = .ok r ∧
      entries "application/json" namedThenUnnamed.compact = .ok es ∧
      (0, e) ∈ readable es ∧ (1, e') ∈ readable es ∧
      (assign [.get "a" "A", .get "b" "B"] 0 e).1 = some 1 ∧
      (assign [.get "a" "A", .get "b" "B"] 1 e').1 = some 1 ∧
      e.id = some "b" ∧ e'.id = none ∧
      r.results.map (fun x => (x.operation, x.status)) = [("b", 200), ("b", 500)] := by
  refine ⟨by decide, _, _, _, _, decode_namedThenUnnamed, entries_namedThenUnnamed,
    mem_readable.mpr rfl, mem_readable.mpr rfl, ?_, ?_, rfl, rfl, rfl⟩
  · decide +kernel
  · decide +kernel

end BatchResponse
end OData
