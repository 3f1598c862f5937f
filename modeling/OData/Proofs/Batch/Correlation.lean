import OData.Proofs.Batch.Answer

/-! # Which operation an answer belongs to

Entries of a batch response are attributed to operations one by one, in the order
in which they stand in the body, and are sorted afterwards.  When the entries pair
up with the operations, by the ids that they carry or by their positions, sorting
leaves one result for each operation, in the order of the operations
(`mergeSort_assignFrom_of_ids`, `mergeSort_assignFrom_of_positions`).

`decode_answers` is this fact for whole multipart bodies.
-/
namespace OData

open Text Multipart

namespace BatchResponse

variable {ops : List Operation} {entries own : List BatchEntry}

/-! ## Attributing -/

/-- The results of operations, each with its own entry and under its position. -/
def paired (ops : List Operation) (own : List BatchEntry) : List (Option Nat × OperationResult) :=
  (ops.zip own).zipIdx.map fun x =>
    (some x.2, .forOperation x.1.1 x.1.2.status x.1.2.headers x.1.2.body)

theorem getElem?_paired (ops : List Operation) (own : List BatchEntry) (i : Nat) :
    (paired ops own)[i]? = (ops.zip own)[i]?.map fun p =>
      (some i, .forOperation p.1 p.2.status p.2.headers p.2.body) := by
  simp [paired, List.getElem?_zipIdx, Option.map_map, Function.comp_def]

theorem map_snd_paired (ops : List Operation) (own : List BatchEntry) :
    (paired ops own).map Prod.snd =
      (ops.zip own).map fun p => .forOperation p.1 p.2.status p.2.headers p.2.body := by
  refine List.ext_getElem? fun i => ?_
  rw [List.getElem?_map, getElem?_paired, List.getElem?_map, Option.map_map]
  rfl

theorem assign_of_correlate {e : BatchEntry} {op : Operation} {position i : Nat}
    (hc : correlate ops e.id position = some i) (hop : ops[i]? = some op) :
    assign ops position e = (some i, .forOperation op e.status e.headers e.body) := by
  simp [assign, hc, hop]

/-- With distinct ids the first operation that has an id is the one at its
position. -/
theorem correlate_of_id (distinct : (ops.map Operation.id).Nodup) {op : Operation} {i : Nat}
    (hop : ops[i]? = some op) (position : Nat) :
    correlate ops (some op.id) position = some i := by
  obtain ⟨hi, rfl⟩ := List.getElem?_eq_some_iff.mp hop
  have hfind : ops.findIdx? (fun o => o.id == ops[i].id) = some i := by
    refine List.findIdx?_eq_some_iff_getElem.mpr ⟨hi, by simp, fun j hji => ?_⟩
    have hne := List.pairwise_iff_getElem.mp distinct j i
      (by rw [List.length_map]; omega) (by rwa [List.length_map]) hji
    simpa using hne
  rw [correlate, Option.bind_some, hfind]

theorem correlate_none {position : Nat} (h : position < ops.length) :
    correlate ops none position = some position := by
  simp [correlate, h]

theorem assignFrom_map_some (position : Nat) (entries : List BatchEntry) :
    assignFrom ops position (entries.map some) =
      (entries.zipIdx position).map fun x => assign ops x.2 x.1 := by
  induction entries generalizing position with
  | nil => rfl
  | cons e entries ih => rw [List.map_cons, assignFrom, ih, List.zipIdx_cons, List.map_cons]

/-! ## Sorting -/

theorem precedes_trans (a b c : Option Nat × OperationResult) (hab : precedes a b = true)
    (hbc : precedes b c = true) : precedes a c = true := by
  obtain ⟨a, _⟩ := a
  obtain ⟨b, _⟩ := b
  obtain ⟨c, _⟩ := c
  cases a <;> cases b <;> cases c <;> simp_all [precedes]
  omega

theorem precedes_total (a b : Option Nat × OperationResult) :
    (precedes a b || precedes b a) = true := by
  obtain ⟨a, _⟩ := a
  obtain ⟨b, _⟩ := b
  cases a <;> cases b <;> simp [precedes]
  omega

theorem pairwise_paired (ops : List Operation) (own : List BatchEntry) :
    (paired ops own).Pairwise fun a b => ∃ i j, a.1 = some i ∧ b.1 = some j ∧ i < j := by
  refine List.pairwise_iff_getElem.mpr fun i j hi hj hij => ?_
  have index : ∀ k (hk : k < (paired ops own).length), (paired ops own)[k].1 = some k := by
    intro k hk
    have hp := getElem?_paired ops own k
    rw [List.getElem?_eq_getElem hk] at hp
    obtain ⟨p, _, hp⟩ := Option.map_eq_some_iff.mp hp.symm
    rw [← hp]
  exact ⟨i, j, index i hi, index j hj, hij⟩

/-- Sorting brings paired results into their order from any other. -/
theorem mergeSort_of_perm_paired {l : List (Option Nat × OperationResult)}
    (h : l.Perm (paired ops own)) : l.mergeSort precedes = paired ops own := by
  have hlt := pairwise_paired ops own
  have hsorted := List.pairwise_mergeSort precedes_trans precedes_total l
  refine List.Perm.eq_of_pairwise ?_ hsorted ?_ ((List.mergeSort_perm l _).trans h)
  · -- Two results that precede each other have the same position.
    intro a b ha hb hab hba
    have ha' : a ∈ paired ops own := h.mem_iff.mp (List.mem_mergeSort.mp ha)
    obtain ⟨i, hi, rfl⟩ := List.mem_iff_getElem.mp ha'
    obtain ⟨j, hj, rfl⟩ := List.mem_iff_getElem.mp hb
    have strict := List.pairwise_iff_getElem.mp hlt
    rcases Nat.lt_trichotomy i j with hij | rfl | hij
    · obtain ⟨x, y, hx, hy, hxy⟩ := strict i j hi hj hij
      simp [precedes, hx, hy] at hba
      omega
    · rfl
    · obtain ⟨x, y, hx, hy, hxy⟩ := strict j i hj hi hij
      simp [precedes, hx, hy] at hab
      omega
  · refine hlt.imp ?_
    rintro a b ⟨i, j, hi, hj, hij⟩
    simpa [precedes, hi, hj] using Nat.le_of_lt hij

/-- Results are paired when each entry is attributed to the operation at its own
position. -/
theorem assignFrom_eq_paired (length : own.length = ops.length)
    (h : ∀ i p, (ops.zip own)[i]? = some p → correlate ops p.2.id i = some i) :
    assignFrom ops 0 (own.map some) = paired ops own := by
  rw [assignFrom_map_some]
  refine List.ext_getElem? fun i => ?_
  rw [List.getElem?_map, getElem?_paired, List.getElem?_zipIdx, Option.map_map]
  by_cases hi : i < own.length
  · have hp : (ops.zip own)[i]? = some (ops[i], own[i]) := by
      rw [List.getElem?_zip_eq_some]
      simp [hi, length ▸ hi]
    rw [hp, List.getElem?_eq_getElem hi]
    simpa using assign_of_correlate (h i _ hp) (List.getElem?_eq_getElem (length ▸ hi))
  · rw [List.getElem?_eq_none (by omega), List.getElem?_eq_none (by simp; omega)]
    rfl

/-- Entries that carry the ids of the operations are attributed by these, in
whatever order they come. -/
theorem mergeSort_assignFrom_of_ids (distinct : (ops.map Operation.id).Nodup)
    (perm : own.Perm entries) (length : own.length = ops.length)
    (ids : ∀ p ∈ ops.zip own, p.2.id = some p.1.id) :
    (assignFrom ops 0 (entries.map some)).mergeSort precedes = paired ops own := by
  have hcorrelate : ∀ i p, (ops.zip own)[i]? = some p → ∀ position,
      correlate ops p.2.id position = some i := fun i p hp position =>
    ids p (List.mem_of_getElem? hp) ▸
      correlate_of_id distinct (List.getElem?_zip_eq_some.mp hp).1 position
  -- The position of such an entry does not matter.
  have hassign : ∀ e ∈ own, ∀ position, assign ops position e = assign ops 0 e := by
    intro e he position
    obtain ⟨i, hi, rfl⟩ := List.mem_iff_getElem.mp he
    have hp : (ops.zip own)[i]? = some (ops[i], own[i]) := by
      rw [List.getElem?_zip_eq_some]
      simp [hi, length ▸ hi]
    have hop : ops[i]? = some ops[i] := List.getElem?_eq_getElem (length ▸ hi)
    rw [assign_of_correlate (hcorrelate i _ hp position) hop,
      assign_of_correlate (hcorrelate i _ hp 0) hop]
  -- So attributing maps over the entries, and a permutation of these carries over.
  have hmap : ∀ l : List BatchEntry, (∀ e ∈ l, e ∈ own) →
      assignFrom ops 0 (l.map some) = l.map (assign ops 0) := by
    intro l hl
    rw [assignFrom_map_some]
    refine List.ext_getElem? fun i => ?_
    rw [List.getElem?_map, List.getElem?_map, List.getElem?_zipIdx, Option.map_map]
    cases he : l[i]? with
    | none => rfl
    | some e => simpa using hassign e (hl e (List.mem_of_getElem? he)) i
  refine mergeSort_of_perm_paired ?_
  rw [← assignFrom_eq_paired length fun i p hp => hcorrelate i p hp i,
    hmap own fun _ h => h, hmap entries fun _ h => perm.mem_iff.mpr h]
  exact (perm.map _).symm

/-- Entries that carry no id are attributed by their positions. -/
theorem mergeSort_assignFrom_of_positions (length : own.length = ops.length)
    (ids : ∀ e ∈ own, e.id = none) :
    (assignFrom ops 0 (own.map some)).mergeSort precedes = paired ops own := by
  have hpaired : assignFrom ops 0 (own.map some) = paired ops own := by
    refine assignFrom_eq_paired length fun i p hp => ?_
    obtain ⟨hop, hown⟩ := List.getElem?_zip_eq_some.mp hp
    rw [ids _ (List.mem_of_getElem? hown)]
    exact correlate_none (List.getElem?_eq_some_iff.mp hop).1
  exact mergeSort_of_perm_paired (hpaired ▸ List.Perm.refl _)

/-! ## Whole bodies -/

variable {answers : List Answer} {frame : Frame} {parts : List Section} {contentType : String}

/-- The entries of a multipart body are those of its answers. -/
theorem entries_bodyText (names : Names contentType.toList frame.boundary)
    (separates : frame.Separates parts) (sections : ∀ p ∈ parts, p.WellFormed)
    (messages : messagesOf parts = answers.map Answer.message)
    (wellFormed : ∀ a ∈ answers, a.WellFormed) :
    BatchResponse.entries contentType (String.ofList (bodyText frame parts)) =
      .ok ((answers.map Answer.entry).map some) := by
  rw [BatchResponse.entries, boundary?_of_names separates.boundary names]
  refine congrArg Except.ok ?_
  rw [multipartEntries, String.toList_ofList, leaves_bodyText separates sections, messages,
    List.map_map, List.map_map, List.map_map]
  exact List.map_congr_left fun a ha => Answer.ofLeaf?_message (wellFormed a ha)

theorem decode_of_entries {body : String} (h : BatchResponse.entries contentType body =
      .ok (entries.map some))
    (hs : (assignFrom ops 0 (entries.map some)).mergeSort precedes = paired ops own) :
    decode ops contentType body =
      .ok ⟨(ops.zip own).map fun p => .forOperation p.1 p.2.status p.2.headers p.2.body⟩ := by
  rw [decode, h]
  change Except.ok (BatchResponse.mk _) = _
  rw [hs, map_snd_paired]

end BatchResponse

/-- An id that does not start or end with an angle bracket. -/
def BareId (id : String) : Prop :=
  (∀ c ∈ id.toList.head?, c ≠ '<' ∧ c ≠ '>') ∧ ∀ c ∈ id.toList.getLast?, c ≠ '<' ∧ c ≠ '>'

instance (id : String) : Decidable (BareId id) := inferInstanceAs (Decidable (_ ∧ _))

theorem bareId_of_bare {id : String} (h : BareId id) : BatchEntry.bareId id = id := by
  rw [BatchEntry.bareId, dropAround_eq_self, String.ofList_toList]
  · intro c hc
    simpa using h.1 c hc
  · intro c hc
    simpa using h.2 c hc

theorem bareId_of_angled {id : String} (h : BareId id) :
    BatchEntry.bareId ("<" ++ id ++ ">") = id := by
  have hd : (id.toList ++ ['>']).dropWhile (fun c => c == '<' || c == '>') =
      id.toList ++ if id.toList = [] then [] else ['>'] := by
    cases hid : id.toList with
    | nil => simp
    | cons c s =>
      have hc := h.1 c (by rw [hid]; rfl)
      rw [List.cons_append, List.dropWhile_cons_of_neg (by simp [hc])]
      simp
  have hl : ("<" ++ id ++ ">").toList = '<' :: (id.toList ++ ['>']) := by simp
  rw [BatchEntry.bareId, hl, dropAround, List.dropWhile_cons_of_pos (by simp), hd,
    dropEndWhile_append, String.ofList_toList]
  · intro c hc
    simpa using h.2 c hc
  · intro c hc
    split at hc
    · cases hc
    · simp [List.mem_singleton.mp hc]

theorem Answer.IsFor.entry_id {a : Answer} {id : String} (h : a.IsFor id) (hid : BareId id) :
    a.entry.id = some id := by
  rcases h with h | h
  · rw [Answer.entry, h, Option.map_some, bareId_of_bare hid]
  · rw [Answer.entry, h, Option.map_some, bareId_of_angled hid]

/-- What a result says about an operation and the answer to it. -/
def OperationResult.told (r : OperationResult) : String × Nat × Headers × String :=
  (r.operation, r.status, r.headers, r.body)

/-- **Each operation gets its own answer.**  The body may group the answers in any
way.  If the answers carry the ids of the operations, then they may stand in any
order: `own` has them in the order of the operations.  If no answer carries an id,
then the answers stand in the order of the operations. -/
theorem decode_answers {ops : List Operation} {answers : List Answer} {frame : Frame}
    {parts : List Section} {contentType : String} (distinct : (ops.map Operation.id).Nodup)
    (bare : ∀ op ∈ ops, BareId op.id) (names : Names contentType.toList frame.boundary)
    (separates : frame.Separates parts) (sections : ∀ p ∈ parts, p.WellFormed)
    (messages : messagesOf parts = answers.map Answer.message)
    (wellFormed : ∀ a ∈ answers, a.WellFormed) (length : answers.length = ops.length) :
    (∀ own : List Answer, own.Perm answers → (∀ p ∈ ops.zip own, p.2.IsFor p.1.id) →
      ∃ r, BatchResponse.decode ops contentType (String.ofList (bodyText frame parts)) = .ok r ∧
        r.results.map OperationResult.told =
          (ops.zip own).map fun p => (p.1.id, p.2.status, p.2.headers, p.2.body)) ∧
    ((∀ a ∈ answers, a.id? = none) →
      ∃ r, BatchResponse.decode ops contentType (String.ofList (bodyText frame parts)) = .ok r ∧
        r.results.map OperationResult.told =
          (ops.zip answers).map fun p => (p.1.id, p.2.status, p.2.headers, p.2.body)) := by
  have hentries := BatchResponse.entries_bodyText names separates sections messages wellFormed
  have htold : ∀ own : List Answer,
      ((ops.zip (own.map Answer.entry)).map fun p => OperationResult.forOperation p.1 p.2.status
        p.2.headers p.2.body).map OperationResult.told =
      (ops.zip own).map fun p => (p.1.id, p.2.status, p.2.headers, p.2.body) := by
    intro own
    rw [List.zip_map_right, List.map_map, List.map_map]
    rfl
  constructor
  · intro own perm ids
    refine ⟨_, BatchResponse.decode_of_entries hentries
      (BatchResponse.mergeSort_assignFrom_of_ids distinct (perm.map Answer.entry) ?_ ?_),
      htold own⟩
    · simpa [perm.length_eq] using length
    · intro p hp
      rw [List.zip_map_right] at hp
      obtain ⟨q, hq, rfl⟩ := List.mem_map.mp hp
      exact (ids q hq).entry_id (bare _ (List.of_mem_zip hq).1)
  · intro ids
    refine ⟨_, BatchResponse.decode_of_entries hentries
      (BatchResponse.mergeSort_assignFrom_of_positions ?_ ?_), htold answers⟩
    · simpa using length
    · intro e he
      obtain ⟨a, ha, rfl⟩ := List.mem_map.mp he
      simp [Answer.entry, ids a ha]

/-- An answer in the form in which services write it, with an id in angle brackets. -/
def Answer.usual (id : String) (status : Nat) (body : String) : Answer where
  sectionFields := [⟨"Content-Type", " application/http"⟩, ⟨"Content-ID", " <" ++ id ++ ">"⟩]
  version := "1.1"
  status := status
  reason := " OK"
  fields := [⟨"Content-Type", " text/plain"⟩]
  body := body

/-- A group with the answer to the second operation, in front of the answer to the
first. -/
theorem decode_answers_nested :
    ∃ r, BatchResponse.decode [.get "1" "A", .get "2" "B"] "multipart/mixed; boundary=outer"
        (String.ofList (bodyText ⟨"outer".toList, [], []⟩
          [.group [⟨"Content-Type", " multipart/mixed; boundary=inner"⟩] ⟨"inner".toList, [], []⟩
            [.message (Answer.usual "2" 404 "none").message],
          .message (Answer.usual "1" 200 "").message])) = .ok r ∧
      r.results.map OperationResult.told =
        [("1", 200, (Answer.usual "1" 200 "").headers, ""),
          ("2", 404, (Answer.usual "2" 404 "none").headers, "none")] := by
  have message : ∀ a ∈ [Answer.usual "2" 404 "none", Answer.usual "1" 200 ""],
      (Section.message a.message).WellFormed := by
    intro a ha
    have type : (Headers.ofFields a.message.fields).get? "content-type" =
        some "application/http" := by
      revert a
      decide +kernel
    refine .message ?_ (fun t ht => ?_) ?_ ?_
    · revert a
      decide +kernel
    · obtain rfl : "application/http" = t := Option.some.inj (type.symm.trans ht)
      decide +kernel
    · revert a
      decide +kernel
    · revert a
      decide +kernel
  have group : (Section.group [⟨"Content-Type", " multipart/mixed; boundary=inner"⟩]
      ⟨"inner".toList, [], []⟩ [.message (Answer.usual "2" 404 "none").message]).WellFormed := by
    refine .group (t := "multipart/mixed; boundary=inner") (by decide +kernel) (by decide +kernel)
      (by decide +kernel) (names_mixed _) ?_ (by decide) ?_
    · exact ⟨by decide +kernel, by decide +kernel, by decide, by decide +kernel, by decide +kernel⟩
    · simpa using message _ (List.mem_cons_self ..)
  have messages : messagesOf [.group [⟨"Content-Type", " multipart/mixed; boundary=inner"⟩]
      ⟨"inner".toList, [], []⟩ [.message (Answer.usual "2" 404 "none").message],
      .message (Answer.usual "1" 200 "").message] =
      [Answer.usual "2" 404 "none", Answer.usual "1" 200 ""].map Answer.message := rfl
  refine (decode_answers (by decide) ?_ (names_mixed _) ?_ ?_ messages (by decide +kernel) rfl).1
      [Answer.usual "1" 200 "", Answer.usual "2" 404 "none"] (List.Perm.swap _ _ _) ?_
  · decide +kernel
  · exact ⟨by decide +kernel, by decide +kernel, by decide, by decide +kernel, by decide +kernel⟩
  · simpa using ⟨group, message _ (by simp)⟩
  · decide +kernel

end OData
