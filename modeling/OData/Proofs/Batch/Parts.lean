import OData.Proofs.Batch.Encoding

/-! # The parts of a batch

The part of an operation is written from texts of the operation: its id and its URL, the
names and values of its headers, and the entity tag.  Encoding looks at none of them but
for ids that are repeated.  So a text with a line feed in it is read as two lines
(`encode_part_broken`).  Nothing else does harm: the part is read as it was meant just if
no text that is written holds a line feed (`encode_parts`).
-/
namespace OData

open Text Multipart

namespace Text

variable {c : Char} {l s : List Char} {ls : List (List Char)}

theorem not_mem_of_mem_splitOn (h : l ∈ s.splitOn c) : c ∉ l := by
  induction s generalizing l with
  | nil =>
    rw [List.splitOn_nil, List.mem_singleton] at h
    simp [h]
  | cons x s ih =>
    rw [List.splitOn_cons_eq_if_modifyHead] at h
    split at h
    · rcases List.mem_cons.mp h with rfl | h
      · exact List.not_mem_nil
      · exact ih h
    · next hx =>
      obtain ⟨first, pieces, hsplit⟩ := List.exists_cons_of_ne_nil (List.splitOn_ne_nil c s)
      rw [hsplit, List.modifyHead_cons] at h
      rcases List.mem_cons.mp h with rfl | h
      · have hfirst : c ∉ first := ih (hsplit ▸ List.mem_cons_self ..)
        have hne : c ≠ x := fun he => hx (by simp [he])
        simp [hne, hfirst]
      · exact ih (hsplit ▸ List.mem_cons_of_mem _ h)

theorem mem_of_mem_dropReturn (h : c ∈ dropReturn l) : c ∈ l := by
  rw [dropReturn] at h
  split at h
  · next front hr =>
    have hl : l = front.reverse ++ ['\r'] := by rw [← List.reverse_reverse l, hr]; simp
    rw [hl]
    exact List.mem_append_left _ h
  · exact h

/-- No line has a line feed in it. -/
theorem not_mem_of_mem_lines (h : l ∈ lines s) : '\n' ∉ l := by
  have hpieces : ∀ piece ∈ s.splitOn '\n', '\n' ∉ piece := fun piece => not_mem_of_mem_splitOn
  rw [lines] at h
  generalize s.splitOn '\n' = pieces at h hpieces
  fun_induction lines.go pieces with
  | case1 => cases h
  | case2 last _ => cases h
  | case3 last _ =>
    rw [List.mem_singleton.mp h]
    exact hpieces last (List.mem_singleton_self _)
  | case4 first rest _ ih =>
    rcases List.mem_cons.mp h with rfl | h
    · exact fun hm => hpieces first (List.mem_cons_self ..) (mem_of_mem_dropReturn hm)
    · exact ih h fun piece hp => hpieces piece (List.mem_cons_of_mem _ hp)

end Text

/-! ## Reading a part -/

namespace Operation

variable {op : Operation} {part : List Char}

/-- The lines in front of the request. -/
def partLines (op : Operation) : List String :=
  ["Content-Type: application/http", "Content-Transfer-Encoding: binary", "Content-ID: " ++ op.id]

/-- The part holds the request of the operation, under its id, and nothing else. -/
structure IsReadFrom (op : Operation) (part : List Char) : Prop where
  lines : Text.lines (splitHead part).1 = op.partLines.map String.toList
  headers : Headers.ofBlock (splitHead part).1 = NameMap.ofList
    [("content-type", "application/http"), ("content-transfer-encoding", "binary"),
      ("content-id", trimmed op.id)]
  request : Text.lines (splitHead (splitHead part).2).1 = op.requestLines.map String.toList
  payload : (splitHead (splitHead part).2).2 = op.payload.toList ++ crlf

theorem toList_operationPart_lines (op : Operation) :
    (BatchRequest.operationPart op).toList = messageText (op.partLines.map String.toList)
      (messageText (op.requestLines.map String.toList) (op.payload.toList ++ crlf)) := by
  have hlines : op.sectionFields.map Field.line = op.partLines.map String.toList := by
    simp [sectionFields, partLines, Field.line]
  rw [toList_operationPart, Section.text, requestMessage, hlines]

theorem headers_of_lines {block : List Char}
    (h : Text.lines block = op.partLines.map String.toList) :
    Headers.ofBlock block = NameMap.ofList
      [("content-type", "application/http"), ("content-transfer-encoding", "binary"),
        ("content-id", trimmed op.id)] := by
  have hid : Headers.ofLine? ("Content-ID: " ++ op.id).toList =
      some ("content-id", trimmed op.id) := by
    have hcut : cutFirst? ':' ("Content-ID: " ++ op.id).toList =
        some ("Content-ID".toList, ' ' :: op.id.toList) := by
      rw [show ("Content-ID: " ++ op.id).toList = "Content-ID".toList ++ ':' :: ' ' :: op.id.toList
        by simp]
      exact cutFirst?_joint (by decide)
    rw [Headers.ofLine?, hcut, Option.map_some, trim_cons isBlank_space]
    rfl
  have htype : Headers.ofLine? "Content-Type: application/http".toList =
      some ("content-type", "application/http") := by decide +kernel
  have hencoding : Headers.ofLine? "Content-Transfer-Encoding: binary".toList =
      some ("content-transfer-encoding", "binary") := by decide +kernel
  rw [Headers.ofBlock, h, partLines, List.map_cons, List.map_cons, List.map_cons, List.map_nil,
    List.filterMap_cons_some htype, List.filterMap_cons_some hencoding,
    List.filterMap_cons_some hid, List.filterMap_nil]

theorem Unbroken.isReadFrom (h : op.Unbroken) :
    op.IsReadFrom (BatchRequest.operationPart op).toList := by
  have hpart : ∀ l ∈ op.partLines.map String.toList, l ≠ [] ∧ '\n' ∉ l := by
    intro l hl
    simp only [partLines, List.map_cons, List.map_nil, List.mem_cons, List.not_mem_nil,
      or_false] at hl
    rcases hl with rfl | rfl | rfl
    · decide
    · decide
    · simpa using h.id
  have hsplit := splitHead_messageText hpart
    (messageText (op.requestLines.map String.toList) (op.payload.toList ++ crlf))
  have hrequest := splitHead_messageText h.requestLines (op.payload.toList ++ crlf)
  have hlines := lines_joinLines hpart
  rw [toList_operationPart_lines]
  constructor
  · rw [hsplit, hlines]
  · rw [hsplit]
    exact headers_of_lines hlines
  · rw [hsplit, hrequest, lines_joinLines h.requestLines]
  · rw [hsplit, hrequest]

/-- A part that is read as it was meant has no line feed in any text of the operation. -/
theorem IsReadFrom.unbroken (h : op.IsReadFrom part) : op.Unbroken := by
  have hpart : ∀ s ∈ op.partLines, '\n' ∉ s.toList := fun s hs =>
    not_mem_of_mem_lines (h.lines ▸ List.mem_map_of_mem hs)
  have hrequest : ∀ s ∈ op.requestLines, '\n' ∉ s.toList := fun s hs =>
    not_mem_of_mem_lines (h.request ▸ List.mem_map_of_mem hs)
  refine ⟨?_, ?_, fun e he => ?_, fun etag he => ?_⟩
  · have := hpart ("Content-ID: " ++ op.id) (by simp [partLines])
    simpa using this
  · have := hrequest _ (mem_requestLines.mpr (.inl rfl))
    simp only [String.toList_append, List.mem_append, not_or] at this
    exact this.1.2
  · have := hrequest _ (mem_requestLines.mpr (.inr (.inl ⟨e, he, rfl⟩)))
    simp only [String.toList_append, List.mem_append, not_or] at this
    exact ⟨this.1.1, this.2⟩
  · have := hrequest _ (mem_requestLines.mpr (.inr (.inr (.inl ⟨etag, he, rfl⟩))))
    simp only [String.toList_append, List.mem_append, not_or] at this
    exact this.2

end Operation
/-! ## The parts in the body -/

namespace BatchRequest

variable {boundary : String} {fresh : Nat → String} {used : Nat} {items : List BatchItem}
  {ops : List Operation} {op : Operation} {b : Batch}

theorem part_infix_operationParts (boundary : String) (hop : op ∈ ops) :
    (opening boundary ++ operationPart op).toList <:+: (operationParts boundary ops).toList := by
  obtain ⟨before, after, rfl⟩ := List.append_of_mem hop
  refine ⟨(operationParts boundary before).toList, (operationParts boundary after).toList, ?_⟩
  simp [operationParts, String.toList_join]

/-- The part of each operation stands behind the line of a boundary. -/
theorem part_infix_itemParts (hop : op ∈ items.flatMap BatchItem.operations) :
    ∃ marker, (opening marker ++ operationPart op).toList <:+:
      (itemParts boundary fresh used items).toList := by
  -- What stands in a piece of the body stands in the body.
  have left : ∀ {s t : String} {p : List Char}, p <:+: s.toList → p <:+: (s ++ t).toList := by
    intro s t p hp
    rw [String.toList_append]
    exact hp.trans (List.prefix_append _ _).isInfix
  have right : ∀ {s t : String} {p : List Char}, p <:+: t.toList → p <:+: (s ++ t).toList := by
    intro s t p hp
    rw [String.toList_append]
    exact hp.trans (List.suffix_append _ _).isInfix
  fun_induction itemParts boundary fresh used items with
  | case1 => cases hop
  | case2 used first items ih =>
    rw [List.flatMap_cons, List.mem_append] at hop
    rcases hop with hop | hop
    · obtain rfl := List.mem_singleton.mp hop
      exact ⟨boundary, left (List.infix_refl _)⟩
    · obtain ⟨marker, h⟩ := ih hop
      exact ⟨marker, right h⟩
  | case3 used items ih => exact ih (by simpa [BatchItem.operations] using hop)
  | case4 used ops items _ ih =>
    rw [List.flatMap_cons, List.mem_append] at hop
    rcases hop with hop | hop
    · exact ⟨fresh used, left (right (left (right (part_infix_operationParts _ hop))))⟩
    · obtain ⟨marker, h⟩ := ih hop
      exact ⟨marker, right h⟩

end BatchRequest

/-- **The parts of a batch are read as they were meant just if no text in them holds a
line feed.**  Encoding fails, or it writes a part for each operation.  A part is read as
three header lines and the lines of the request, if neither the id nor the URL, nor the
name or value of a header, nor the entity tag that is sent holds a line feed; else it is
not. -/
theorem encode_parts (b : Batch) (boundary : String) (fresh : Nat → String) :
    (∃ reason, BatchRequest.encode boundary fresh b = .error (.invalidBatch reason)) ∨
    ∃ r, BatchRequest.encode boundary fresh b = .ok r ∧ ∀ op ∈ b.operations,
      (∃ marker, (BatchRequest.opening marker ++ BatchRequest.operationPart op).toList <:+:
        r.body.toList) ∧
      (op.IsReadFrom (BatchRequest.operationPart op).toList ↔ op.Unbroken) := by
  rw [BatchRequest.encode]
  cases b.repeatedId? with
  | some id => exact .inl ⟨_, rfl⟩
  | none =>
    refine .inr ⟨_, rfl, fun op hop => ⟨?_, Operation.IsReadFrom.unbroken,
      Operation.Unbroken.isReadFrom⟩⟩
    obtain ⟨marker, h⟩ := BatchRequest.part_infix_itemParts hop
    refine ⟨marker, h.trans ?_⟩
    rw [String.toList_append]
    exact (List.prefix_append _ _).isInfix

/-- A request with an id of two lines. -/
def Operation.broken : Operation := .get "1\r\nX-Injected: 1" "A"

/-- The id of two lines gives the part a fourth header line. -/
theorem encode_part_broken :
    (BatchRequest.encode "batch_0a" (fun _ => "") (.ofOperations [.broken])).isOk = true ∧
    lines (splitHead (BatchRequest.operationPart .broken).toList).1 =
      ["Content-Type: application/http".toList, "Content-Transfer-Encoding: binary".toList,
        "Content-ID: 1".toList, "X-Injected: 1".toList] ∧
    ¬ Operation.broken.IsReadFrom (BatchRequest.operationPart .broken).toList := by
  refine ⟨by decide +kernel, by decide +kernel, fun h => ?_⟩
  exact absurd h.unbroken.id (by decide)

end OData
