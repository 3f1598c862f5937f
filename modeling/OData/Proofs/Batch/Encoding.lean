import Mathlib.Data.List.Infix
import OData.Batch.Request
import OData.Proofs.Multipart.Sections

/-! # Reading an encoded batch back

The body of a batch request is the multipart body of a list of sections, one for
each operation that stands alone and one group for each change set with operations
(`toList_body`).  The sections are well formed and hold no delimiter that is not
their own, so the reader of multipart bodies finds the operations in them again
(`encode_round_trip`).
-/
namespace OData

open Text Multipart

/-! ## Requests of operations -/

namespace Operation

/-- The precondition of the request.  Only a change to an entity has one. -/
def ifMatchLines (op : Operation) : List String :=
  match op.kind, op.etag with
  | .update, some etag | .delete, some etag => ["If-Match: " ++ etag]
  | _, _ => []

/-- The content type of a body, unless the operation has a header for it already. -/
def contentTypeLines (op : Operation) : List String :=
  match op.kind with
  | .create | .update =>
    if ∃ h ∈ op.headers.entries, lowercased h.1 = "content-type" then []
    else ["Content-Type: application/json; type=entry"]
  | .get | .delete => []

/-- The lines in front of the body of the request. -/
def requestLines (op : Operation) : List String :=
  (op.method ++ " " ++ op.url ++ " HTTP/1.1") ::
    (op.headers.entries.map (fun h => h.1 ++ ": " ++ h.2) ++ op.ifMatchLines ++
      op.contentTypeLines)

/-- What follows the blank line, without the line end that closes the section. -/
def payload (op : Operation) : String :=
  match op.kind with
  | .create | .update => op.bodyText ++ "\r\n"
  | .get | .delete => ""

/-- An operation whose texts are lines. -/
structure Writable (op : Operation) : Prop where
  id : OneLine op.id.toList
  id_trimmed : Trimmed op.id.toList
  url : OneLine op.url.toList
  headers : ∀ h ∈ op.headers.entries, OneLine h.1.toList ∧ OneLine h.2.toList
  etag : ∀ etag ∈ op.etag, OneLine etag.toList

instance (op : Operation) : Decidable op.Writable :=
  decidable_of_iff (OneLine op.id.toList ∧ Trimmed op.id.toList ∧ OneLine op.url.toList ∧
      (∀ h ∈ op.headers.entries, OneLine h.1.toList ∧ OneLine h.2.toList) ∧
      ∀ etag ∈ op.etag, OneLine etag.toList)
    ⟨fun ⟨h1, h2, h3, h4, h5⟩ => ⟨h1, h2, h3, h4, h5⟩,
      fun ⟨h1, h2, h3, h4, h5⟩ => ⟨h1, h2, h3, h4, h5⟩⟩

/-- The delimiter of a boundary occurs in no text of the operation. -/
structure Avoids (op : Operation) (boundary : String) : Prop where
  id : ¬ delimiter boundary.toList <:+: op.id.toList
  url : ¬ delimiter boundary.toList <:+: op.url.toList
  headers : ∀ h ∈ op.headers.entries, ¬ delimiter boundary.toList <:+: h.1.toList ∧
    ¬ delimiter boundary.toList <:+: h.2.toList
  etag : ∀ etag ∈ op.etag, ¬ delimiter boundary.toList <:+: etag.toList
  body : ¬ delimiter boundary.toList <:+: op.bodyText.toList

instance (op : Operation) (boundary : String) : Decidable (op.Avoids boundary) :=
  decidable_of_iff (¬ delimiter boundary.toList <:+: op.id.toList ∧
      ¬ delimiter boundary.toList <:+: op.url.toList ∧
      (∀ h ∈ op.headers.entries, ¬ delimiter boundary.toList <:+: h.1.toList ∧
        ¬ delimiter boundary.toList <:+: h.2.toList) ∧
      (∀ etag ∈ op.etag, ¬ delimiter boundary.toList <:+: etag.toList) ∧
      ¬ delimiter boundary.toList <:+: op.bodyText.toList)
    ⟨fun ⟨h1, h2, h3, h4, h5⟩ => ⟨h1, h2, h3, h4, h5⟩,
      fun ⟨h1, h2, h3, h4, h5⟩ => ⟨h1, h2, h3, h4, h5⟩⟩

/-- The fields of the section of an operation. -/
def sectionFields (op : Operation) : List Field :=
  [⟨"Content-Type", " application/http"⟩, ⟨"Content-Transfer-Encoding", " binary"⟩,
    ⟨"Content-ID", " " ++ op.id⟩]

/-- The section of an operation. -/
def requestMessage (op : Operation) : Message where
  fields := op.sectionFields
  content := messageText (op.requestLines.map String.toList) (op.payload.toList ++ crlf)

variable {op : Operation}

/-! ### The section as it is written -/

theorem contentTypeLines_eq (op : Operation) : op.contentTypeLines =
    if op.kind.hasBody && !op.headers.hasIgnoringCase "content-type" then
      ["Content-Type: application/json; type=entry"] else [] := by
  have hhas : op.headers.hasIgnoringCase "content-type" = true ↔
      ∃ h ∈ op.headers.entries, lowercased h.1 = "content-type" := by
    have hl : asciiLower "content-type".toList = "content-type".toList := by decide
    simp only [Headers.hasIgnoringCase, Headers.entryIgnoringCase?, List.find?_isSome,
      sameIgnoringCase, beq_iff_eq, hl, lowercased]
    refine exists_congr fun h => and_congr_right fun _ => ?_
    rw [← String.toList_inj]
    simp
  rw [contentTypeLines]
  cases op.kind <;> simp [OperationKind.hasBody, ← hhas]
  all_goals split <;> simp_all

theorem ifMatchLines_eq (op : Operation) :
    op.ifMatchLines = (op.ifMatch.map fun etag => "If-Match: " ++ etag).toList := by
  rw [ifMatch, ifMatchLines]
  cases op.kind <;> cases op.etag <;> rfl

theorem map_requestHeaders (op : Operation) :
    (BatchRequest.requestHeaders op).map (fun h => h.1 ++ ": " ++ h.2) =
      op.headers.entries.map (fun h => h.1 ++ ": " ++ h.2) ++ op.ifMatchLines ++
        op.contentTypeLines := by
  have hmatch : (op.ifMatch.map fun etag => ("If-Match", etag)).toList.map
      (fun h : String × String => h.1 ++ ": " ++ h.2) = op.ifMatchLines := by
    rw [ifMatchLines_eq]
    cases op.ifMatch <;> rfl
  rw [BatchRequest.requestHeaders, List.map_append, List.map_append, hmatch, contentTypeLines_eq]
  congr 1
  split <;> simp

@[simp] theorem toList_line (text : String) :
    (BatchRequest.line text).toList = text.toList ++ crlf := by
  simp [BatchRequest.line, crlf]

theorem toList_join_lines (ls : List String) :
    (String.join (ls.map BatchRequest.line)).toList =
      (ls.map String.toList).flatMap (· ++ crlf) := by
  simp [String.toList_join, List.flatMap_map]

theorem toList_requestLines (op : Operation) :
    (BatchRequest.line (op.method ++ " " ++ op.url ++ " HTTP/1.1")).toList ++
        (String.join ((BatchRequest.requestHeaders op).map fun h =>
          BatchRequest.headerLine h.1 h.2)).toList =
      (op.requestLines.map String.toList).flatMap (· ++ crlf) := by
  have hlines : ((BatchRequest.requestHeaders op).map fun h => BatchRequest.headerLine h.1 h.2) =
      ((BatchRequest.requestHeaders op).map fun h => h.1 ++ ": " ++ h.2).map
        BatchRequest.line := by
    rw [List.map_map]
    rfl
  rw [hlines, toList_join_lines, map_requestHeaders, toList_line, requestLines, List.map_cons,
    List.flatMap_cons]

theorem toList_payload (op : Operation) :
    op.payload.toList = (if op.kind.hasBody then BatchRequest.line op.bodyText else "").toList := by
  rw [payload]
  cases op.kind <;> rfl

theorem toList_operationPart (op : Operation) :
    (BatchRequest.operationPart op).toList = (Section.message op.requestMessage).text := by
  rw [Section.text, requestMessage, messageText, messageText, ← toList_requestLines,
    toList_payload, BatchRequest.operationPart]
  simp [sectionFields, Field.line, BatchRequest.headerLine]

/-! ### The section as it is read -/

theorem Writable.opens (h : op.Writable) : Opens op.sectionFields where
  nonempty := by simp [sectionFields]
  wellFormed := by
    intro f hf
    simp only [sectionFields, List.mem_cons, List.not_mem_nil, or_false] at hf
    rcases hf with rfl | rfl | rfl
    · decide
    · decide
    · refine ⟨(by decide : OneLine "Content-ID".toList), (by decide : ':' ∉ "Content-ID".toList), ?_⟩
      simpa [OneLine] using h.id

theorem get?_sectionFields (op : Operation) (name : String) :
    (Headers.ofFields op.sectionFields).get? name =
      if name = "content-id" then some (trimmed (" " ++ op.id))
      else (Headers.ofFields [⟨"Content-Type", " application/http"⟩,
        ⟨"Content-Transfer-Encoding", " binary"⟩]).get? name := by
  have hname : lowercased (trimmed "Content-ID") = "content-id" := by decide +kernel
  have hcons : op.sectionFields = [⟨"Content-Type", " application/http"⟩,
    ⟨"Content-Transfer-Encoding", " binary"⟩] ++ [⟨"Content-ID", " " ++ op.id⟩] := rfl
  rw [hcons, Headers.get?_ofFields_concat, hname]

theorem content_type_section (op : Operation) :
    (Headers.ofFields op.sectionFields).get? "content-type" = some "application/http" := by
  rw [get?_sectionFields, if_neg (by decide)]
  decide +kernel

theorem Writable.section_wellFormed (h : op.Writable) :
    (Section.message op.requestMessage).WellFormed := by
  refine .message h.opens (fun t ht => ?_) ?_ ?_
  · obtain rfl : "application/http" = t := Option.some.inj (op.content_type_section.symm.trans ht)
    decide +kernel
  · exact endsLine_messageText _ (endsLine_append_crlf _)
  · have hH : 'H' ∈ op.requestMessage.content := by
      simp [requestMessage, messageText, requestLines]
    rw [allBlank, List.all_eq_false]
    exact ⟨'H', hH, by decide⟩

theorem etag_of_ifMatch {etag : String} (h : etag ∈ op.ifMatch) : etag ∈ op.etag := by
  rw [ifMatch] at h
  split at h
  · exact h
  · cases h

theorem mem_requestLines {l : String} : l ∈ op.requestLines ↔
    l = op.method ++ " " ++ op.url ++ " HTTP/1.1" ∨
      (∃ h ∈ op.headers.entries, l = h.1 ++ ": " ++ h.2) ∨
      (∃ etag ∈ op.ifMatch, l = "If-Match: " ++ etag) ∨ l ∈ op.contentTypeLines := by
  have hmatch : l ∈ op.ifMatchLines ↔ ∃ etag ∈ op.ifMatch, l = "If-Match: " ++ etag := by
    rw [ifMatchLines_eq]
    cases op.ifMatch <;> simp
  simp only [requestLines, List.mem_cons, List.mem_append, List.mem_map, hmatch, or_assoc, eq_comm]

theorem eq_of_mem_contentTypeLines {l : String} (h : l ∈ op.contentTypeLines) :
    l = "Content-Type: application/json; type=entry" := by
  rw [contentTypeLines_eq] at h
  split at h
  · exact List.mem_singleton.mp h
  · cases h

theorem method_oneLine (op : Operation) : OneLine op.method.toList := by
  rw [method]
  cases op.kind <;> decide

/-- An operation of which no text that is written holds a line feed. -/
structure Unbroken (op : Operation) : Prop where
  id : '\n' ∉ op.id.toList
  url : '\n' ∉ op.url.toList
  headers : ∀ h ∈ op.headers.entries, '\n' ∉ h.1.toList ∧ '\n' ∉ h.2.toList
  ifMatch : ∀ etag ∈ op.ifMatch, '\n' ∉ etag.toList

theorem Writable.unbroken (h : op.Writable) : op.Unbroken where
  id := h.id.2
  url := h.url.2
  headers := fun e he => ⟨(h.headers e he).1.2, (h.headers e he).2.2⟩
  ifMatch := fun etag he => (h.etag etag (etag_of_ifMatch he)).2

theorem Unbroken.requestLines (h : op.Unbroken) :
    ∀ l ∈ op.requestLines.map String.toList, l ≠ [] ∧ '\n' ∉ l := by
  intro l hl
  obtain ⟨s, hs, rfl⟩ := List.mem_map.mp hl
  rcases mem_requestLines.mp hs with rfl | ⟨e, he, rfl⟩ | ⟨etag, he, rfl⟩ | hs
  · simpa [not_or] using ⟨op.method_oneLine.2, h.url⟩
  · simpa [not_or] using h.headers e he
  · simpa using h.ifMatch etag he
  · rw [eq_of_mem_contentTypeLines hs]
    decide

end Operation

/-! ## Boundaries -/

/-- A boundary as batches have them: a word for the kind of body, and letters and
digits. -/
structure IsFresh (word boundary : String) : Prop where
  starts : word.toList <+: boundary.toList
  plain : ∀ c ∈ boundary.toList, c.isAlphanum = true ∨ c = '_'

instance (word boundary : String) : Decidable (IsFresh word boundary) :=
  decidable_of_iff (word.toList <+: boundary.toList ∧
      ∀ c ∈ boundary.toList, c.isAlphanum = true ∨ c = '_')
    ⟨fun ⟨h1, h2⟩ => ⟨h1, h2⟩, fun ⟨h1, h2⟩ => ⟨h1, h2⟩⟩

namespace IsFresh

variable {word boundary outer inner : String}

theorem isBoundary (h : IsFresh word boundary) (hw : word ≠ "") : IsBoundary boundary.toList where
  nonempty := by
    intro he
    have := h.starts
    rw [he, List.prefix_nil, String.toList_eq_nil_iff] at this
    exact hw this
  plain := by
    intro c hc
    rcases h.plain c hc with h | rfl
    · refine ⟨?_, ?_, isBlank_eq_false_of_isAlphanum h⟩
      · rintro rfl
        exact absurd h (by decide)
      · rintro rfl
        exact absurd h (by decide)
    · decide

theorem not_mem_delimiter (h : IsFresh word boundary) {c : Char}
    (hc : c.isAlphanum = false ∧ c ≠ '_' ∧ c ≠ '-') : c ∉ delimiter boundary.toList := by
  simp only [delimiter, List.mem_cons, not_or]
  refine ⟨hc.2.2, hc.2.2, fun hm => ?_⟩
  rcases h.plain c hm with h | h
  · rw [hc.1] at h
    cases h
  · exact hc.2.1 h

theorem hyphen (h : IsFresh word boundary) : '-' ∉ boundary.toList := by
  intro hm
  rcases h.plain _ hm with h | h <;> exact absurd h (by decide)

/-- The delimiter of a batch does not start in that of a change set. -/
theorem skips_delimiter (ho : IsFresh "batch_" outer) (hi : IsFresh "changeset_" inner)
    (rest : List Char) : Skips (delimiter outer.toList) (delimiter inner.toList) rest := by
  obtain ⟨o, houter⟩ := ho.starts
  obtain ⟨i, hinner⟩ := hi.starts
  -- At the two hyphens the words differ, and behind them there is no hyphen.
  refine skips_cons.mpr ⟨?_, skips_cons.mpr ⟨?_, skips_of_not_mem hi.hyphen⟩⟩
  · simp [delimiter, ← houter, ← hinner]
  · simp [delimiter, ← houter, ← hinner]

end IsFresh

/-! ## Texts without a delimiter -/

theorem not_infix_line {sep l rest : List Char} (hr : '\r' ∉ sep) (hn : '\n' ∉ sep)
    (hl : ¬ sep <:+: l) (h : ¬ sep <:+: rest) : ¬ sep <:+: l ++ (crlf ++ rest) := by
  have hnil : ¬ sep <:+: [] := fun hi => h (hi.trans (List.nil_infix ..))
  exact not_infix_append_cons hr hl (not_infix_append_cons (a := []) hn hnil h)

theorem not_infix_messageText {sep body : List Char} {ls : List (List Char)} (hr : '\r' ∉ sep)
    (hn : '\n' ∉ sep) (hls : ∀ l ∈ ls, ¬ sep <:+: l) (hb : ¬ sep <:+: body) :
    ¬ sep <:+: messageText ls body := by
  have hnil : ¬ sep <:+: [] := fun hi => hb (hi.trans (List.nil_infix ..))
  rw [messageText]
  induction ls with
  | nil => exact not_infix_line hr hn hnil hb
  | cons l ls ih =>
    rw [List.flatMap_cons, List.append_assoc, List.append_assoc]
    exact not_infix_line hr hn (hls l (List.mem_cons_self ..))
      (ih fun m hm => hls m (List.mem_cons_of_mem _ hm))

/-- A text without two hyphens in a row has no delimiter. -/
theorem not_infix_of_hyphens {s : List Char} (boundary : List Char) (h : ¬ ['-', '-'] <:+: s) :
    ¬ delimiter boundary <:+: s :=
  fun hi => h (((List.prefix_append ['-', '-'] boundary).isInfix).trans hi)

namespace Operation

variable {op : Operation} {word boundary : String}

theorem Avoids.not_infix_requestLines (h : op.Avoids boundary) (fresh : IsFresh word boundary) :
    ∀ l ∈ op.requestLines.map String.toList, ¬ delimiter boundary.toList <:+: l := by
  have hspace : ' ' ∉ delimiter boundary.toList := fresh.not_mem_delimiter (by decide)
  have hcolon : ':' ∉ delimiter boundary.toList := fresh.not_mem_delimiter (by decide)
  have hnil : ¬ delimiter boundary.toList <:+: [] := by simp [delimiter]
  intro l hl
  obtain ⟨s, hs, rfl⟩ := List.mem_map.mp hl
  rcases mem_requestLines.mp hs with rfl | ⟨e, he, rfl⟩ | ⟨etag, he, rfl⟩ | hs
  · have hm : ¬ delimiter boundary.toList <:+: op.method.toList := by
      refine not_infix_of_hyphens _ ?_
      rw [method]
      cases op.kind <;> decide +kernel
    have hversion : ¬ delimiter boundary.toList <:+: "HTTP/1.1".toList :=
      not_infix_of_hyphens _ (by decide +kernel)
    simpa using not_infix_append_cons hspace hm (not_infix_append_cons hspace h.url hversion)
  · obtain ⟨hname, hvalue⟩ := h.headers e he
    simpa using not_infix_append_cons hcolon hname
      (not_infix_append_cons (a := []) hspace hnil hvalue)
  · have hname : ¬ delimiter boundary.toList <:+: "If-Match".toList :=
      not_infix_of_hyphens _ (by decide +kernel)
    simpa using not_infix_append_cons hcolon hname
      (not_infix_append_cons (a := []) hspace hnil (h.etag etag (etag_of_ifMatch he)))
  · rw [eq_of_mem_contentTypeLines hs]
    exact not_infix_of_hyphens _ (by decide +kernel)

theorem Avoids.not_infix_section (h : op.Avoids boundary) (fresh : IsFresh word boundary) :
    ¬ delimiter boundary.toList <:+: (Section.message op.requestMessage).text := by
  have hr : '\r' ∉ delimiter boundary.toList := fresh.not_mem_delimiter (by decide)
  have hn : '\n' ∉ delimiter boundary.toList := fresh.not_mem_delimiter (by decide)
  have hspace : ' ' ∉ delimiter boundary.toList := fresh.not_mem_delimiter (by decide)
  have hcolon : ':' ∉ delimiter boundary.toList := fresh.not_mem_delimiter (by decide)
  have hnil : ¬ delimiter boundary.toList <:+: [] := by simp [delimiter]
  rw [Section.text]
  refine not_infix_messageText hr hn ?_ (not_infix_messageText hr hn
    (h.not_infix_requestLines fresh) ?_)
  · have hname : ¬ delimiter boundary.toList <:+: "Content-ID".toList :=
      not_infix_of_hyphens _ (by decide +kernel)
    intro l hl
    simp only [requestMessage, sectionFields, List.map_cons, List.map_nil, List.mem_cons,
      List.not_mem_nil, or_false] at hl
    rcases hl with rfl | rfl | rfl
    · exact not_infix_of_hyphens _ (by decide +kernel)
    · exact not_infix_of_hyphens _ (by decide +kernel)
    · simpa [Field.line] using not_infix_append_cons hcolon hname
        (not_infix_append_cons (a := []) hspace hnil h.id)
  · have hend : ¬ delimiter boundary.toList <:+: crlf := not_infix_line hr hn hnil hnil
    have hbody := not_infix_line hr hn h.body hend
    rw [payload]
    cases op.kind
    · exact hend
    · simpa [crlf] using hbody
    · simpa [crlf] using hbody
    · exact hend

end Operation

theorem not_infix_of_not_mem {s : List Char} (boundary : List Char) (h : '-' ∉ s) :
    ¬ delimiter boundary <:+: s :=
  fun hi => h (hi.subset (List.mem_cons_self ..))

theorem not_infix_sectionsText {outer inner : String} {parts : List Section} {rest : List Char}
    (ho : IsFresh "batch_" outer) (hi : IsFresh "changeset_" inner)
    (wf : ∀ p ∈ parts, p.WellFormed) (hp : ∀ p ∈ parts, ¬ delimiter outer.toList <:+: p.text)
    (h : ¬ delimiter outer.toList <:+: rest) :
    ¬ delimiter outer.toList <:+: sectionsText inner.toList parts ++ rest := by
  induction parts with
  | nil => exact h
  | cons p parts ih =>
    have hrest := ih (fun q hq => wf q (List.mem_cons_of_mem _ hq))
      fun q hq => hp q (List.mem_cons_of_mem _ hq)
    have hfirst := apart_of_endsLine (ho.isBoundary (by decide)) (hp p (List.mem_cons_self ..))
      (wf p (List.mem_cons_self ..)).endsLine
    rw [sectionsText, List.append_assoc, List.append_assoc, List.append_assoc]
    exact not_infix_append_of_skips (ho.skips_delimiter hi _)
      (not_infix_crlf (not_infix_append_of_skips (skips_of_apart hfirst) hrest))

/-! ## Sections of a batch -/

/-- The section of a change set. -/
def changesetSection (inner : String) (ops : List Operation) : Section :=
  .group [⟨"Content-Type", " multipart/mixed; boundary=" ++ inner⟩] ⟨inner.toList, [], []⟩
    (ops.map fun op => .message op.requestMessage)

/-- The sections of the items of a batch.  A change set without operations has none. -/
def sectionsOf (fresh : Nat → String) (used : Nat) : List BatchItem → List Section
  | [] => []
  | .operation op :: items => .message op.requestMessage :: sectionsOf fresh used items
  | .changeset [] :: items => sectionsOf fresh used items
  | .changeset (op :: ops) :: items =>
    changesetSection (fresh used) (op :: ops) :: sectionsOf fresh (used + 1) items

/-- The item needs a boundary of its own. -/
def BatchItem.isGroup : BatchItem → Bool
  | .operation _ => false
  | .changeset ops => !ops.isEmpty

variable {inner outer : String} {ops : List Operation}

theorem changesetSection_wellFormed (fresh : IsFresh "changeset_" inner)
    (writable : ∀ op ∈ ops, op.Writable) (avoids : ∀ op ∈ ops, op.Avoids inner) :
    (changesetSection inner ops).WellFormed := by
  have hboundary : IsBoundary inner.toList := fresh.isBoundary (by decide)
  have htext : (" multipart/mixed; boundary=" ++ inner).toList =
      ' ' :: ("multipart/mixed; boundary=" ++ inner).toList := by simp
  have hline : OneLine ("multipart/mixed; boundary=" ++ inner).toList := by
    have hr : '\r' ∉ inner.toList := fun h => absurd (hboundary.plain _ h).2.2 (by decide)
    have hn : '\n' ∉ inner.toList := fun h => absurd (hboundary.plain _ h).2.2 (by decide)
    simp [OneLine, hr, hn]
  have htrimmed : Trimmed ("multipart/mixed; boundary=" ++ inner).toList := by
    refine ⟨?_, ?_⟩
    · intro c hc
      obtain rfl : 'm' = c := by simpa using hc
      rfl
    · intro c hc
      -- The content type ends with the boundary.
      cases hl : inner.toList.getLast? with
      | none => exact absurd (List.getLast?_eq_none_iff.mp hl) hboundary.nonempty
      | some x =>
        rw [String.toList_append, List.getLast?_append, hl] at hc
        obtain rfl : x = c := by simpa using hc
        exact (hboundary.plain x (List.mem_of_getLast? hl)).2.2
  have htype : (Headers.ofFields [⟨"Content-Type", " multipart/mixed; boundary=" ++ inner⟩]).get?
      "content-type" = some ("multipart/mixed; boundary=" ++ inner) := by
    have hname : "content-type" = lowercased (trimmed "Content-Type") := by decide +kernel
    rw [← List.nil_append [_], Headers.get?_ofFields_concat, if_pos hname, trimmed, htext,
      trim_cons isBlank_space, trim_eq_self htrimmed, String.ofList_toList]
  refine .group ?_ htype ?_ ?_ ?_ (by simp [EndsLine]) ?_
  · refine ⟨by simp, ?_⟩
    intro f hf
    obtain rfl := List.mem_singleton.mp hf
    refine ⟨(by decide : OneLine "Content-Type".toList),
      (by decide : ':' ∉ "Content-Type".toList), ?_⟩
    rw [htext]
    simpa [OneLine] using hline
  · have hmixed : "multipart/mixed".toList <+: asciiLower "multipart/mixed; boundary=".toList := by
      decide +kernel
    rw [SaysParts, String.toList_append, asciiLower, List.map_append]
    exact hmixed.trans (List.prefix_append _ _)
  · rw [String.toList_append]
    exact names_mixed _
  · refine ⟨hboundary, by simp [delimiter], by simp [EndsLine], ?_, by simp [delimiter]⟩
    intro p hp
    obtain ⟨op, hop, rfl⟩ := List.mem_map.mp hp
    exact (avoids op hop).not_infix_section fresh
  · intro p hp
    obtain ⟨op, hop, rfl⟩ := List.mem_map.mp hp
    exact (writable op hop).section_wellFormed

theorem not_infix_changesetSection (ho : IsFresh "batch_" outer) (hi : IsFresh "changeset_" inner)
    (writable : ∀ op ∈ ops, op.Writable) (avoids : ∀ op ∈ ops, op.Avoids outer) :
    ¬ delimiter outer.toList <:+: (changesetSection inner ops).text := by
  have hnil : ¬ delimiter outer.toList <:+: [] := by simp [delimiter]
  have hcolon : ':' ∉ delimiter outer.toList := ho.not_mem_delimiter (by decide)
  rw [changesetSection, Section.text]
  refine not_infix_messageText (ho.not_mem_delimiter (by decide))
    (ho.not_mem_delimiter (by decide)) ?_ ?_
  · intro l hl
    obtain rfl := List.mem_singleton.mp hl
    have hname : ¬ delimiter outer.toList <:+: "Content-Type".toList :=
      not_infix_of_hyphens _ (by decide +kernel)
    refine not_infix_append_cons hcolon hname ?_
    exact not_infix_of_not_mem _ (by simpa using hi.hyphen)
  · rw [Frame.enclose, List.nil_append]
    refine not_infix_sectionsText ho hi ?_ ?_ (not_infix_append_of_skips (ho.skips_delimiter hi _)
      (not_infix_closing (ho.isBoundary (by decide)) hnil))
    · intro p hp
      obtain ⟨op, hop, rfl⟩ := List.mem_map.mp hp
      exact (writable op hop).section_wellFormed
    · intro p hp
      obtain ⟨op, hop, rfl⟩ := List.mem_map.mp hp
      exact (avoids op hop).not_infix_section ho

namespace BatchRequest

variable {boundary : String} {fresh : Nat → String} {items : List BatchItem} {used : Nat}

/-- What holds of the sections of operations and of change sets holds of the
sections of a batch.  Its change sets take the boundaries behind those that are
spent, one each. -/
theorem forall_sectionsOf {P : Section → Prop}
    (operation : ∀ op ∈ items.flatMap BatchItem.operations, P (.message op.requestMessage))
    (changeset : ∀ k, used ≤ k → k < used + items.countP BatchItem.isGroup → ∀ ops,
      (∀ op ∈ ops, op ∈ items.flatMap BatchItem.operations) → P (changesetSection (fresh k) ops)) :
    ∀ p ∈ sectionsOf fresh used items, P p := by
  fun_induction sectionsOf fresh used items with
  | case1 => simp
  | case2 used op items ih =>
    rintro p (_ | ⟨_, hp⟩)
    · exact operation op (by simp [BatchItem.operations])
    · refine ih (fun o ho => operation o (by simp [ho])) (fun k hk hlt os hos => ?_) p hp
      exact changeset k hk (by simpa [BatchItem.isGroup] using hlt) os
        fun o ho => by simp [hos o ho]
  | case3 used items ih =>
    refine ih (fun o ho => operation o (by simpa [BatchItem.operations] using ho))
      fun k hk hlt os hos => ?_
    exact changeset k hk (by simpa [BatchItem.isGroup] using hlt) os
      fun o ho => by simpa [BatchItem.operations] using hos o ho
  | case4 used op ops items ih =>
    have hcount : (BatchItem.changeset (op :: ops) :: items).countP BatchItem.isGroup =
        items.countP BatchItem.isGroup + 1 := by simp [BatchItem.isGroup]
    rw [hcount] at changeset
    -- The change set takes the next boundary; the rest begins with the one behind it.
    rintro p (_ | ⟨_, hp⟩)
    · exact changeset used (Nat.le_refl _) (by omega) _ fun o ho => by
        rw [List.flatMap_cons]
        exact List.mem_append_left _ ho
    · refine ih (fun o ho => operation o ?_) (fun k hk hlt os hos => ?_) p hp
      · rw [List.flatMap_cons]
        exact List.mem_append_right _ ho
      · refine changeset k (by omega) (by omega) os fun o ho => ?_
        rw [List.flatMap_cons]
        exact List.mem_append_right _ (hos o ho)

end BatchRequest

/-! ## Round trip -/

/-- The texts of a batch are lines, and hold no delimiter of the boundaries that
encoding it takes. -/
structure Batch.Legible (b : Batch) (boundary : String) (fresh : Nat → String) : Prop where
  outer : IsFresh "batch_" boundary
  inner : ∀ k < b.items.countP BatchItem.isGroup, IsFresh "changeset_" (fresh k)
  writable : ∀ op ∈ b.operations, op.Writable
  avoids_outer : ∀ op ∈ b.operations, op.Avoids boundary
  avoids_inner : ∀ k < b.items.countP BatchItem.isGroup, ∀ op ∈ b.operations, op.Avoids (fresh k)

theorem Batch.Legible.sections {b : Batch} {boundary : String} {fresh : Nat → String}
    (h : b.Legible boundary fresh) :
    ∀ p ∈ sectionsOf fresh 0 b.items, p.WellFormed ∧ ¬ delimiter boundary.toList <:+: p.text := by
  refine BatchRequest.forall_sectionsOf (fun op hop => ?_) fun k _ hk ops hops => ?_
  · exact ⟨(h.writable op hop).section_wellFormed,
      (h.avoids_outer op hop).not_infix_section h.outer⟩
  · rw [Nat.zero_add] at hk
    have hwritable := fun op hop => h.writable op (hops op hop)
    exact ⟨changesetSection_wellFormed (h.inner k hk) hwritable
        fun op hop => h.avoids_inner k hk op (hops op hop),
      not_infix_changesetSection h.outer (h.inner k hk) hwritable
        fun op hop => h.avoids_outer op (hops op hop)⟩

end OData
