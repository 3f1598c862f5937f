import OData.Batch.Response
import OData.Proofs.Multipart.Sections
import OData.Proofs.Text.Digits

/-! # Answers in multipart bodies

An answer to one operation of a batch is a message that holds a response: a status
line, fields and a body.  `ofLeaf?_message` says that reading the leaf of such a
message gives the entry that the answer stands for.
-/
namespace OData

open Text Multipart

/-! ## Answers -/

/-- The answer to one operation of a batch, with the fields of its section. -/
structure Answer where
  sectionFields : List Field
  version : String
  status : Nat
  /-- What stands in the status line behind the status. -/
  reason : String
  fields : List Field
  body : String

namespace Answer

/-- The status line. -/
def statusLine (a : Answer) : List Char :=
  "HTTP/".toList ++ (a.version.toList ++ ' ' :: (Nat.toDigits 10 a.status ++ a.reason.toList))

/-- The message that holds the answer. -/
def message (a : Answer) : Message where
  fields := a.sectionFields
  content := a.statusLine ++
    (crlf ++ messageText (a.fields.map Field.line) (a.body.toList ++ crlf))

/-- The headers of the answer. -/
def headers (a : Answer) : Headers := Headers.ofFields a.fields

/-- The id that the answer carries: in the fields of its section, or else in its
own. -/
def id? (a : Answer) : Option String :=
  ((Headers.ofFields a.sectionFields).get? "content-id").or (a.headers.get? "content-id")

/-- The answer is for the operation with the id given, which may stand in angle
brackets. -/
def IsFor (a : Answer) (id : String) : Prop := a.id? = some id ∨ a.id? = some ("<" ++ id ++ ">")

instance (a : Answer) (id : String) : Decidable (a.IsFor id) := inferInstanceAs (Decidable (_ ∨ _))

/-- An answer that is written as a reader of answers expects it.  A line end at the
end of a body would count to the section. -/
structure WellFormed (a : Answer) : Prop where
  opens : Opens a.sectionFields
  version : ∀ c ∈ a.version.toList, isBlank c = false
  status : a.status < 65536
  reason : OneLine a.reason.toList
  reason_apart : ∀ c ∈ a.reason.toList.head?, isBlank c = true
  fields : ∀ f ∈ a.fields, f.WellFormed
  body : ∀ c ∈ a.body.toList.getLast?, isLineEnd c = false

instance (a : Answer) : Decidable a.WellFormed :=
  decidable_of_iff (Opens a.sectionFields ∧ (∀ c ∈ a.version.toList, isBlank c = false) ∧
      a.status < 65536 ∧ OneLine a.reason.toList ∧
      (∀ c ∈ a.reason.toList.head?, isBlank c = true) ∧ (∀ f ∈ a.fields, f.WellFormed) ∧
      ∀ c ∈ a.body.toList.getLast?, isLineEnd c = false)
    ⟨fun ⟨h1, h2, h3, h4, h5, h6, h7⟩ => ⟨h1, h2, h3, h4, h5, h6, h7⟩,
      fun ⟨h1, h2, h3, h4, h5, h6, h7⟩ => ⟨h1, h2, h3, h4, h5, h6, h7⟩⟩

/-- The entry that the answer stands for. -/
def entry (a : Answer) : BatchEntry := ⟨a.id?.map BatchEntry.bareId, a.status, a.headers, a.body⟩

theorem not_mem_of_isBlank {s : List Char} {c : Char} (h : ∀ x ∈ s, isBlank x = false)
    (hc : isBlank c = true) : c ∉ s := fun hm => by simp [h c hm] at hc

variable {a : Answer}

theorem WellFormed.statusLine_oneLine (h : a.WellFormed) : OneLine a.statusLine := by
  have hdigit : ∀ c ∈ Nat.toDigits 10 a.status, isBlank c = false := fun c hc =>
    isBlank_eq_false_of_isDigit (isDigit_of_mem_toDigits c hc)
  constructor
  · simp [statusLine, not_mem_of_isBlank h.version (c := '\r') rfl,
      not_mem_of_isBlank hdigit (c := '\r') rfl, h.reason.1]
  · simp [statusLine, not_mem_of_isBlank h.version (c := '\n') rfl,
      not_mem_of_isBlank hdigit (c := '\n') rfl, h.reason.2]

theorem WellFormed.statusOfLine? (h : a.WellFormed) :
    BatchEntry.statusOfLine? (a.statusLine ++ ['\r']) = some a.status := by
  have hdigit : ∀ c ∈ Nat.toDigits 10 a.status, isBlank c = false := fun c hc =>
    isBlank_eq_false_of_isDigit (isDigit_of_mem_toDigits c hc)
  have hversion : ∀ c ∈ "HTTP/".toList ++ a.version.toList, isBlank c = false := by
    intro c hc
    rcases List.mem_append.mp hc with hc | hc
    · exact (by decide : ∀ c ∈ "HTTP/".toList, isBlank c = false) c hc
    · exact h.version c hc
  have hline : a.statusLine ++ ['\r'] = ("HTTP/".toList ++ a.version.toList) ++
      ' ' :: (Nat.toDigits 10 a.status ++ (a.reason.toList ++ ['\r'])) := by
    simp [Answer.statusLine]
  -- White space follows the status, if only that of the line end.
  obtain ⟨x, t, hxt, hx⟩ : ∃ x t, a.reason.toList ++ ['\r'] = x :: t ∧ isBlank x = true := by
    cases hr : a.reason.toList with
    | nil => exact ⟨'\r', [], rfl, rfl⟩
    | cons x t => exact ⟨x, t ++ ['\r'], rfl, h.reason_apart x (by rw [hr]; rfl)⟩
  rw [BatchEntry.statusOfLine?, hline, words_cons (by simp) hversion rfl, hxt,
    words_cons Nat.toDigits_ne_nil hdigit hx]
  simpa using natBelow?_toDigits h.status

/-- Reading the leaf of an answer gives its entry. -/
theorem ofLeaf?_message (h : a.WellFormed) :
    BatchEntry.ofLeaf? a.message.leaf = some a.entry := by
  have hcontent : a.message.leaf.content = (a.statusLine ++ ['\r']) ++
      '\n' :: messageText (a.fields.map Field.line) (a.body.toList ++ crlf) := by
    simp [message, Message.leaf, crlf]
  have hstart : BatchEntry.fromStatusLine? a.message.leaf.content =
      some a.message.leaf.content := by
    have hcons : a.message.leaf.content = 'H' :: a.message.leaf.content.tail := by
      simp [hcontent, statusLine]
    have hprefix : ['H', 'T', 'T', 'P', '/'].isPrefixOf a.message.leaf.content = true := by
      simp [hcontent, statusLine]
    rw [hcons] at hprefix ⊢
    rw [BatchEntry.fromStatusLine?, if_pos hprefix]
  have hcut : cutFirst? '\n' a.message.leaf.content = some (a.statusLine ++ ['\r'],
      messageText (a.fields.map Field.line) (a.body.toList ++ crlf)) := by
    rw [hcontent]
    exact cutFirst?_joint (by simpa using h.statusLine_oneLine.2)
  have hbody : dropEndWhile isLineEnd (a.body.toList ++ crlf) = a.body.toList :=
    dropEndWhile_append h.body (by decide)
  have hhead : Headers.ofBlock a.message.leaf.head = Headers.ofFields a.sectionFields :=
    Headers.ofBlock_fields h.opens.wellFormed
  rw [BatchEntry.ofLeaf?, hstart]
  simp [hcut, h.statusOfLine?, splitHead_fields h.fields, Headers.ofBlock_fields h.fields, hhead,
    hbody, entry, id?, headers]

end Answer
end OData
