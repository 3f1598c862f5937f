import Mathlib.Data.List.Nodup
import Mathlib.Tactic.MkIffOfInductiveProp
import OData.Proofs.Batch.Attribution
import OData.Proofs.Json.Normal
import OData.Proofs.Json.RoundTrip

/-! # The two forms of a batch response

A `Reply` is what a service has to say about one operation, apart from the form in which
it says so.  As part of a JSON text it is an object (`Reply.toJson`), and in a multipart
body it is an answer that tells it (`Answer.Tells`), for instance `Reply.answer`.

Two readers that have nothing in common take these forms apart, one by cutting the text
and one by walking through a value.  They find the same entries in both, and so
`decode_replies` gives one response for both, however the parts of a multipart body are
grouped and however a JSON text is laid out.
-/
namespace OData

open Text Multipart

/-! ## Replies -/

/-- A name that a header can have: no white space and no colon stands in it. -/
def IsHeaderName (name : String) : Prop := ∀ c ∈ name.toList, isBlank c = false ∧ c ≠ ':'

instance (name : String) : Decidable (IsHeaderName name) :=
  inferInstanceAs (Decidable (∀ c ∈ _, _))

namespace IsHeaderName
variable {name : String}

theorem not_mem (h : IsHeaderName name) {c : Char} (hc : isBlank c = true) : c ∉ name.toList := by
  intro hmem
  rw [(h c hmem).1] at hc
  cases hc

theorem oneLine (h : IsHeaderName name) : OneLine name.toList := ⟨h.not_mem rfl, h.not_mem rfl⟩

theorem colon (h : IsHeaderName name) : ':' ∉ name.toList := fun hmem => (h _ hmem).2 rfl

theorem trimmed_eq (h : IsHeaderName name) : trimmed name = name := by
  rw [trimmed, trim_eq_self (trimmed_of_solid fun c hc => (h c hc).1), String.ofList_toList]

end IsHeaderName

/-- What a service says about one operation of a batch. -/
structure Reply where
  /-- The id of an operation, or another one, or none. -/
  id : Option String
  status : Nat
  /-- Names and values, in the order in which they are written. -/
  headers : List (String × String)
  body : String

namespace Reply

/-- A reply that both forms can express. -/
@[mk_iff]
structure WellFormed (r : Reply) : Prop where
  id : ∀ id ∈ r.id, OneLine id.toList ∧ Trimmed id.toList ∧ BareId id
  status : r.status < 65536
  headers : ∀ h ∈ r.headers, IsHeaderName h.1 ∧ OneLine h.2.toList ∧ Trimmed h.2.toList
  distinct : (r.headers.map fun h => lowercased h.1).Nodup
  /-- The id is no header. -/
  no_id : "content-id" ∉ r.headers.map fun h => lowercased h.1
  body : ∀ c ∈ r.body.toList.getLast?, isLineEnd c = false

instance (r : Reply) : Decidable r.WellFormed := decidable_of_iff _ (wellFormed_iff r).symm

/-- The headers of the reply under lower-case names. -/
def headerMap (r : Reply) : Headers :=
  NameMap.ofList (r.headers.map fun h => (lowercased h.1, h.2))

/-- The entry that stands for the reply. -/
def entry (r : Reply) : BatchEntry := ⟨r.id, r.status, r.headerMap, r.body⟩

/-! ## In a JSON text -/

/-- The reply as an object. -/
def toJson (r : Reply) : Json :=
  .object ((r.id.map fun id => ("id", .text id)).toList ++ [("status", .int r.status),
    ("headers", .object (r.headers.map fun h => (h.1, .text h.2))), ("body", .text r.body)])

/-- Replies as the value of a whole text. -/
def batchJson (rs : List Reply) : Json := .object [("responses", .array (rs.map toJson))]

variable {r : Reply} {rs : List Reply}

theorem legible_toJson {depth : Nat} (h : r.status < 65536) :
    Json.Legible (depth + 2) r.toJson := by
  refine .object fun m hm => ?_
  rcases List.mem_append.mp hm with hm | hm
  · obtain ⟨id, -, rfl⟩ := Option.map_eq_some_iff.mp (Option.mem_toList.mp hm)
    exact .text id
  · simp only [List.mem_cons, List.not_mem_nil, or_false] at hm
    rcases hm with rfl | rfl | rfl
    · refine .int ?_ ?_
      · rw [Json.leastInt64]
        omega
      · rw [Json.greatestNat64]
        omega
    · refine .object fun m hm => ?_
      obtain ⟨header, -, rfl⟩ := List.mem_map.mp hm
      exact .text header.2
    · exact .text r.body

/-- The compact text of replies is read. -/
theorem read?_batchJson (h : ∀ r ∈ rs, r.WellFormed) :
    Json.read? (batchJson rs).compact = some (batchJson rs).normal := by
  refine Json.read?_compact (.object fun m hm => ?_)
  obtain rfl := List.mem_singleton.mp hm
  refine .array fun j hj => ?_
  obtain ⟨r, hr, rfl⟩ := List.mem_map.mp hj
  exact legible_toJson (h r hr).status

/-- The headers of a reply do not depend on the order in which an object has them. -/
theorem headersOfJson_normal (h : r.WellFormed) :
    BatchEntry.headersOfJson
      (some (Json.object (r.headers.map fun h => (h.1, .text h.2))).normal) = r.headerMap := by
  have hnames : (r.headers.map Prod.fst).Nodup := by
    refine List.Nodup.of_map lowercased ?_
    rw [List.map_map]
    exact h.distinct
  have htexts : (r.headers.map fun h => (h.1, Json.text h.2)).map (fun m => (m.1, m.2.normal)) =
      r.headers.map fun h => (h.1, Json.text h.2) := by
    rw [List.map_map]
    rfl
  have hperm : (Entries.ofList (r.headers.map fun h => (h.1, Json.text h.2))).Perm
      (r.headers.map fun h => (h.1, Json.text h.2)) :=
    Entries.ofList_perm (by rw [List.map_map]; exact hnames)
  rw [Json.normal, Json.normalMembers_eq_map, htexts, BatchEntry.headersOfJson, headerMap]
  have hlower := hperm.filterMap fun m => m.2.text?.map fun v => (lowercased m.1, v)
  have hmap : (r.headers.map fun h => (h.1, Json.text h.2)).filterMap
      (fun m => m.2.text?.map fun v => (lowercased m.1, v)) =
      r.headers.map fun h => (lowercased h.1, h.2) := by
    rw [List.filterMap_map, ← List.filterMap_eq_map]
    rfl
  rw [hmap] at hlower
  refine NameMap.ofList_eq_of_perm hlower ?_
  rw [(hlower.map Prod.fst).nodup_iff, List.map_map]
  exact h.distinct

/-- The object of a reply gives its entry. -/
theorem ofJson?_normal (h : r.WellFormed) :
    BatchEntry.ofJson? r.toJson.normal = some r.entry := by
  have member : ∀ name j, r.toJson.member? name = some j →
      r.toJson.normal.member? name = some j.normal := by
    intro name j hj
    rw [Json.member?_normal, hj, Option.map_some]
  have hid : (r.toJson.normal.member? "id").bind BatchEntry.idOfJson? = r.id := by
    rw [Json.member?_normal, toJson]
    cases r.id <;> rfl
  have hstatus : r.toJson.normal.member? "status" = some (.int r.status) :=
    member "status" (.int r.status) (by rw [toJson]; cases r.id <;> rfl)
  have hheaders := member "headers" _ (by rw [toJson]; cases r.id <;> rfl)
  have hbody := member "body" (.text r.body) (by rw [toJson]; cases r.id <;> rfl)
  rw [BatchEntry.ofJson?, hstatus, hheaders, hbody, hid, headersOfJson_normal h,
    Option.bind_some, Json.natBelow?_eq_some_iff.mpr ⟨rfl, h.status⟩]
  rfl

/-- The entries of a JSON text are those of its replies. -/
theorem entries_of_read? {jsonType text : String} (wellFormed : ∀ r ∈ rs, r.WellFormed)
    (type : boundary? jsonType.toList = none)
    (reads : Json.read? text = some (batchJson rs).normal) :
    BatchResponse.entries jsonType text = .ok ((rs.map entry).map some) := by
  have hresponses : ((batchJson rs).normal.member? "responses").bind Json.items? =
      some (rs.map fun r => r.toJson.normal) := by
    have hmember : (batchJson rs).member? "responses" = some (.array (rs.map toJson)) := rfl
    rw [Json.member?_normal, hmember, Option.map_some, Option.bind_some, Json.normal, Json.items?,
      Json.normalItems_eq_map, List.map_map]
    rfl
  rw [BatchResponse.entries_of_json type reads hresponses, List.map_map, List.map_map]
  exact congrArg Except.ok (List.map_congr_left fun r hr => ofJson?_normal (wellFormed r hr))

end Reply

/-! ## In a multipart body -/

/-- The answer says what the reply says.  Its id stands in angle brackets or not. -/
structure Answer.Tells (a : Answer) (r : Reply) : Prop where
  wellFormed : a.WellFormed
  status : a.status = r.status
  fields : a.fields.map (fun f => (trimmed f.name, trimmed f.value)) = r.headers
  body : a.body = r.body
  named : ∀ id ∈ r.id, a.IsFor id
  unnamed : r.id = none → a.id? = none

theorem Answer.headers_eq {a : Answer} {r : Reply}
    (fields : a.fields.map (fun f => (trimmed f.name, trimmed f.value)) = r.headers) :
    a.headers = r.headerMap := by
  rw [headers, Headers.ofFields, Reply.headerMap, ← fields, List.map_map]
  rfl

theorem Answer.Tells.entry_eq {a : Answer} {r : Reply} (tells : a.Tells r) (h : r.WellFormed) :
    a.entry = r.entry := by
  have hid : a.entry.id = r.id := by
    cases hr : r.id with
    | none => rw [entry, tells.unnamed hr]; rfl
    | some id => exact (tells.named id hr).entry_id (h.id id hr).2.2
  rw [entry] at hid ⊢
  rw [Reply.entry, ← hid, headers_eq tells.fields, tells.status, tells.body]

/-- The entries of a multipart body are those of its replies. -/
theorem BatchResponse.entries_of_tells {rs : List Reply} {answers : List Answer} {frame : Frame}
    {parts : List Section} {contentType : String} (wellFormed : ∀ r ∈ rs, r.WellFormed)
    (names : Names contentType.toList frame.boundary) (separates : frame.Separates parts)
    (sections : ∀ p ∈ parts, p.WellFormed)
    (messages : messagesOf parts = answers.map Answer.message)
    (tells : List.Forall₂ Answer.Tells answers rs) :
    entries contentType (String.ofList (bodyText frame parts)) =
      .ok ((rs.map Reply.entry).map some) := by
  have hall : (∀ a ∈ answers, a.WellFormed) ∧ answers.map Answer.entry = rs.map Reply.entry := by
    clear messages
    induction tells with
    | nil => simp
    | @cons a r answers rs hfirst _ ih =>
      obtain ⟨hanswers, hentries⟩ := ih fun r hr => wellFormed r (List.mem_cons_of_mem _ hr)
      refine ⟨List.forall_mem_cons.mpr ⟨hfirst.wellFormed, hanswers⟩, ?_⟩
      rw [List.map_cons, List.map_cons, hentries,
        hfirst.entry_eq (wellFormed r (List.mem_cons_self ..))]
  rw [entries_bodyText names separates sections messages hall.1, hall.2]

/-! ### The usual way to write a reply -/

namespace Reply

/-- The fields of a section with an id, in angle brackets, or without one. -/
def sectionFields (id : Option String) : List Field :=
  ⟨"Content-Type", " application/http"⟩ ::
    (id.map fun id => ⟨"Content-ID", " " ++ ("<" ++ id ++ ">")⟩).toList

/-- An answer that tells the reply. -/
def answer (r : Reply) : Answer where
  sectionFields := sectionFields r.id
  version := "1.1"
  status := r.status
  reason := ""
  fields := r.headers.map fun h => ⟨h.1, " " ++ h.2⟩
  body := r.body

variable {r : Reply} {id : String}

theorem opens_sectionFields {id : Option String} (h : ∀ i ∈ id, OneLine i.toList) :
    Opens (sectionFields id) := by
  refine ⟨List.cons_ne_nil _ _, ?_⟩
  intro f hf
  rcases List.mem_cons.mp hf with rfl | hf
  · decide
  · obtain ⟨i, hi, rfl⟩ := Option.map_eq_some_iff.mp (Option.mem_toList.mp hf)
    refine ⟨(by decide : OneLine "Content-ID".toList), (by decide : ':' ∉ "Content-ID".toList), ?_⟩
    simpa [OneLine] using h i hi

theorem trimmed_angled (id : String) : Trimmed ("<" ++ id ++ ">").toList := by
  have hlist : ("<" ++ id ++ ">").toList = '<' :: (id.toList ++ ['>']) := by simp
  rw [hlist]
  refine ⟨?_, ?_⟩
  · rintro c hc
    obtain rfl := Option.some.inj hc
    rfl
  · intro c hc
    rw [← List.cons_append, List.getLast?_concat] at hc
    obtain rfl := Option.some.inj hc
    rfl

theorem get?_sectionFields_some (id name : String) :
    (Headers.ofFields (sectionFields (some id))).get? name =
      if name = "content-id" then some ("<" ++ id ++ ">")
      else (Headers.ofFields (sectionFields none)).get? name := by
  have hname : lowercased (trimmed "Content-ID") = "content-id" := by decide +kernel
  have hfields : sectionFields (some id) =
      sectionFields none ++ [⟨"Content-ID", " " ++ ("<" ++ id ++ ">")⟩] := rfl
  rw [hfields, Headers.get?_ofFields_concat, hname, trimmed_space (trimmed_angled id)]

theorem get?_sectionFields_type (id : Option String) :
    (Headers.ofFields (sectionFields id)).get? "content-type" = some "application/http" := by
  have hnone : (Headers.ofFields (sectionFields none)).get? "content-type" =
      some "application/http" := by decide +kernel
  cases id with
  | none => exact hnone
  | some id => rw [get?_sectionFields_some, if_neg (by decide), hnone]

/-- No field of the reply itself carries an id. -/
theorem WellFormed.get?_headerMap (h : r.WellFormed) :
    r.headerMap.get? "content-id" = none := by
  change Entries.get? _ (Entries.ofList _) = none
  rw [Entries.get?_ofList]
  refine Entries.get?_eq_none ?_
  rw [List.map_reverse, List.mem_reverse, List.map_map]
  exact h.no_id

theorem WellFormed.answer_fields (h : r.WellFormed) :
    r.answer.fields.map (fun f => (trimmed f.name, trimmed f.value)) = r.headers := by
  rw [answer, List.map_map]
  refine (List.map_congr_left fun header hheader => ?_).trans (List.map_id _)
  obtain ⟨hname, -, hvalue⟩ := h.headers header hheader
  exact Prod.ext hname.trimmed_eq (trimmed_space hvalue)

theorem WellFormed.answer_wellFormed (h : r.WellFormed) : r.answer.WellFormed where
  opens := opens_sectionFields fun id hid => (h.id id hid).1
  version := (by decide : ∀ c ∈ "1.1".toList, isBlank c = false)
  status := h.status
  reason := (by decide : OneLine "".toList)
  reason_apart := (by decide : ∀ c ∈ "".toList.head?, isBlank c = true)
  fields := by
    intro f hf
    obtain ⟨header, hheader, rfl⟩ := List.mem_map.mp hf
    obtain ⟨hname, hline, -⟩ := h.headers header hheader
    refine ⟨hname.oneLine, hname.colon, ?_⟩
    simpa [OneLine] using hline
  body := h.body

/-- A well-formed reply can be told. -/
theorem WellFormed.answer_tells (h : r.WellFormed) : r.answer.Tells r where
  wellFormed := h.answer_wellFormed
  status := rfl
  fields := h.answer_fields
  body := rfl
  named := by
    intro id hid
    right
    have hsection : r.answer.sectionFields = sectionFields (some id) := by rw [← hid]; rfl
    rw [Answer.id?, hsection, get?_sectionFields_some, if_pos rfl, Option.some_or]
  unnamed := by
    intro hid
    have hsection : r.answer.sectionFields = sectionFields none := by rw [← hid]; rfl
    have hnone : (Headers.ofFields (sectionFields none)).get? "content-id" = none := by
      decide +kernel
    rw [Answer.id?, hsection, hnone, Answer.headers_eq h.answer_fields, h.get?_headerMap, Option.or_none]

theorem WellFormed.section_wellFormed (h : r.WellFormed) :
    (Section.message r.answer.message).WellFormed := by
  refine .message h.answer_wellFormed.opens (fun t ht => ?_) ?_ ?_
  · obtain rfl : "application/http" = t :=
      Option.some.inj ((get?_sectionFields_type r.id).symm.trans ht)
    decide +kernel
  · rw [Answer.message, ← List.append_assoc]
    exact (endsLine_append_crlf _).append (endsLine_messageText _ (endsLine_append_crlf _))
  · have hH : 'H' ∈ r.answer.message.content := by simp [Answer.message, Answer.statusLine]
    rw [allBlank, List.all_eq_false]
    exact ⟨'H', hH, by decide⟩

end Reply

/-! ## Both forms -/

namespace BatchResponse

/-- **Both forms of a batch response give the same results.**  The first text is a
multipart body, with its parts grouped in any way, and the second a JSON text, laid out in
any way.  There is one result for each reply, and the one of a reply that is attributed to
an operation is the result of that operation. -/
theorem decode_replies {ops : List Operation} {rs : List Reply} {answers : List Answer}
    {frame : Frame} {parts : List Section} {multipartType jsonType : String}
    (wellFormed : ∀ r ∈ rs, r.WellFormed)
    (names : Names multipartType.toList frame.boundary) (separates : frame.Separates parts)
    (sections : ∀ p ∈ parts, p.WellFormed)
    (messages : messagesOf parts = answers.map Answer.message)
    (tells : List.Forall₂ Answer.Tells answers rs) (json : boundary? jsonType.toList = none) :
    ∃ response, decode ops multipartType (String.ofList (bodyText frame parts)) = .ok response ∧
      decode ops jsonType (Reply.batchJson rs).compact = .ok response ∧
      (∀ text, Json.read? text = some (Reply.batchJson rs).normal →
        decode ops jsonType text = .ok response) ∧
      response.results.Perm (rs.zipIdx.map fun x => (assign ops x.2 x.1.entry).2) ∧
      ∀ i r k op, rs[i]? = some r → (assign ops i r.entry).1 = some k → ops[k]? = some op →
        (assign ops i r.entry).2 = .forOperation op r.status r.headerMap r.body := by
  have hmultipart := entries_of_tells wellFormed names separates sections messages tells
  have hjson : ∀ text, Json.read? text = some (Reply.batchJson rs).normal →
      entries jsonType text = .ok ((rs.map Reply.entry).map some) :=
    fun text reads => Reply.entries_of_read? wellFormed json reads
  refine ⟨_, decode_of_ok hmultipart, ?_, ?_, ?_, ?_⟩
  · exact decode_of_ok (hjson _ (Reply.read?_batchJson wellFormed))
  · exact fun text reads => decode_of_ok (hjson text reads)
  · -- Every reply was read, so positions are those of the replies.
    have hmap : (assignFrom ops 0 ((rs.map Reply.entry).map some)).map Prod.snd =
        rs.zipIdx.map fun x => (assign ops x.2 x.1.entry).2 := by
      rw [assignFrom_map_some, List.zipIdx_map, List.map_map, List.map_map]
      rfl
    exact ((List.mergeSort_perm _ precedes).map Prod.snd).trans (List.Perm.of_eq hmap)
  · exact fun i r k op _ hassign hop => assign_snd hassign hop

/-- A reply that names the second of two operations, and stands first. -/
def secondFirst : Reply := ⟨some "2", 404, [("Retry-After", "5")], "none"⟩

/-- A reply without an id. -/
def unnamed : Reply := ⟨none, 200, [], "[]"⟩

/-- The two replies as parts of a body, the first in a group of its own. -/
def groupedParts : List Section :=
  [.group [⟨"Content-Type", " multipart/mixed; boundary=inner"⟩] ⟨"inner".toList, [], []⟩
    [.message secondFirst.answer.message], .message unnamed.answer.message]

/-- The second reply has no id and goes by its position, so both belong to the second
operation. -/
theorem decode_replies_grouped :
    ∃ response, decode [.get "1" "A", .get "2" "B"] "multipart/mixed; boundary=outer"
        (String.ofList (bodyText ⟨"outer".toList, [], []⟩ groupedParts)) = .ok response ∧
      decode [.get "1" "A", .get "2" "B"] "application/json"
        (Reply.batchJson [secondFirst, unnamed]).compact = .ok response ∧
      response.results.length = 2 ∧
      (assign [.get "1" "A", .get "2" "B"] 1 unnamed.entry).2 =
        .forOperation (.get "2" "B") 200 unnamed.headerMap "[]" := by
  have wellFormed : ∀ r ∈ [secondFirst, unnamed], r.WellFormed := by decide +kernel
  have hfirst := wellFormed secondFirst (by simp)
  have hsecond := wellFormed unnamed (by simp)
  have group : (Section.group [⟨"Content-Type", " multipart/mixed; boundary=inner"⟩]
      ⟨"inner".toList, [], []⟩ [.message secondFirst.answer.message]).WellFormed := by
    refine .group (t := "multipart/mixed; boundary=inner") (by decide +kernel) (by decide +kernel)
      (by decide +kernel) (names_mixed _) ?_ (by decide) ?_
    · exact ⟨by decide +kernel, by decide +kernel, by decide, by decide +kernel, by decide +kernel⟩
    · simpa using hfirst.section_wellFormed
  have separates : Frame.Separates ⟨"outer".toList, [], []⟩ groupedParts :=
    ⟨by decide +kernel, by decide +kernel, by decide, by decide +kernel, by decide +kernel⟩
  have sections : ∀ p ∈ groupedParts, p.WellFormed := by
    simpa [groupedParts] using ⟨group, hsecond.section_wellFormed⟩
  have messages : messagesOf groupedParts =
      [secondFirst.answer, unnamed.answer].map Answer.message := rfl
  have tells : List.Forall₂ Answer.Tells [secondFirst.answer, unnamed.answer]
      [secondFirst, unnamed] :=
    .cons hfirst.answer_tells (.cons hsecond.answer_tells .nil)
  have json : boundary? "application/json".toList = none := by decide +kernel
  obtain ⟨response, hmultipart, hjson, -, hperm, hown⟩ :=
    @decode_replies [.get "1" "A", .get "2" "B"] _ _ _ _ "multipart/mixed; boundary=outer"
      "application/json" wellFormed (names_mixed _) separates sections messages tells json
  refine ⟨response, hmultipart, hjson, hperm.length_eq, ?_⟩
  exact hown 1 unnamed 1 (.get "2" "B") rfl (by decide +kernel) rfl

end BatchResponse
end OData
