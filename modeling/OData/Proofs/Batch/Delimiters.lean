import OData.Proofs.Batch.Consistency
import OData.Proofs.Batch.Order
import OData.Proofs.Multipart.Portions

/-! # Texts of delimiters in the answers to batches

A part of a multipart response ends where the text of a delimiter stands next, be it in the
middle of a line.  `BatchResponse.decode_portions` says what that leaves intact.  Delimiters
may begin others: as long as the delimiter of a body stands elsewhere only at the start of
those of bodies inside, there is one result for each answer, with the whole of its body.  And
whatever the response, no result holds the delimiter of a body around it.
-/
namespace OData

open Text

namespace Multipart

/-! ## Answers in leaves -/

/-- An answer as it stands in a leaf. -/
structure HttpReply where
  /-- The text in front of the status line. -/
  before : List Char
  statusLine : List Char
  /-- The head with its blank line. -/
  opening : List Char
  body : List Char
  /-- The line ends behind the body. -/
  ends : List Char

namespace HttpReply

/-- The text of the answer from the status line on. -/
def http (r : HttpReply) : List Char := r.statusLine ++ '\n' :: (r.opening ++ (r.body ++ r.ends))

/-- The text of the answer. -/
def text (r : HttpReply) : List Char := r.before ++ r.http

/-- The answer has this status and these lines in its head, and its body ends where its last
lines do. -/
structure WellFormed (r : HttpReply) (status : Nat) (head : List Char) : Prop where
  first : Skips statusMark r.before r.http
  mark : statusMark <+: r.statusLine
  line : '\n' ∉ r.statusLine
  status : BatchEntry.statusOfLine? r.statusLine = some status
  opening : (∃ e : LineEnd, r.opening = e.text ∧ head = []) ∨ Heads r.opening head
  body : ∀ c ∈ r.body.getLast?, isLineEnd c = false
  ends : ∀ c ∈ r.ends, isLineEnd c = true

/-- The entry of the answer, in a part with the head `partHead`. -/
def entry (r : HttpReply) (partHead : List Char) (status : Nat) (head : List Char) :
    BatchEntry where
  id := (((Headers.ofBlock partHead).get? "content-id").or
    ((Headers.ofBlock head).get? "content-id")).map BatchEntry.bareId
  status := status
  headers := Headers.ofBlock head
  body := String.ofList r.body

variable {r : HttpReply} {status : Nat} {head : List Char}

theorem WellFormed.splitHead_opening (h : r.WellFormed status head) (rest : List Char) :
    splitHead (r.opening ++ rest) = (head, rest) := by
  rcases h.opening with ⟨e, hopening, rfl⟩ | heads
  · rw [hopening]
    cases e <;> rfl
  · exact heads.splitHead_append rest

/-- The whole of an answer is read, its body to the end. -/
theorem WellFormed.ofLeaf?_text (h : r.WellFormed status head) (partHead : List Char) :
    BatchEntry.ofLeaf? ⟨partHead, r.text⟩ = some (r.entry partHead status head) := by
  have hhttp : BatchEntry.fromStatusLine? r.text = some r.http :=
    BatchEntry.fromStatusLine?_eq_some_iff.mpr
      ⟨r.before, rfl, h.mark.trans (List.prefix_append _ _), h.first⟩
  have hcut : cutFirst? '\n' r.http = some (r.statusLine, r.opening ++ (r.body ++ r.ends)) :=
    cutFirst?_joint h.line
  have hbody : dropEndWhile isLineEnd (r.body ++ r.ends) = r.body :=
    dropEndWhile_append h.body h.ends
  simp [BatchEntry.ofLeaf?, hhttp, hcut, h.status, h.splitHead_opening, hbody, entry]

end HttpReply
end Multipart

namespace BatchEntry

theorem cutFirst?_getD_snd (c : Char) (s : List Char) :
    ((cutFirst? c s).getD (s, [])).2 <:+ s := by
  induction s with
  | nil => exact List.suffix_refl _
  | cons x s ih =>
    rw [cutFirst?]
    split
    · exact List.suffix_cons x s
    · cases h : cutFirst? c s with
      | none => exact List.nil_suffix
      | some p =>
        rw [h] at ih
        exact ih.trans (List.suffix_cons x s)

theorem dropEndWhile_prefix_self (p : Char → Bool) (s : List Char) : dropEndWhile p s <+: s := by
  rw [dropEndWhile, ← List.reverse_suffix, List.reverse_reverse]
  exact List.dropWhile_suffix p

/-- The body of an entry stands in the leaf. -/
theorem body_infix_of_ofLeaf? {leaf : Multipart.Leaf} {e : BatchEntry}
    (h : ofLeaf? leaf = some e) : e.body.toList <:+: leaf.content := by
  simp only [ofLeaf?, Option.bind_eq_bind, Option.bind_eq_some_iff, Option.pure_def,
    Option.some.injEq] at h
  obtain ⟨http, hhttp, status, -, rfl⟩ := h
  obtain ⟨before, hcontent, -⟩ := fromStatusLine?_eq_some_iff.mp hhttp
  rw [String.toList_ofList, hcontent]
  have hrest := cutFirst?_getD_snd '\n' http
  have hbody := Multipart.splitHead_suffix ((cutFirst? '\n' http).getD (http, [])).2
  exact (dropEndWhile_prefix_self _ _).isInfix.trans
    ((hbody.trans (hrest.trans (List.suffix_append before http))).isInfix)

end BatchEntry

namespace BatchResponse

open Multipart

variable {ops : List Operation} {contentType body : String} {boundary preamble : List Char}
  {portions : List Portion} {r : BatchResponse}

/-- A multipart body is read leaf by leaf. -/
theorem entries_of_boundary (names : boundary? contentType.toList = some boundary) :
    entries contentType body = .ok ((leaves boundary body.toList).map BatchEntry.ofLeaf?) := by
  rw [entries, names]
  rfl

/-- No result holds a delimiter of a body around its leaf. -/
theorem exists_encloses_of_mem_results (names : boundary? contentType.toList = some boundary)
    (decoded : decode ops contentType body = .ok r) {result : OperationResult}
    (h : result ∈ r.results) :
    ∃ bs leaf, Encloses boundary body.toList bs leaf ∧ result.body.toList <:+: leaf.content ∧
      ∀ b ∈ bs, ¬ delimiter b <:+: result.body.toList := by
  obtain ⟨es, hes, hperm⟩ := exists_results_perm decoded
  obtain ⟨⟨i, e⟩, hmem, rfl⟩ := List.mem_map.mp (hperm.mem_iff.mp h)
  obtain rfl := Except.ok.inj (hes.symm.trans (entries_of_boundary names))
  rw [mem_readable, List.getElem?_map, Option.map_eq_some_iff] at hmem
  obtain ⟨leaf, hleaf, he⟩ := hmem
  obtain ⟨bs, hencloses⟩ := exists_encloses_of_mem (List.mem_of_getElem? hleaf)
  have hbody : (assign ops i e).2.body.toList <:+: leaf.content := by
    rw [(kept_assign ops i e).2.2]
    exact BatchEntry.body_infix_of_ofLeaf? he
  exact ⟨bs, leaf, hencloses, hbody, fun b hb hwithin =>
    hencloses.lacks b hb (hwithin.trans hbody)⟩

/-- Where every entry can be read there is a result for each. -/
theorem length_readable {es : List (Option BatchEntry)} (h : ∀ e ∈ es, e ≠ none) :
    (readable es).length = es.length := by
  rw [readable, List.filterMap_length_eq_length.mpr, List.length_zipIdx]
  intro x hx
  obtain ⟨e, he⟩ := Option.ne_none_iff_exists'.mp (h x.1 (List.fst_mem_of_mem_zipIdx hx))
  simp [he]

/-- **Delimiters that begin others do no harm, others do.**  If the delimiter of each body
stands elsewhere only at the start of those of bodies inside, there is one result for each
answer, with its status, its headers and the whole of its body.  In every response each result
has a body out of one leaf, without a delimiter of any body around that leaf. -/
theorem decode_portions (ops : List Operation)
    (names : boundary? contentType.toList = some boundary) (laid : Laid boundary preamble portions)
    (wf : ∀ p ∈ portions, p.WellFormed) :
    (∃ r, decode ops contentType (String.ofList (preamble ++ portionsText boundary portions)) =
        .ok r ∧
      r.results.Perm ((readable ((portionsLeaves portions).map BatchEntry.ofLeaf?)).map
        fun x => (assign ops x.1 x.2).2) ∧
      ((∀ leaf ∈ portionsLeaves portions, ∃ (reply : HttpReply) (status : Nat) (head : List Char),
          leaf.content = reply.text ∧ reply.WellFormed status head) →
        r.results.length = (portionsLeaves portions).length) ∧
      ∀ (i : Nat) (partHead : List Char) (reply : HttpReply) (status : Nat) (head : List Char),
        (portionsLeaves portions)[i]? = some ⟨partHead, reply.text⟩ →
        reply.WellFormed status head →
        let e := reply.entry partHead status head
        (i, e) ∈ readable ((portionsLeaves portions).map BatchEntry.ofLeaf?) ∧
          (assign ops i e).2 ∈ r.results ∧ (assign ops i e).2.status = e.status ∧
          (assign ops i e).2.headers = e.headers ∧ (assign ops i e).2.body = e.body) ∧
    ∀ body r, decode ops contentType body = .ok r → ∀ result ∈ r.results,
      ∃ bs leaf, Encloses boundary body.toList bs leaf ∧ result.body.toList <:+: leaf.content ∧
        ∀ b ∈ bs, ¬ delimiter b <:+: result.body.toList := by
  have hentries : entries contentType
      (String.ofList (preamble ++ portionsText boundary portions)) =
        .ok ((portionsLeaves portions).map BatchEntry.ofLeaf?) := by
    rw [entries_of_boundary names, String.toList_ofList,
      map_ofLeaf?_leaves (isBoundary_of_boundary? names) laid wf]
  have hperm := sorted_perm ops ((portionsLeaves portions).map BatchEntry.ofLeaf?)
  refine ⟨⟨_, decode_of_ok hentries, hperm, fun replies => ?_, ?_⟩, fun body r decoded result h =>
    exists_encloses_of_mem_results names decoded h⟩
  · have hread : ∀ e ∈ (portionsLeaves portions).map BatchEntry.ofLeaf?, e ≠ none := by
      intro e he
      obtain ⟨⟨partHead, content⟩, hleaf, rfl⟩ := List.mem_map.mp he
      obtain ⟨reply, status, head, hcontent, hreply⟩ := replies _ hleaf
      obtain rfl : content = reply.text := hcontent
      rw [hreply.ofLeaf?_text]
      exact Option.some_ne_none _
    rw [hperm.length_eq, List.length_map, length_readable hread, List.length_map]
  · intro i partHead reply status head hleaf hreply
    have hmem : (i, reply.entry partHead status head) ∈
        readable ((portionsLeaves portions).map BatchEntry.ofLeaf?) :=
      mem_readable.mpr (by rw [List.getElem?_map, hleaf, Option.map_some, hreply.ofLeaf?_text])
    exact ⟨hmem, hperm.mem_iff.mpr (List.mem_map_of_mem hmem), kept_assign ops i _⟩

/-- A part with an answer without headers of its own. -/
def plainPart (body : String) : List Char :=
  "Content-Type: application/http\r\n\r\n".toList ++
    ("HTTP/1.1 200 OK\r\n\r\n".toList ++ (body.toList ++ crlf))

/-- The head of a body under a boundary of its own. -/
def groupHead (boundary : List Char) : List Char :=
  "Content-Type: multipart/mixed; boundary=".toList ++ (boundary ++ (crlf ++ crlf))

/-- A body with the parts `parts`, and behind it the text `epilogue`. -/
def groupOf (boundary : List Char) (parts : List (List Char)) (epilogue : String) : Portion :=
  .group .crlf (groupHead boundary) boundary []
    (parts.map (.part .crlf) ++ [.closing (crlf ++ epilogue.toList)])

/-- A body with two answers, and a third behind it. -/
def twoThenOne (inner : List Char) (epilogue : String) : List Portion :=
  [groupOf inner [plainPart "one", plainPart "two"] epilogue, .part .crlf (plainPart "three"),
    .closing crlf]

/-- The answer of a plain part. -/
def plainReply (body : String) : HttpReply :=
  ⟨[], "HTTP/1.1 200 OK\r".toList, crlf, body.toList, crlf⟩

theorem plainReply_wellFormed {body : String}
    (h : ∀ c ∈ body.toList.getLast?, isLineEnd c = false) :
    (plainReply body).WellFormed 200 [] where
  first := skips_nil _ _
  mark := (by decide +kernel : statusMark <+: "HTTP/1.1 200 OK\r".toList)
  line := (by decide +kernel : '\n' ∉ "HTTP/1.1 200 OK\r".toList)
  status := (by decide +kernel : BatchEntry.statusOfLine? "HTTP/1.1 200 OK\r".toList = some 200)
  opening := .inl ⟨.crlf, rfl, rfl⟩
  body := h
  ends := (by decide : ∀ c ∈ crlf, isLineEnd c = true)

theorem laid_inner : Laid ['b', '1'] [] [.part .crlf (plainPart "one"),
    .part .crlf (plainPart "two"), .closing crlf] where
  absent := by decide
  preamble := by decide
  endsLine := by decide +kernel
  kept := by
    simp only [List.forall_mem_cons]
    exact ⟨.part (by decide +kernel) (.inl rfl), .part (by decide +kernel) (.inl rfl),
      .closing (by decide) (.inl rfl), by simp⟩

theorem twoThenOne_wellFormed : ∀ p ∈ twoThenOne ['b', '1'] "", p.WellFormed := by
  have heads : Heads ((groupHead ['b', '1']).dropWhile isLineEnd)
      "Content-Type: multipart/mixed; boundary=b1".toList := by decide +kernel
  have declared : innerBoundary? "Content-Type: multipart/mixed; boundary=b1".toList =
      some ['b', '1'] := by decide +kernel
  simp only [twoThenOne, List.forall_mem_cons]
  refine ⟨.group heads declared laid_inner ?_, .part (by decide +kernel), .closing, by simp⟩
  simp only [List.map_cons, List.map_nil, List.cons_append, List.nil_append, List.forall_mem_cons]
  exact ⟨.part (by decide +kernel), .part (by decide +kernel), .closing, by simp⟩

theorem laid_twoThenOne : Laid ['b'] [] (twoThenOne ['b', '1'] "") where
  absent := by decide
  preamble := by decide
  endsLine := by decide +kernel
  kept := by
    simp only [twoThenOne, List.forall_mem_cons]
    refine ⟨?_, .part (by decide +kernel) (.inl rfl), .closing (by decide) (.inl rfl), by simp⟩
    refine .longer (y := ['1']) (by decide +kernel) (.inl rfl) ⟨by decide, by decide⟩ ?_
    simp only [List.map_cons, List.map_nil, List.cons_append, List.nil_append, List.forall_mem_cons]
    exact ⟨.part (by decide +kernel) (.inr (by decide +kernel)),
      .part (by decide +kernel) (.inr (by decide +kernel)),
      .closing (by decide) (.inr (by decide)), by simp⟩

/-- The delimiter of the outer body begins those of the inner one, and there are three
results. -/
theorem decode_portions_twoThenOne :
    ∃ r, decode [.get "x" "X", .get "y" "Y", .get "z" "Z"] "multipart/mixed; boundary=b"
        (String.ofList ([] ++ portionsText ['b'] (twoThenOne ['b', '1'] ""))) = .ok r ∧
      r.results.length = 3 ∧ ∃ result ∈ r.results, result.body = "one" := by
  have names : boundary? "multipart/mixed; boundary=b".toList = some ['b'] := by decide +kernel
  have hleaves : portionsLeaves (twoThenOne ['b', '1'] "") =
      ["one", "two", "three"].map fun body =>
        ⟨"Content-Type: application/http".toList, (plainReply body).text⟩ := by decide +kernel
  obtain ⟨⟨r, decoded, -, hlength, hresult⟩, -⟩ :=
    decode_portions [.get "x" "X", .get "y" "Y", .get "z" "Z"] names laid_twoThenOne
      twoThenOne_wellFormed
  rw [hleaves] at hlength hresult
  obtain ⟨-, hmem, -, -, hbody⟩ := hresult 0 _ (plainReply "one") 200 [] rfl
    (plainReply_wellFormed (by decide))
  refine ⟨r, decoded, hlength fun leaf hleaf => ?_, _, hmem, hbody⟩
  obtain ⟨body, hin, rfl⟩ := List.mem_map.mp hleaf
  have hends : ∀ body ∈ ["one", "two", "three"], ∀ c ∈ body.toList.getLast?,
      isLineEnd c = false := by decide
  exact ⟨plainReply body, 200, [], rfl, plainReply_wellFormed (hends body hin)⟩

/-- The entry of an answer without headers. -/
def plainEntry (id : Option String) (body : String) : BatchEntry := ⟨id, 200, ∅, body⟩

/-- What is read of a body with the boundary `b`. -/
def readPortions (portions : List Portion) : Except Failure (List (Option BatchEntry)) :=
  entries "multipart/mixed; boundary=b" (String.ofList (portionsText ['b'] portions))

theorem readPortions_eq {es : List (Option BatchEntry)}
    (h : (leaves ['b'] (portionsText ['b'] portions)).map BatchEntry.ofLeaf? = es) :
    readPortions portions = .ok es := by
  have names : boundary? "multipart/mixed; boundary=b".toList = some ['b'] := by decide +kernel
  rw [readPortions, entries_of_boundary names, String.toList_ofList, h]

/-- The text of a delimiter in the middle of a line ends a body.  A longer delimiter is in the
way if it goes on as a closing one does or as a header that counts; so is a text behind a
blank line behind its closing one, a body between it and the outer one, and a part without
headers, which is read as if it had some. -/
theorem decode_elsewhere :
    (∃ r, decode [.get "x" "X"] "multipart/mixed; boundary=b" (String.ofList
        (portionsText ['b'] [.part .crlf (plainPart "see --b here"), .closing crlf])) = .ok r ∧
      r.results.map OperationResult.body = ["see "]) ∧
    readPortions (twoThenOne "b--1".toList "") = .ok [some (plainEntry none "three")] ∧
    readPortions (twoThenOne "bcontent-id:z".toList "") =
      .ok [some (plainEntry (some "z") "one"), some (plainEntry (some "z") "two"),
        some (plainEntry none "three")] ∧
    readPortions (twoThenOne ['b', '1'] "bye\r\n\r\nbye\r\n") =
      .ok [some (plainEntry none "one"), some (plainEntry none "two"), none,
        some (plainEntry none "three")] ∧
    readPortions [groupOf ['c'] [groupHead ['b', '1'] ++ portionsText ['b', '1']
        [.part .crlf (plainPart "one"), .closing crlf], plainPart "two"] "", .closing crlf] =
      .ok [some (plainEntry none "one"), some (plainEntry none "two\r\n--c--")] ∧
    readPortions [groupOf ['c'] [crlf ++ (plainReply "one").text] "", .closing crlf] = .ok [none] ∧
    readPortions [groupOf ['b', '1'] [crlf ++ (plainReply "one").text] "", .closing crlf] =
      .ok [some (plainEntry none "one")] := by
  have hread : readPortions [.part .crlf (plainPart "see --b here"), .closing crlf] =
      .ok [some (plainEntry none "see ")] := readPortions_eq (by decide +kernel)
  refine ⟨⟨_, decode_of_pairwise hread (List.pairwise_singleton _ _), rfl⟩, readPortions_eq ?_,
    readPortions_eq ?_, readPortions_eq ?_, readPortions_eq ?_, readPortions_eq ?_,
    readPortions_eq ?_⟩
  all_goals decide +kernel

end BatchResponse
end OData
