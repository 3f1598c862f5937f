import OData.Proofs.Multipart.Head

/-! # Multipart bodies as trees

A section of a multipart body is a message, or a group: a multipart body again,
under a boundary that the section's own fields declare.  `bodyText` writes the
sections of a body between delimiter lines, with any text in front of the first
and behind the last.

`leaves_bodyText` is the main statement.  Whatever the nesting, the leaves of such
a body are its messages, in the order in which they stand there.  What it asks of
a body is `Frame.Separates`: the delimiter of a body occurs in none of its
sections.  Sections may share their boundaries with others beside them.
-/
namespace OData
namespace Multipart

open Text

/-! ## Declared boundaries -/

/-- A boundary that a content type can name. -/
structure IsBoundary (boundary : List Char) : Prop where
  nonempty : boundary ≠ []
  plain : ∀ c ∈ boundary, c ≠ '"' ∧ c ≠ ';' ∧ isBlank c = false

instance (boundary : List Char) : Decidable (IsBoundary boundary) :=
  decidable_of_iff (boundary ≠ [] ∧ ∀ c ∈ boundary, c ≠ '"' ∧ c ≠ ';' ∧ isBlank c = false)
    ⟨fun ⟨h1, h2⟩ => ⟨h1, h2⟩, fun ⟨h1, h2⟩ => ⟨h1, h2⟩⟩

/-- `contentType` has the parameter `boundary` with the value given, in quotes or
not, and the word stands nowhere in front of it. -/
def Names (contentType boundary : List Char) : Prop :=
  ∃ before quote after,
    contentType = before ++ ("boundary=".toList ++ (quote ++ (boundary ++ (quote ++ after)))) ∧
    ¬ "boundary".toList <:+: asciiLower before ∧
    (quote = ['"'] ∨ quote = [] ∧ ∀ c ∈ after.head?, c = '"' ∨ c = ';' ∨ isBlank c = true)

/-- The content type that this library writes. -/
theorem names_mixed (boundary : List Char) :
    Names ("multipart/mixed; boundary=".toList ++ boundary) boundary :=
  ⟨"multipart/mixed; ".toList, [], [], by simp, by decide +kernel, .inr ⟨rfl, by simp⟩⟩

/-- No part of the word `boundary` is both its start and its end, so the word does
not start in a text without it and end behind that text. -/
theorem parameterAt?_eq_none {t : List Char} (rest : List Char) (ht : t ≠ [])
    (h : ¬ "boundary".toList <:+: asciiLower t) :
    parameterAt? (t ++ ("boundary=".toList ++ rest)) = none := by
  rw [parameterAt?, if_neg]
  intro he
  rw [List.take_append, asciiLower, List.map_append] at he
  rcases Nat.lt_or_ge t.length 8 with hl | hl
  · -- The word would end behind `t`, so `t` would end with a start of the word.
    have hk : (("boundary=".toList ++ rest).take (8 - t.length)) =
        "boundary".toList.take (8 - t.length) := by
      rw [List.take_append_of_le_length (by simp; omega)]
      have hsplit : "boundary=".toList = "boundary".toList ++ ['='] := rfl
      rw [hsplit, List.take_append_of_le_length (by simp)]
    have hd := congrArg (List.drop t.length) he
    rw [hk, List.take_of_length_le (by omega), List.drop_left' (by simp)] at hd
    have hpos : 0 < t.length := List.length_pos_iff.mpr ht
    have hborder : ∀ k < 8, 0 < k →
        ("boundary".toList.take (8 - k)).map Char.toLower ≠ "boundary".toList.drop k := by decide
    exact hborder _ hl hpos hd
  · -- The word would stand in `t`.
    rw [Nat.sub_eq_zero_of_le hl, List.take_zero, List.map_nil, List.append_nil] at he
    refine h ?_
    rw [← he]
    exact ((List.take_prefix 8 t).map Char.toLower).isInfix

theorem takeWhile_boundary {boundary : List Char} (after : List Char) (hb : IsBoundary boundary)
    (ha : ∀ c ∈ after.head?, c = '"' ∨ c = ';' ∨ isBlank c = true) :
    (boundary ++ after).takeWhile (fun c => c != '"' && c != ';' && !isBlank c) = boundary := by
  rw [List.takeWhile_append_of_pos]
  · cases after with
    | nil => simp
    | cons x after =>
      rw [List.takeWhile_cons_of_neg, List.append_nil]
      rcases ha x rfl with rfl | rfl | hx
      · simp
      · simp
      · simp [hx]
  · intro c hc
    obtain ⟨h1, h2, h3⟩ := hb.plain c hc
    simp [h1, h2, h3]

theorem parameterAt?_boundary {boundary quote after : List Char} (hb : IsBoundary boundary)
    (hq : quote = ['"'] ∨ quote = [] ∧ ∀ c ∈ after.head?, c = '"' ∨ c = ';' ∨ isBlank c = true) :
    parameterAt? ("boundary=".toList ++ (quote ++ (boundary ++ (quote ++ after)))) =
      some boundary := by
  have hword : asciiLower
      (("boundary=".toList ++ (quote ++ (boundary ++ (quote ++ after)))).take 8) =
        "boundary".toList := rfl
  cases boundary with
  | nil => exact absurd rfl hb.nonempty
  | cons x boundary =>
    obtain ⟨h1, h2, h3⟩ := hb.plain x (List.mem_cons_self ..)
    have heq : isBlank '=' = false := rfl
    have hquote : isBlank '"' = false := rfl
    rw [parameterAt?, if_pos hword]
    rcases hq with rfl | ⟨rfl, ha⟩
    · have hv := takeWhile_boundary ('"' :: after) hb (by simp)
      rw [List.cons_append] at hv
      simp [heq, hquote, hv]
    · have hv := takeWhile_boundary _ hb ha
      rw [List.cons_append] at hv
      simp [heq, h1, h3, hv]

theorem boundary?_of_names {contentType boundary : List Char} (hb : IsBoundary boundary)
    (h : Names contentType boundary) : boundary? contentType = some boundary := by
  obtain ⟨before, quote, after, rfl, hw, hq⟩ := h
  induction before with
  | nil =>
    have hv := parameterAt?_boundary hb hq
    have hcons : "boundary=".toList ++ (quote ++ (boundary ++ (quote ++ after))) =
        'b' :: ("oundary=".toList ++ (quote ++ (boundary ++ (quote ++ after)))) := rfl
    rw [List.nil_append, hcons, boundary?, ← hcons, hv]
  | cons c before ih =>
    have hnone := parameterAt?_eq_none (quote ++ (boundary ++ (quote ++ after)))
      (List.cons_ne_nil c before) hw
    rw [List.cons_append] at hnone ⊢
    rw [boundary?, hnone]
    exact ih fun hi => hw (hi.trans (List.suffix_cons _ _).isInfix)

/-! ## Sections -/

/-- A message: a block of fields and what follows it. -/
structure Message where
  fields : List Field
  content : List Char

/-- The message as a leaf of a body. -/
def Message.leaf (m : Message) : Leaf := ⟨joinLines (m.fields.map Field.line), m.content⟩

/-- What a multipart body has around its sections. -/
structure Frame where
  boundary : List Char
  /-- The text in front of the first delimiter. -/
  preamble : List Char
  /-- The text behind the last delimiter line. -/
  epilogue : List Char

/-- Two hyphens and a boundary. -/
def delimiter (boundary : List Char) : List Char := '-' :: '-' :: boundary

/-- Text between delimiter lines with what the frame has around them. -/
def Frame.enclose (frame : Frame) (inner : List Char) : List Char :=
  frame.preamble ++ (inner ++ (delimiter frame.boundary ++ ('-' :: '-' :: crlf ++ frame.epilogue)))

/-- A section of a multipart body. -/
inductive Section where
  | message (m : Message)
  /-- Sections under a boundary of their own. -/
  | group (fields : List Field) (frame : Frame) (parts : List Section)

mutual

/-- The text of a section, without the delimiter line in front of it. -/
def Section.text : Section → List Char
  | .message m => messageText (m.fields.map Field.line) m.content
  | .group fields frame parts =>
    messageText (fields.map Field.line) (frame.enclose (sectionsText frame.boundary parts))
termination_by structural p => p

/-- The texts of sections, each behind a delimiter line. -/
def sectionsText (boundary : List Char) : List Section → List Char
  | [] => []
  | p :: parts => delimiter boundary ++ (crlf ++ p.text) ++ sectionsText boundary parts
termination_by structural parts => parts

end

mutual

/-- The messages of a section, in the order in which they stand there. -/
def Section.messages : Section → List Message
  | .message m => [m]
  | .group _ _ parts => messagesOf parts
termination_by structural p => p

/-- The messages of sections. -/
def messagesOf : List Section → List Message
  | [] => []
  | p :: parts => p.messages ++ messagesOf parts
termination_by structural parts => parts

end

/-- The multipart body of sections. -/
def bodyText (frame : Frame) (parts : List Section) : List Char :=
  frame.enclose (sectionsText frame.boundary parts)

theorem sectionsText_eq_flatMap (boundary : List Char) (parts : List Section) :
    sectionsText boundary parts =
      (parts.map fun p => crlf ++ p.text).flatMap fun t => delimiter boundary ++ t := by
  induction parts with
  | nil => rfl
  | cons p parts ih => rw [sectionsText, ih, List.map_cons, List.flatMap_cons]

theorem messagesOf_eq_flatMap (parts : List Section) :
    messagesOf parts = parts.flatMap Section.messages := by
  induction parts with
  | nil => rfl
  | cons p parts ih => rw [messagesOf, ih, List.flatMap_cons]

/-- A text that is empty or ends a line. -/
def EndsLine (s : List Char) : Prop := ∀ c ∈ s.getLast?, c = '\n'

instance (s : List Char) : Decidable (EndsLine s) := inferInstanceAs (Decidable (∀ c ∈ _, _))

/-- The delimiter of a body occurs in its delimiter lines only, and these are
lines. -/
structure Frame.Separates (frame : Frame) (parts : List Section) : Prop where
  boundary : IsBoundary frame.boundary
  preamble : ¬ delimiter frame.boundary <:+: frame.preamble
  preamble_endsLine : EndsLine frame.preamble
  parts : ∀ p ∈ parts, ¬ delimiter frame.boundary <:+: p.text
  epilogue : ¬ delimiter frame.boundary <:+: frame.epilogue

/-- Fields that open a section. -/
structure Opens (fields : List Field) : Prop where
  nonempty : fields ≠ []
  wellFormed : ∀ f ∈ fields, f.WellFormed

instance (fields : List Field) : Decidable (Opens fields) :=
  decidable_of_iff (fields ≠ [] ∧ ∀ f ∈ fields, f.WellFormed)
    ⟨fun ⟨h1, h2⟩ => ⟨h1, h2⟩, fun ⟨h1, h2⟩ => ⟨h1, h2⟩⟩

/-- The content type that fields give says that parts follow. -/
def SaysParts (contentType : String) : Prop :=
  "multipart/mixed".toList <+: asciiLower contentType.toList

instance (contentType : String) : Decidable (SaysParts contentType) :=
  decidable_of_iff _ List.isPrefixOf_iff_prefix

/-- A section that is written as a reader of multipart bodies expects it. -/
inductive Section.WellFormed : Section → Prop
  | message {m : Message} (opens : Opens m.fields)
      (single : ∀ t, (Headers.ofFields m.fields).get? "content-type" = some t → ¬ SaysParts t)
      (endsLine : EndsLine m.content) (visible : allBlank m.content = false) :
      WellFormed (.message m)
  | group {fields : List Field} {frame : Frame} {parts : List Section} {t : String}
      (opens : Opens fields) (type : (Headers.ofFields fields).get? "content-type" = some t)
      (saysParts : SaysParts t) (names : Names t.toList frame.boundary)
      (separates : frame.Separates parts) (endsLine : EndsLine frame.epilogue)
      (wellFormed : ∀ p ∈ parts, WellFormed p) : WellFormed (.group fields frame parts)

/-! ## Cutting at the delimiters -/

theorem EndsLine.append {a b : List Char} (ha : EndsLine a) (hb : EndsLine b) :
    EndsLine (a ++ b) := by
  intro c hc
  rw [List.getLast?_append] at hc
  cases hl : b.getLast? with
  | none => exact ha c (by simpa [hl] using hc)
  | some x => exact hb c (by simpa [hl] using hc)

theorem endsLine_append_crlf (s : List Char) : EndsLine (s ++ crlf) := by
  intro c hc
  simpa [crlf, eq_comm] using hc

theorem endsLine_crlf : EndsLine crlf := endsLine_append_crlf []

theorem endsLine_messageText (ls : List (List Char)) {body : List Char} (h : EndsLine body) :
    EndsLine (messageText ls body) := by
  rw [messageText]
  refine EndsLine.append ?_ (endsLine_crlf.append h)
  induction ls with
  | nil => simp [EndsLine]
  | cons l ls ih =>
    rw [List.flatMap_cons]
    exact (endsLine_append_crlf l).append ih

theorem endsLine_enclose {frame : Frame} (h : EndsLine frame.epilogue) (inner : List Char) :
    EndsLine (frame.enclose inner) := by
  have hl : EndsLine (crlf ++ frame.epilogue) := endsLine_crlf.append h
  intro c hc
  refine hl c ?_
  have he : frame.enclose inner = (frame.preamble ++ (inner ++ (delimiter frame.boundary ++
      ['-', '-']))) ++ (crlf ++ frame.epilogue) := by
    simp [Frame.enclose]
  rw [he, List.getLast?_append, crlf, List.cons_append, List.getLast?_cons] at hc
  rw [crlf, List.cons_append, List.getLast?_cons]
  simpa using hc

/-- Every section ends a line, so that the next delimiter starts one. -/
theorem Section.WellFormed.endsLine {p : Section} (h : p.WellFormed) : EndsLine p.text := by
  cases h with
  | message _ _ he _ => exact endsLine_messageText _ he
  | group _ _ _ _ _ he _ => exact endsLine_messageText _ (endsLine_enclose he _)

theorem IsBoundary.not_mem_delimiter {boundary : List Char} (h : IsBoundary boundary) {c : Char}
    (hc : isBlank c = true) : c ∉ delimiter boundary := by
  intro hm
  rcases List.mem_cons.mp hm with rfl | hm
  · exact absurd hc (by decide)
  · rcases List.mem_cons.mp hm with rfl | hm
    · exact absurd hc (by decide)
    · rw [(h.plain c hm).2.2] at hc
      cases hc

theorem apart_of_endsLine {boundary s : List Char} (hb : IsBoundary boundary)
    (hs : ¬ delimiter boundary <:+: s) (hl : EndsLine s) : Apart (delimiter boundary) s where
  absent := hs
  last := fun c hc => hl c hc ▸ hb.not_mem_delimiter rfl

/-- A delimiter that occurs in no text does not occur behind a line end in front
of it either. -/
theorem not_infix_crlf {boundary s : List Char} (h : ¬ delimiter boundary <:+: s) :
    ¬ delimiter boundary <:+: crlf ++ s := by
  rw [crlf, List.cons_append, List.cons_append, List.nil_append, List.infix_cons_iff,
    List.infix_cons_iff]
  rintro (hp | hp | hp)
  · simp [delimiter] at hp
  · simp [delimiter] at hp
  · exact h hp

theorem not_infix_closing {boundary s : List Char} (hb : IsBoundary boundary)
    (h : ¬ delimiter boundary <:+: s) :
    ¬ delimiter boundary <:+: '-' :: '-' :: crlf ++ s := by
  obtain ⟨x, b, rfl⟩ := List.exists_cons_of_ne_nil hb.nonempty
  rw [List.cons_append, List.cons_append, List.infix_cons_iff, List.infix_cons_iff]
  rintro (hp | hp | hp)
  · -- The boundary would start with the line end behind the hyphens.
    have hx := (hb.plain x (List.mem_cons_self ..)).2.2
    have : x = '\r' := by
      simp only [delimiter, crlf, List.cons_append, List.cons_prefix_cons, true_and] at hp
      exact hp.1
    rw [this] at hx
    cases hx
  · simp [delimiter, crlf] at hp
  · exact not_infix_crlf h hp

theorem pieces_bodyText {frame : Frame} {parts : List Section} (h : frame.Separates parts)
    (hp : ∀ p ∈ parts, p.WellFormed) :
    pieces frame.boundary (bodyText frame parts) =
      (parts.map fun p => crlf ++ p.text) ++ ['-' :: '-' :: crlf ++ frame.epilogue] := by
  rw [pieces, bodyText, Frame.enclose, sectionsText_eq_flatMap]
  refine congrArg List.tail (splitOn_joined ?_ ?_ ?_)
  · exact apart_of_endsLine h.boundary h.preamble h.preamble_endsLine
  · intro t ht
    obtain ⟨p, hm, rfl⟩ := List.mem_map.mp ht
    exact apart_of_endsLine h.boundary (not_infix_crlf (h.parts p hm))
      (endsLine_crlf.append (hp p hm).endsLine)
  · exact not_infix_closing h.boundary h.epilogue

/-! ## Leaves -/

/-- The leaves that a piece comes to. -/
def Part.leaves : Part → List Leaf
  | .nothing => []
  | .leaf l => [l]
  | .body boundary content => Multipart.leaves boundary content

/-- The leaves of a body are those of its pieces. -/
theorem leaves_eq_flatMap (boundary body : List Char) :
    leaves boundary body = (pieces boundary body).flatMap fun p => (Part.ofPiece p).leaves := by
  rw [leaves, List.flatMap_subtype (g := fun p => (Part.ofPiece p).leaves), List.unattach_attach]
  intro p hp
  dsimp only
  split
  · next h => rw [h]; rfl
  · next h => rw [h]; rfl
  · next h => rw [h]; rfl

theorem ofPiece_messageText {fields : List Field} (h : Opens fields) (content : List Char) :
    Part.ofPiece (crlf ++ messageText (fields.map Field.line) content) =
      match innerBoundary? (joinLines (fields.map Field.line)) with
      | some boundary => .body boundary content
      | none => if allBlank content then .nothing
          else .leaf ⟨joinLines (fields.map Field.line), content⟩ := by
  have hls := Field.lines_oneLine h.wellFormed
  obtain ⟨x, t, hxt, hxr, hxn⟩ :=
    exists_joinLines_eq_cons (by simpa using h.nonempty) hls
  have hcons : messageText (fields.map Field.line) content =
      x :: (t ++ (crlf ++ crlf ++ content)) := by
    rw [messageText_eq (by simpa using h.nonempty), hxt]
    rfl
  -- A field has a colon, which is visible.
  have hvisible : allBlank (messageText (fields.map Field.line) content) = false := by
    obtain ⟨f, fs, rfl⟩ := List.exists_cons_of_ne_nil h.nonempty
    have hc : ':' ∈ messageText ((f :: fs).map Field.line) content := by
      simp [messageText, Field.line]
    rw [allBlank, List.all_eq_false]
    exact ⟨':', hc, by decide⟩
  have hdrop : (crlf ++ messageText (fields.map Field.line) content).dropWhile isLineEnd =
      messageText (fields.map Field.line) content := by
    rw [hcons]
    simp [crlf, isLineEnd, hxr, hxn]
  rw [Part.ofPiece, if_neg (by simp [crlf])]
  dsimp only
  rw [hdrop, if_neg (by simp [hvisible])]
  have hcut := splitHead_fields h.wellFormed content
  generalize splitHead (messageText (fields.map Field.line) content) = cut at hcut ⊢
  subst hcut
  rfl

/-- The boundary that headers declare, if their content type says that parts follow. -/
def declaredBoundary? (headers : Headers) : Option (List Char) :=
  (headers.get? "content-type").bind fun t =>
    if "multipart/mixed".toList.isPrefixOf (asciiLower t.toList) then boundary? t.toList else none

theorem innerBoundary?_eq (head : List Char) :
    innerBoundary? head = declaredBoundary? (Headers.ofBlock head) := by
  rw [innerBoundary?, declaredBoundary?]
  cases (Headers.ofBlock head).get? "content-type" with
  | none => rfl
  | some t =>
    rw [Option.bind_eq_bind, Option.bind_some, Option.bind_some]
    generalize "multipart/mixed".toList.isPrefixOf (asciiLower t.toList) = parts
    cases parts <;> rfl

/-- The content type of a head decides whether its section is a group. -/
theorem innerBoundary?_fields {fields : List Field} (h : Opens fields) :
    innerBoundary? (joinLines (fields.map Field.line)) =
      declaredBoundary? (Headers.ofFields fields) := by
  rw [innerBoundary?_eq, Headers.ofBlock_fields h.wellFormed]

theorem innerBoundary?_eq_none {fields : List Field} (h : Opens fields)
    (single : ∀ t, (Headers.ofFields fields).get? "content-type" = some t → ¬ SaysParts t) :
    innerBoundary? (joinLines (fields.map Field.line)) = none := by
  rw [innerBoundary?_fields h, declaredBoundary?]
  cases ht : (Headers.ofFields fields).get? "content-type" with
  | none => rfl
  | some t =>
    rw [Option.bind_some, if_neg]
    exact fun hp => single t ht (List.isPrefixOf_iff_prefix.mp hp)

theorem innerBoundary?_eq_some {fields : List Field} {t : String} {boundary : List Char}
    (h : Opens fields) (ht : (Headers.ofFields fields).get? "content-type" = some t)
    (kind : SaysParts t) (hb : IsBoundary boundary) (names : Names t.toList boundary) :
    innerBoundary? (joinLines (fields.map Field.line)) = some boundary := by
  rw [innerBoundary?_fields h, declaredBoundary?, ht, Option.bind_some,
    if_pos (List.isPrefixOf_iff_prefix.mpr kind), boundary?_of_names hb names]

/-- The leaves of a body, from those of its sections. -/
theorem leaves_bodyText_of {frame : Frame} {parts : List Section} (h : frame.Separates parts)
    (wf : ∀ p ∈ parts, p.WellFormed)
    (hp : ∀ p ∈ parts, (Part.ofPiece (crlf ++ p.text)).leaves = p.messages.map Message.leaf) :
    leaves frame.boundary (bodyText frame parts) = (messagesOf parts).map Message.leaf := by
  have hclosing : (Part.ofPiece ('-' :: '-' :: crlf ++ frame.epilogue)).leaves = [] := by
    rw [Part.ofPiece, if_pos (by simp)]
    rfl
  rw [leaves_eq_flatMap, pieces_bodyText h wf, messagesOf_eq_flatMap, List.flatMap_append,
    List.flatMap_singleton, hclosing, List.append_nil, List.flatMap_map, List.map_flatMap,
    List.flatMap_def, List.flatMap_def, List.map_congr_left hp]

/-- The leaves of a well-formed section are its messages. -/
theorem leaves_section {p : Section} (h : p.WellFormed) :
    (Part.ofPiece (crlf ++ p.text)).leaves = p.messages.map Message.leaf := by
  induction h with
  | message opens single _ visible =>
    rw [Section.text, ofPiece_messageText opens, innerBoundary?_eq_none opens single]
    simp [visible, Part.leaves, Section.messages, Message.leaf]
  | group opens type kind names separates _ wf ih =>
    rw [Section.text, ofPiece_messageText opens,
      innerBoundary?_eq_some opens type kind separates.boundary names]
    exact leaves_bodyText_of separates wf ih

/-- **The leaves of a multipart body are its messages**, in the order in which
they stand there, to whatever depth its sections are nested. -/
theorem leaves_bodyText {frame : Frame} {parts : List Section} (h : frame.Separates parts)
    (wf : ∀ p ∈ parts, p.WellFormed) :
    leaves frame.boundary (bodyText frame parts) = (messagesOf parts).map Message.leaf :=
  leaves_bodyText_of h wf fun p hp => leaves_section (wf p hp)

end Multipart
end OData
