import OData.Proofs.Multipart.Sections

/-! # The leaves of any text

The parts of a body say themselves under which boundary they are read, and any text may
come as a body: a part may name the boundary it stands in, a start of it, or one that
occurs nowhere.  Reading ends all the same, for what a part is read from is shorter than
the body in which the part stands (`nested_wellFounded`).

`leaves_stand_apart` says what is collected.  The contents of the leaves are taken from
the body one behind the other (`StandIn`), so that no two of them overlap, and none holds
a delimiter at which the body, or a part around the leaf, was cut.
-/
namespace OData
namespace Text

variable {c : Char} {sep s t a b : List Char} {ts us : List (List Char)}

/-! ## Pieces lack what they were cut at -/

theorem not_infix_of_skips {rest : List Char} (hsep : sep ≠ []) (h : Skips sep a rest) :
    ¬ sep <:+: a := by
  rintro ⟨x, y, rfl⟩
  have hhead : sep <+: (sep ++ y) ++ rest := by
    rw [List.append_assoc]
    exact List.prefix_append _ _
  exact h (sep ++ y) (by simp [hsep]) ⟨x, by simp⟩ hhead

/-- A cut is made at the first place. -/
theorem skips_of_cutAt? (h : cutAt? (c :: sep) s = some (a, b)) :
    Skips (c :: sep) a (c :: sep ++ b) := by
  induction s generalizing a with
  | nil => simp [cutAt?] at h
  | cons x s ih =>
    have hs := eq_append_of_cutAt? h
    rw [cutAt?] at h
    split at h
    · obtain ⟨rfl, -⟩ := Prod.mk.inj (Option.some.inj h)
      exact skips_nil _ _
    · next hstart =>
      obtain ⟨⟨a', b'⟩, hcut, heq⟩ := Option.map_eq_some_iff.mp h
      obtain ⟨rfl, rfl⟩ := Prod.mk.inj heq
      refine skips_cons.mpr ⟨fun hhead => hstart ?_, ih hcut⟩
      rw [hs, List.isPrefixOf_iff_prefix]
      simpa using hhead

/-- No piece of a text holds the separator. -/
theorem not_infix_of_mem_splitOn (h : t ∈ splitOn c sep s) : ¬ c :: sep <:+: t := by
  fun_induction splitOn c sep s with
  | case1 s hs =>
    obtain rfl := List.mem_singleton.mp h
    exact not_infix_of_cutAt?_eq_none hs
  | case2 s a b hs _ ih =>
    rcases List.mem_cons.mp h with rfl | h
    · exact not_infix_of_skips (List.cons_ne_nil c sep) (skips_of_cutAt? hs)
    · exact ih h

/-! ## Texts that stand in a text -/

/-- The texts stand in `s` one behind the other: each starts where the one in front of it
ends, or behind that place. -/
inductive StandIn : List (List Char) → List Char → Prop
  | nil (s : List Char) : StandIn [] s
  | cons {ts : List (List Char)} {rest : List Char} (gap t : List Char)
      (behind : StandIn ts rest) : StandIn (t :: ts) (gap ++ (t ++ rest))

theorem StandIn.behind (a : List Char) (h : StandIn ts s) : StandIn ts (a ++ s) := by
  cases h with
  | nil => exact .nil _
  | cons gap t behind =>
    rw [← List.append_assoc]
    exact .cons (a ++ gap) t behind

theorem StandIn.append (hs : StandIn ts s) (ht : StandIn us t) : StandIn (ts ++ us) (s ++ t) := by
  induction hs with
  | nil s => exact ht.behind s
  | cons gap x _ ih =>
    rw [List.append_assoc, List.append_assoc]
    exact .cons gap x ih

theorem StandIn.of_suffix (h : StandIn ts s) (hst : s <:+ t) : StandIn ts t := by
  obtain ⟨a, rfl⟩ := hst
  exact h.behind a

theorem standIn_singleton (s : List Char) : StandIn [s] s := by
  simpa using StandIn.cons [] s (.nil [])

theorem StandIn.infix_of_mem (h : StandIn ts s) (ht : t ∈ ts) : t <:+: s := by
  induction h with
  | nil => cases ht
  | cons gap x _ ih =>
    rcases List.mem_cons.mp ht with rfl | ht
    · exact (List.prefix_append t _).isInfix.trans (List.suffix_append gap _).isInfix
    · exact (ih ht).trans ((List.suffix_append _ _).trans (List.suffix_append _ _)).isInfix

/-- What stands in the pieces of a text stands in the text. -/
theorem standIn_splitOn {f : List Char → List (List Char)}
    (h : ∀ p ∈ splitOn c sep s, StandIn (f p) p) : StandIn ((splitOn c sep s).flatMap f) s := by
  fun_induction splitOn c sep s with
  | case1 s _ => simpa using h
  | case2 s a b hs _ ih =>
    rw [List.forall_mem_cons] at h
    rw [eq_append_of_cutAt? hs, List.flatMap_cons, List.append_assoc]
    exact h.1.append ((ih h.2).behind _)

theorem standIn_tail_splitOn {f : List Char → List (List Char)}
    (h : ∀ p ∈ (splitOn c sep s).tail, StandIn (f p) p) :
    StandIn ((splitOn c sep s).tail.flatMap f) s := by
  cases hs : cutAt? (c :: sep) s with
  | none =>
    rw [splitOn_eq_of_none hs]
    exact .nil s
  | some cut =>
    obtain ⟨a, b⟩ := cut
    rw [splitOn_eq_of_some hs, List.tail_cons] at h ⊢
    rw [eq_append_of_cutAt? hs]
    exact (standIn_splitOn h).behind _

end Text

namespace Multipart

open Text

variable {boundary body piece inner content : List Char} {bs : List (List Char)} {leaf : Leaf}

/-! ## What a piece holds -/

theorem splitHead_suffix (s : List Char) : (splitHead s).2 <:+ s := by
  have hcut {sep a b : List Char} (h : cutAt? sep s = some (a, b)) : b <:+ s := by
    rw [eq_append_of_cutAt? h]
    exact List.suffix_append _ _
  rw [splitHead.eq_def]
  split
  · exact (List.suffix_cons _ _).trans (List.suffix_cons _ _)
  · exact List.suffix_cons _ _
  · split
    · next ha hb =>
      split
      · exact hcut ha
      · exact hcut hb
    · next ha _ => exact hcut ha
    · next hb => exact hcut hb
    · exact List.nil_suffix

/-- A piece is no part, or a leaf or a body whose content ends it. -/
theorem ofPiece_cases (piece : List Char) :
    Part.ofPiece piece = .nothing ∨
    (∃ leaf, Part.ofPiece piece = .leaf leaf ∧ leaf.content <:+ piece ∧
      allBlank leaf.content = false) ∨
    ∃ inner content, Part.ofPiece piece = .body inner content ∧ content <:+ piece := by
  have hsuffix : (splitHead (piece.dropWhile isLineEnd)).2 <:+ piece :=
    (splitHead_suffix _).trans (List.dropWhile_suffix _)
  rw [Part.ofPiece]
  split
  · exact .inl rfl
  · dsimp only
    split
    · exact .inl rfl
    · split
      · exact .inr (.inr ⟨_, _, rfl, hsuffix⟩)
      · split
        · exact .inl rfl
        · next hblank => exact .inr (.inl ⟨_, rfl, hsuffix, by simpa using hblank⟩)

theorem suffix_of_ofPiece_body (h : Part.ofPiece piece = .body inner content) :
    content <:+ piece := by
  rcases ofPiece_cases piece with h' | ⟨leaf, h', -⟩ | ⟨inner', content', h', hsuffix⟩
  · cases h.symm.trans h'
  · cases h.symm.trans h'
  · obtain ⟨-, rfl⟩ := Part.body.inj (h.symm.trans h')
    exact hsuffix

theorem ofPiece_leaf (h : Part.ofPiece piece = .leaf leaf) :
    leaf.content <:+ piece ∧ allBlank leaf.content = false := by
  rcases ofPiece_cases piece with h' | ⟨leaf', h', hleaf⟩ | ⟨inner, content, h', -⟩
  · cases h.symm.trans h'
  · obtain rfl := Part.leaf.inj (h.symm.trans h')
    exact hleaf
  · cases h.symm.trans h'

theorem not_infix_of_mem_pieces (h : piece ∈ pieces boundary body) :
    ¬ delimiter boundary <:+: piece :=
  not_infix_of_mem_splitOn (List.mem_of_mem_tail h)

/-! ## Bodies in bodies -/

/-- A part of the second body is a body again, the first, with the boundary that its
headers name.  Each body stands behind its boundary. -/
def Nested (part whole : List Char × List Char) : Prop :=
  ∃ piece ∈ pieces whole.1 whole.2, Part.ofPiece piece = .body part.1 part.2

theorem length_lt_of_nested (h : Nested (inner, content) (boundary, body)) :
    content.length < body.length := by
  obtain ⟨piece, hmem, hpart⟩ := h
  exact Nat.lt_of_le_of_lt (length_le_of_ofPiece hpart) (length_lt_of_mem_tail_splitOn hmem)

theorem nested_wellFounded : WellFounded Nested := by
  refine Subrelation.wf ?_ (measure fun part : List Char × List Char => part.2.length).wf
  intro part whole h
  exact length_lt_of_nested h

/-- What holds of a body if it holds of the bodies in it, holds of every body. -/
theorem nestedInduction {motive : List Char → List Char → Prop}
    (step : ∀ boundary body,
      (∀ inner content, Nested (inner, content) (boundary, body) → motive inner content) →
        motive boundary body)
    (boundary body : List Char) : motive boundary body :=
  nested_wellFounded.induction (C := fun part => motive part.1 part.2) (boundary, body)
    fun whole ih => step whole.1 whole.2 fun inner content h => ih (inner, content) h

/-! ## Leaves -/

/-- The contents of the leaves stand in the body in the order of the leaves. -/
theorem standIn_leaves (boundary body : List Char) :
    StandIn ((leaves boundary body).map Leaf.content) body := by
  induction boundary, body using nestedInduction with
  | step boundary body ih =>
    rw [leaves_eq_flatMap, List.map_flatMap]
    refine standIn_tail_splitOn fun piece hmem => ?_
    rcases ofPiece_cases piece with h | ⟨leaf, h, hsuffix, -⟩ | ⟨inner, content, h, hsuffix⟩
    · rw [h]
      exact .nil _
    · rw [h]
      exact (standIn_singleton _).of_suffix hsuffix
    · rw [h]
      exact (ih inner content ⟨piece, hmem, h⟩).of_suffix hsuffix

/-- The body has the leaf in bodies with the boundaries `bs`, the outermost in front. -/
inductive Encloses : List Char → List Char → List (List Char) → Leaf → Prop
  | here {boundary body piece : List Char} {leaf : Leaf} (mem : piece ∈ pieces boundary body)
      (part : Part.ofPiece piece = .leaf leaf) : Encloses boundary body [boundary] leaf
  | deeper {boundary body inner content : List Char} {bs : List (List Char)} {leaf : Leaf}
      (nested : Nested (inner, content) (boundary, body))
      (encloses : Encloses inner content bs leaf) : Encloses boundary body (boundary :: bs) leaf

theorem exists_encloses_of_mem (h : leaf ∈ leaves boundary body) :
    ∃ bs, Encloses boundary body bs leaf := by
  induction boundary, body using nestedInduction with
  | step boundary body ih =>
    rw [leaves_eq_flatMap, List.mem_flatMap] at h
    obtain ⟨piece, hmem, hleaf⟩ := h
    cases hpart : Part.ofPiece piece with
    | nothing =>
      rw [hpart] at hleaf
      cases hleaf
    | leaf l =>
      rw [hpart] at hleaf
      obtain rfl := List.mem_singleton.mp hleaf
      exact ⟨[boundary], .here hmem hpart⟩
    | body inner content =>
      rw [hpart] at hleaf
      have hnested : Nested (inner, content) (boundary, body) := ⟨piece, hmem, hpart⟩
      obtain ⟨bs, hencloses⟩ := ih inner content hnested hleaf
      exact ⟨boundary :: bs, .deeper hnested hencloses⟩

theorem Encloses.mem (h : Encloses boundary body bs leaf) : leaf ∈ leaves boundary body := by
  induction h with
  | here hmem hpart =>
    rw [leaves_eq_flatMap, List.mem_flatMap]
    exact ⟨_, hmem, by rw [hpart]; exact List.mem_singleton_self _⟩
  | deeper nested _ ih =>
    obtain ⟨piece, hmem, hpart⟩ := nested
    rw [leaves_eq_flatMap, List.mem_flatMap]
    exact ⟨piece, hmem, by rw [hpart]; exact ih⟩

theorem Encloses.within (h : Encloses boundary body bs leaf) : leaf.content <:+: body :=
  (standIn_leaves boundary body).infix_of_mem (List.mem_map_of_mem h.mem)

theorem Encloses.visible (h : Encloses boundary body bs leaf) : allBlank leaf.content = false := by
  induction h with
  | here _ hpart => exact (ofPiece_leaf hpart).2
  | deeper _ _ ih => exact ih

/-- A leaf holds no delimiter of a body around it. -/
theorem Encloses.lacks (h : Encloses boundary body bs leaf) :
    ∀ b ∈ bs, ¬ delimiter b <:+: leaf.content := by
  induction h with
  | here hmem hpart =>
    rw [List.forall_mem_singleton]
    exact fun hwithin => not_infix_of_mem_pieces hmem (hwithin.trans (ofPiece_leaf hpart).1.isInfix)
  | deeper nested encloses ih =>
    obtain ⟨piece, hmem, hpart⟩ := nested
    -- The leaf stands in the content of the piece, and the piece lacks the delimiter.
    have hcontent := encloses.within.trans (suffix_of_ofPiece_body hpart).isInfix
    rw [List.forall_mem_cons]
    exact ⟨fun hwithin => not_infix_of_mem_pieces hmem (hwithin.trans hcontent), ih⟩

/-- **Leaves stand apart.**  Whatever the text and the boundaries that it declares, reading
it ends, since each body in a body is shorter than the one around it; the leaves are those of its
pieces.  Their contents are not blank and stand in the text one behind the other, in the
order of the leaves.  The leaves are just those that stand in some bodies, and the delimiters
of all these bodies are missing from their content. -/
theorem leaves_stand_apart (boundary body : List Char) :
    Acc Nested (boundary, body) ∧
    (∀ inner content, Nested (inner, content) (boundary, body) →
      content.length < body.length) ∧
    leaves boundary body =
      (pieces boundary body).flatMap (fun piece => (Part.ofPiece piece).leaves) ∧
    StandIn ((leaves boundary body).map Leaf.content) body ∧
    (∀ leaf, leaf ∈ leaves boundary body ↔ ∃ bs, Encloses boundary body bs leaf) ∧
    ∀ leaf bs, Encloses boundary body bs leaf →
      allBlank leaf.content = false ∧ ∀ b ∈ bs, ¬ delimiter b <:+: leaf.content := by
  refine ⟨nested_wellFounded.apply _, fun _ _ h => length_lt_of_nested h,
    leaves_eq_flatMap boundary body, standIn_leaves boundary body, fun leaf => ⟨?_, ?_⟩, ?_⟩
  · exact exists_encloses_of_mem
  · rintro ⟨bs, h⟩
    exact h.mem
  · intro leaf bs h
    exact ⟨h.visible, h.lacks⟩

end Multipart
end OData
