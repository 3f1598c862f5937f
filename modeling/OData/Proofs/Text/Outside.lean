import OData.Proofs.Text.Cutting

/-! # Cuts outside quoted texts

A reader who cuts a text at some character may have to leave alone what stands in quotes,
and to know that it looks at quotes alone: each one ends a quoted text or starts one.  A quote
that is written twice ends the quoted text and starts it again, so the reader is where it
was.  `keeps?` follows the reader through a text without a separator outside quotes, and a
text that was joined from such texts is cut where they were joined (`cutOutside_joint`,
`cutOutside_intercalate`).
-/
namespace OData
namespace Text

/-- Whether a quoted text is open behind a character, which may be a quote. -/
def openBehind (quote : Char) (inside : Bool) (c : Char) : Bool :=
  if c = quote then !inside else inside

/-- The pieces between the separators outside quotes; `inside` tells whether a quoted text
is open in front of the text. -/
def cutOutside (quote sep : Char) : Bool → List Char → List (List Char)
  | _, [] => [[]]
  | inside, c :: s =>
    if inside = false ∧ c = sep then [] :: cutOutside quote sep false s
    else (cutOutside quote sep (openBehind quote inside c) s).modifyHead (c :: ·)

/-- Whether a quoted text is open behind a text, which has no separator outside quotes. -/
def keeps? (quote sep : Char) (inside : Bool) (s : List Char) : Option Bool :=
  s.foldlM (fun inside c => if inside = false ∧ c = sep then none
    else some (openBehind quote inside c)) inside

variable {quote sep c : Char} {inside inside' : Bool} {s t : List Char}
  {pieces : List (List Char)}

/-! ## Following the reader -/

theorem keeps?_cons : keeps? quote sep inside (c :: s) =
    if inside = false ∧ c = sep then none
    else keeps? quote sep (openBehind quote inside c) s := by
  rw [keeps?, List.foldlM_cons]
  split <;> rfl

theorem keeps?_append : keeps? quote sep inside (s ++ t) =
    (keeps? quote sep inside s).bind (keeps? quote sep · t) := by
  rw [keeps?, List.foldlM_append]
  rfl

theorem keeps?_of_plain (hquote : quote ∉ s) (hsep : sep ∉ s) :
    keeps? quote sep false s = some false := by
  induction s with
  | nil => rfl
  | cons c s ih =>
    rw [List.mem_cons, not_or] at hquote hsep
    rw [keeps?_cons, if_neg fun h => hsep.1 h.2.symm, openBehind, if_neg (Ne.symm hquote.1)]
    exact ih hquote.2 hsep.2

/-- What is written with every quote twice leaves the quoted text open. -/
theorem keeps?_doubled (hne : quote ≠ sep) (s : List Char) : keeps? quote sep true
    (s.flatMap fun c => if c = quote then [quote, quote] else [c]) = some true := by
  induction s with
  | nil => rfl
  | cons c s ih =>
    rw [List.flatMap_cons, keeps?_append]
    have hstep : keeps? quote sep true (if c = quote then [quote, quote] else [c]) =
        some true := by
      split
      · -- The first quote ends the quoted text, the second one starts it again.
        simp [keeps?, openBehind, hne]
      · next hc => simp [keeps?, openBehind, hc]
    rw [hstep]
    exact ih

/-! ## Cutting where texts were joined -/

/-- A text without separators outside quotes is the front of the first piece. -/
theorem cutOutside_append (h : keeps? quote sep inside s = some inside') (rest : List Char) :
    cutOutside quote sep inside (s ++ rest) =
      (cutOutside quote sep inside' rest).modifyHead (s ++ ·) := by
  induction s generalizing inside with
  | nil =>
    obtain rfl : inside = inside' := Option.some.inj h
    exact (congrFun List.modifyHead_id _).symm
  | cons c s ih =>
    rw [keeps?_cons] at h
    split at h
    · cases h
    · next hsep =>
      rw [List.cons_append, cutOutside, if_neg hsep, ih h, List.modifyHead_modifyHead]
      rfl

theorem cutOutside_joint (h : keeps? quote sep false s = some false) (rest : List Char) :
    cutOutside quote sep false (s ++ sep :: rest) = s :: cutOutside quote sep false rest := by
  rw [cutOutside_append h, cutOutside, if_pos ⟨rfl, rfl⟩]
  simp

theorem cutOutside_intercalate (hne : pieces ≠ [])
    (h : ∀ p ∈ pieces, keeps? quote sep false p = some false) :
    cutOutside quote sep false ([sep].intercalate pieces) = pieces := by
  induction pieces with
  | nil => exact absurd rfl hne
  | cons p pieces ih =>
    rw [List.forall_mem_cons] at h
    cases pieces with
    | nil => simpa [cutOutside] using cutOutside_append h.1 []
    | cons q pieces =>
      rw [List.intercalate_cons_cons, List.append_assoc, List.singleton_append,
        cutOutside_joint h.1, ih (by simp) h.2]

end Text
end OData
