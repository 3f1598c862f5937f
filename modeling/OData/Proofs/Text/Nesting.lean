import OData.Proofs.Text.Cutting
import OData.Text.Quoted

/-! # Texts that are closed

Where a text is cut at a separator, one inside parentheses or inside a string does not
count.  `Nest` tells what is open at some place, and `Closed marks` says of a text that
it closes whatever it opens, closes nothing else and has none of the marks outside.  So
nothing in a closed text shows where it stands, and a list of such texts is cut where
they were joined (`cutOutside?_intercalate`).
-/
namespace OData
namespace Text

/-- What is open at a place in a text: so many parentheses, and maybe a string. -/
structure Nest where
  depth : Nat
  quoted : Bool
  deriving DecidableEq, Repr

namespace Nest

/-- Nothing is open. -/
def outside : Nest := ⟨0, false⟩

/-- What is open behind a character.  A quote written twice ends a string and starts it
again; a closing parenthesis has to close one. -/
def step (n : Nest) (c : Char) : Option Nest :=
  if c = '\'' then some { n with quoted := !n.quoted }
  else if n.quoted then some n
  else if c = '(' then some { n with depth := n.depth + 1 }
  else if c = ')' then if n.depth = 0 then none else some { n with depth := n.depth - 1 }
  else some n

/-- The same inside one more parenthesis. -/
def deeper (n : Nest) : Nest := { n with depth := n.depth + 1 }

theorem deeper_ne_outside (n : Nest) : n.deeper ≠ outside := by
  intro h
  have hdepth := congrArg depth h
  simp [deeper, outside] at hdepth

theorem step_deeper {n n' : Nest} {c : Char} (h : n.step c = some n') :
    n.deeper.step c = some n'.deeper := by
  obtain ⟨depth, quoted⟩ := n
  simp only [step, deeper] at h ⊢
  grind

/-- What is open behind a character, which is none of the marks if nothing is open in
front of it. -/
def pass (marks : List Char) (n : Nest) (c : Char) : Option Nest :=
  if n = outside ∧ c ∈ marks then none else n.step c

/-- What is open behind a text that has none of the marks outside. -/
def through (marks : List Char) (n : Nest) (s : List Char) : Option Nest :=
  s.foldlM (pass marks) n

variable {marks marks' : List Char} {n n' : Nest} {s t : List Char} {c : Char}

@[simp] theorem through_nil : through marks n [] = some n := rfl

theorem through_cons :
    through marks n (c :: s) = (pass marks n c).bind fun m => through marks m s := rfl

theorem through_append :
    through marks n (s ++ t) = (through marks n s).bind fun m => through marks m t := by
  rw [through, List.foldlM_append]
  rfl

theorem pass_eq_some_iff : pass marks n c = some n' ↔
    ¬ (n = outside ∧ c ∈ marks) ∧ n.step c = some n' := by
  rw [pass]
  split <;> simp [*]

/-- Only outside can a character be out of place. -/
theorem pass_eq_none_iff : pass marks n c = none ↔ n = outside ∧ c ∈ ')' :: marks := by
  have hstep : n.step c = none ↔ n = outside ∧ c = ')' := by
    obtain ⟨depth, quoted⟩ := n
    rw [step]
    grind [outside]
  rw [pass, List.mem_cons]
  split
  · next hmark => simp [hmark]
  · next hmark =>
    rw [hstep]
    constructor
    · exact fun ⟨hout, hclose⟩ => ⟨hout, .inl hclose⟩
    · rintro ⟨hout, hclose | hc⟩
      · exact ⟨hout, hclose⟩
      · exact absurd ⟨hout, hc⟩ hmark

theorem pass_mono (hm : marks ⊆ marks') (h : pass marks' n c = some n') :
    pass marks n c = some n' := by
  rw [pass_eq_some_iff] at h ⊢
  exact ⟨fun hc => h.1 ⟨hc.1, hm hc.2⟩, h.2⟩

theorem through_mono (hm : marks ⊆ marks') (h : through marks' n s = some n') :
    through marks n s = some n' := by
  induction s generalizing n with
  | nil => exact h
  | cons c s ih =>
    rw [through_cons] at h ⊢
    obtain ⟨m, hpass, h⟩ := Option.bind_eq_some_iff.mp h
    rw [pass_mono hm hpass]
    exact ih h

/-- Inside one more parenthesis a mark does not matter. -/
theorem through_deeper (h : through marks n s = some n') :
    through marks' n.deeper s = some n'.deeper := by
  induction s generalizing n with
  | nil =>
    obtain rfl : n = n' := Option.some.inj h
    rfl
  | cons c s ih =>
    rw [through_cons] at h
    obtain ⟨m, hpass, h⟩ := Option.bind_eq_some_iff.mp h
    have hdeeper : pass marks' n.deeper c = some m.deeper :=
      pass_eq_some_iff.mpr
        ⟨fun hc => n.deeper_ne_outside hc.1, step_deeper (pass_eq_some_iff.mp hpass).2⟩
    rw [through_cons, hdeeper]
    exact ih h

end Nest

/-! ## Closed texts -/

/-- The text closes what it opens and nothing else, and has no mark outside. -/
def Closed (marks s : List Char) : Prop := Nest.through marks .outside s = some .outside

instance (marks s : List Char) : Decidable (Closed marks s) :=
  inferInstanceAs (Decidable (_ = _))

variable {marks marks' : List Char} {s t : List Char} {c : Char}

theorem closed_nil : Closed marks [] := rfl

theorem Closed.mono (h : Closed marks' s) (hm : marks ⊆ marks') : Closed marks s :=
  Nest.through_mono hm h

theorem Closed.append (hs : Closed marks s) (ht : Closed marks t) : Closed marks (s ++ t) := by
  rw [Closed, Nest.through_append, hs]
  exact ht

/-- A character that opens and closes nothing. -/
def IsPlain (marks : List Char) (c : Char) : Prop := c ∉ ['\'', '(', ')'] ∧ c ∉ marks

theorem Closed.cons (hc : IsPlain marks c) (h : Closed marks s) : Closed marks (c :: s) := by
  obtain ⟨hc, hmark⟩ := hc
  have hpass : Nest.pass marks .outside c = some .outside := by
    rw [Nest.pass, if_neg fun h => hmark h.2]
    simp_all [Nest.step, Nest.outside]
  rw [Closed, Nest.through_cons, hpass]
  exact h

theorem closed_of_plain (h : ∀ c ∈ s, IsPlain marks c) : Closed marks s := by
  induction s with
  | nil => exact closed_nil
  | cons c s ih =>
    rw [List.forall_mem_cons] at h
    exact (ih h.2).cons h.1

/-- Whatever is closed has no mark outside once it is in parentheses. -/
theorem Closed.group (h : Closed marks' s) (hm : '(' ∉ marks) :
    Closed marks ('(' :: (s ++ [')'])) := by
  have hopen : Nest.pass marks .outside '(' = some Nest.outside.deeper := by
    rw [Nest.pass, if_neg fun h => hm h.2]
    rfl
  have hclose : Nest.pass marks Nest.outside.deeper ')' = some .outside := by
    rw [Nest.pass, if_neg fun h => Nest.deeper_ne_outside _ h.1]
    rfl
  rw [Closed, Nest.through_cons, hopen, Option.bind_some, Nest.through_append,
    Nest.through_deeper h, Option.bind_some, Nest.through_cons, hclose]
  rfl

/-- Inside a string, the contents of a string leave it open. -/
theorem through_doubleQuotes (hm : '\'' ∉ marks) (s : List Char) :
    Nest.through marks ⟨0, true⟩ (doubleQuotes s) = some ⟨0, true⟩ := by
  induction s with
  | nil => rfl
  | cons c s ih =>
    rw [doubleQuotes]
    split
    · -- The first quote ends the string, the second one starts it again.
      have hend : Nest.pass marks ⟨0, true⟩ '\'' = some .outside := by
        rw [Nest.pass, if_neg fun h => absurd h.1 (by decide)]
        rfl
      have hstart : Nest.pass marks .outside '\'' = some ⟨0, true⟩ := by
        rw [Nest.pass, if_neg fun h => hm h.2]
        rfl
      rw [Nest.through_cons, hend, Option.bind_some, Nest.through_cons, hstart]
      exact ih
    · next hc =>
      have hpass : Nest.pass marks ⟨0, true⟩ c = some ⟨0, true⟩ := by
        rw [Nest.pass, if_neg fun h => absurd h.1 (by decide)]
        simp [Nest.step, hc]
      rw [Nest.through_cons, hpass]
      exact ih

/-- A string is closed, whatever stands in it. -/
theorem closed_quoted (hm : '\'' ∉ marks) (s : String) : Closed marks (quoted s).toList := by
  have hstart : Nest.pass marks .outside '\'' = some ⟨0, true⟩ := by
    rw [Nest.pass, if_neg fun h => hm h.2]
    rfl
  have hend : Nest.pass marks ⟨0, true⟩ '\'' = some .outside := by
    rw [Nest.pass, if_neg fun h => absurd h.1 (by decide)]
    rfl
  rw [toList_quoted, Closed, Nest.through_cons, hstart, Option.bind_some, Nest.through_append,
    through_doubleQuotes hm, Option.bind_some, Nest.through_cons, hend]
  rfl

theorem closed_intercalate {sep : List Char} {pieces : List (List Char)} (hsep : Closed marks sep)
    (h : ∀ p ∈ pieces, Closed marks p) : Closed marks (sep.intercalate pieces) := by
  induction pieces with
  | nil => exact closed_nil
  | cons p pieces ih =>
    rw [List.forall_mem_cons] at h
    cases pieces with
    | nil => simpa using h.1
    | cons q pieces =>
      rw [List.intercalate_cons_cons]
      exact (h.1.append hsep).append (ih h.2)

/-! ## Cutting outside -/

/-- The pieces of a text between the separators outside parentheses and strings, from a
place on where `n` is open.  The text has to close it all. -/
def cutOutsideFrom? (sep : Char) : Nest → List Char → Option (List (List Char))
  | n, [] => if n = .outside then some [[]] else none
  | n, c :: s =>
    if n = .outside ∧ c = sep then (cutOutsideFrom? sep n s).map ([] :: ·)
    else (n.step c).bind fun m => (cutOutsideFrom? sep m s).map (List.modifyHead (c :: ·))

/-- The pieces of a text between the separators outside parentheses and strings. -/
def cutOutside? (sep : Char) (s : List Char) : Option (List (List Char)) :=
  cutOutsideFrom? sep .outside s

variable {sep : Char} {pieces : List (List Char)}

/-- A text without separator outside is the front of the first piece. -/
theorem cutOutsideFrom?_append {n n' : Nest} (h : Nest.through [sep] n s = some n')
    (rest : List Char) : cutOutsideFrom? sep n (s ++ rest) =
      (cutOutsideFrom? sep n' rest).map (List.modifyHead (s ++ ·)) := by
  induction s generalizing n with
  | nil =>
    obtain rfl : n = n' := Option.some.inj h
    have hid : List.modifyHead (fun p : List Char => [] ++ p) = id := List.modifyHead_id
    rw [List.nil_append, hid, Option.map_id, id]
  | cons c s ih =>
    rw [Nest.through_cons] at h
    obtain ⟨m, hpass, h⟩ := Option.bind_eq_some_iff.mp h
    obtain ⟨hsep, hstep⟩ := Nest.pass_eq_some_iff.mp hpass
    rw [List.cons_append, cutOutsideFrom?, if_neg (by simpa using hsep), hstep,
      Option.bind_some, ih h, Option.map_map]
    congr 1
    funext pieces
    cases pieces <;> rfl

theorem cutOutside?_intercalate (hne : pieces ≠ []) (h : ∀ p ∈ pieces, Closed [sep] p) :
    cutOutside? sep ([sep].intercalate pieces) = some pieces := by
  induction pieces with
  | nil => exact absurd rfl hne
  | cons p pieces ih =>
    rw [List.forall_mem_cons] at h
    cases pieces with
    | nil =>
      have hone := cutOutsideFrom?_append h.1 []
      rw [List.append_nil, cutOutsideFrom?, if_pos rfl] at hone
      simpa [cutOutside?] using hone
    | cons q pieces =>
      have hrest := ih (by simp) h.2
      rw [cutOutside?] at hrest ⊢
      rw [List.intercalate_cons_cons, List.append_assoc, cutOutsideFrom?_append h.1,
        List.singleton_append, cutOutsideFrom?, if_pos ⟨rfl, rfl⟩, hrest]
      simp

end Text
end OData
