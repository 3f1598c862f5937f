import Mathlib.Algebra.Ring.Parity
import Mathlib.Data.List.Induction
import OData.Proofs.Text.Nesting

/-! # Closed texts by counting

`Nest` follows a text character by character.  What is open at a place can be counted as well:
a string is, if the number of quotes in front of the place is odd, and so many parentheses are
as open outside strings in front of it and do not close there (`count_of_through`).  So a text
is closed just if its counts come out even and no place in it has a count that is too small
(`closed_iff`).
-/
namespace OData
namespace Text

/-- The characters of a text outside its strings; a string may be open in front of it. -/
def bareFrom : Bool → List Char → List Char
  | _, [] => []
  | quoted, c :: s =>
    if c = '\'' then bareFrom (!quoted) s
    else if quoted then bareFrom quoted s
    else c :: bareFrom quoted s

/-- The characters of a text outside its strings. -/
def bare (s : List Char) : List Char := bareFrom false s

/-- The quotes of a text pair up, and so do its parentheses outside strings, none of which
closes what is not open.  A mark stands in a string or in parentheses. -/
structure Balanced (marks s : List Char) : Prop where
  quotes : Even (s.count '\'')
  parentheses : (bare s).count '(' = (bare s).count ')'
  opened : ∀ p, p <+: s → (bare p).count ')' ≤ (bare p).count '('
  enclosed : ∀ p c, p ++ [c] <+: s → c ∈ marks →
    Odd (p.count '\'') ∨ (bare p).count ')' < (bare p).count '('

namespace Nest
variable {marks s : List Char} {n m : Nest} {c : Char}

/-- What a character can do: start or end a string, stand in one, open or close a
parenthesis, or leave everything as it is. -/
theorem step_cases (h : n.step c = some m) :
    (c = '\'' ∧ m = ⟨n.depth, !n.quoted⟩) ∨
    (c ≠ '\'' ∧ n.quoted = true ∧ m = n) ∨
    (c = '(' ∧ n.quoted = false ∧ m = ⟨n.depth + 1, false⟩) ∨
    (c = ')' ∧ n = ⟨m.depth + 1, false⟩ ∧ m.quoted = false) ∨
    (c ∉ ['\'', '(', ')'] ∧ n.quoted = false ∧ m = n) := by
  obtain ⟨depth, quoted⟩ := n
  rw [step] at h
  split at h
  · next hquote => exact .inl ⟨hquote, (Option.some.inj h).symm⟩
  next hquote =>
  split at h
  · next hquoted => exact .inr (.inl ⟨hquote, hquoted, (Option.some.inj h).symm⟩)
  next hquoted =>
  obtain rfl : quoted = false := by simpa using hquoted
  split at h
  · next hopen => exact .inr (.inr (.inl ⟨hopen, rfl, (Option.some.inj h).symm⟩))
  next hopen =>
  split at h
  · next hclose =>
    split at h
    · cases h
    · next hdepth =>
      cases h
      refine .inr (.inr (.inr (.inl ⟨hclose, ?_, rfl⟩)))
      rw [Nat.sub_add_cancel (Nat.pos_of_ne_zero hdepth)]
  · next hclose =>
    exact .inr (.inr (.inr (.inr ⟨by simp [hquote, hopen, hclose], rfl, (Option.some.inj h).symm⟩)))

/-- One step changes the counts as its character does. -/
theorem count_of_step (h : n.step c = some m) :
    (n.quoted.toNat + [c].count '\'') % 2 = m.quoted.toNat ∧
    m.depth + (bareFrom n.quoted [c]).count ')' = n.depth + (bareFrom n.quoted [c]).count '(' ∧
    ∀ s, bareFrom n.quoted (c :: s) = bareFrom n.quoted [c] ++ bareFrom m.quoted s := by
  obtain ⟨rfl, rfl⟩ | ⟨hc, hquoted, rfl⟩ | ⟨rfl, hquoted, rfl⟩ | ⟨rfl, rfl, hquoted⟩ |
    ⟨hc, hquoted, rfl⟩ := step_cases h
  · cases n.quoted <;> simp [bareFrom]
  · simp [bareFrom, hc, hquoted]
  · simp [bareFrom, hquoted]
  · simp [bareFrom, hquoted]
  · simp_all [bareFrom]

/-- What is open behind a text shows in its counts. -/
theorem count_of_through (h : through marks n s = some m) :
    (n.quoted.toNat + s.count '\'') % 2 = m.quoted.toNat ∧
    m.depth + (bareFrom n.quoted s).count ')' = n.depth + (bareFrom n.quoted s).count '(' := by
  induction s generalizing n with
  | nil =>
    obtain rfl : n = m := Option.some.inj h
    cases n.quoted <;> simp [bareFrom]
  | cons c s ih =>
    rw [through_cons] at h
    obtain ⟨k, hpass, h⟩ := Option.bind_eq_some_iff.mp h
    obtain ⟨hquotes, hdepth, hbare⟩ := count_of_step (pass_eq_some_iff.mp hpass).2
    obtain ⟨hquotes', hdepth'⟩ := ih h
    rw [hbare, List.count_append, List.count_append, List.count_cons]
    rw [List.count_singleton] at hquotes
    constructor
    · omega
    · omega

theorem bareFrom_append (h : through marks n s = some m) (t : List Char) :
    bareFrom n.quoted (s ++ t) = bareFrom n.quoted s ++ bareFrom m.quoted t := by
  induction s generalizing n with
  | nil =>
    obtain rfl : n = m := Option.some.inj h
    rfl
  | cons c s ih =>
    rw [through_cons] at h
    obtain ⟨k, hpass, h⟩ := Option.bind_eq_some_iff.mp h
    obtain ⟨-, -, hbare⟩ := count_of_step (pass_eq_some_iff.mp hpass).2
    rw [List.cons_append, hbare (s ++ t), hbare s, ih h, List.append_assoc]

theorem exists_through_of_prefix {p : List Char} (h : through marks n s = some m) (hp : p <+: s) :
    ∃ k, through marks n p = some k := by
  obtain ⟨t, rfl⟩ := hp
  rw [through_append] at h
  obtain ⟨k, hk, -⟩ := Option.bind_eq_some_iff.mp h
  exact ⟨k, hk⟩

end Nest

variable {marks s p : List Char} {m : Nest} {c : Char}

/-- The counts of a text that starts outside. -/
theorem count_of_outside (h : Nest.through marks .outside s = some m) :
    s.count '\'' % 2 = m.quoted.toNat ∧
    m.depth + (bare s).count ')' = (bare s).count '(' := by
  have hcount := Nest.count_of_through h
  simpa [Nest.outside, bare] using hcount

theorem Closed.balanced (h : Closed marks s) : Balanced marks s := by
  refine ⟨?quotes, ?parentheses, ?opened, ?enclosed⟩
  case quotes => exact Nat.even_iff.mpr (count_of_outside h).1
  case parentheses => simpa [Nest.outside] using (count_of_outside h).2.symm
  case opened =>
    intro p hp
    obtain ⟨m, hm⟩ := Nest.exists_through_of_prefix h hp
    have hdepth := (count_of_outside hm).2
    omega
  case enclosed =>
    intro p c hp hc
    obtain ⟨k, hk⟩ := Nest.exists_through_of_prefix h hp
    rw [Nest.through_append] at hk
    obtain ⟨m, hm, hk⟩ := Option.bind_eq_some_iff.mp hk
    rw [Nest.through_cons] at hk
    obtain ⟨k', hpass, -⟩ := Option.bind_eq_some_iff.mp hk
    have hout : m ≠ .outside := fun h => (Nest.pass_eq_some_iff.mp hpass).1 ⟨h, hc⟩
    obtain ⟨hquotes, hdepth⟩ := count_of_outside hm
    obtain ⟨depth, quoted⟩ := m
    cases quoted with
    | true => exact .inl (Nat.odd_iff.mpr hquotes)
    | false =>
      have hpos : depth ≠ 0 := fun hzero => hout (by rw [hzero]; rfl)
      right
      dsimp only at hdepth
      omega

/-- Nothing in a balanced text is out of place. -/
theorem Balanced.exists_through (h : Balanced marks s) :
    ∀ p, p <+: s → ∃ m, Nest.through marks .outside p = some m := by
  intro p
  induction p using List.reverseRecOn with
  | nil => exact fun _ => ⟨.outside, rfl⟩
  | append_singleton p c ih =>
    intro hp
    obtain ⟨m, hm⟩ := ih ((List.prefix_append p [c]).trans hp)
    obtain ⟨hquotes, hdepth⟩ := count_of_outside hm
    rw [Nest.through_append, hm, Option.bind_some, Nest.through_cons]
    cases hpass : Nest.pass marks m c with
    | some k => exact ⟨k, rfl⟩
    | none =>
      obtain ⟨rfl, hc⟩ := Nest.pass_eq_none_iff.mp hpass
      have heven : p.count '\'' % 2 = 0 := hquotes
      have hequal : (bare p).count ')' = (bare p).count '(' := by
        simpa [Nest.outside] using hdepth
      rcases List.mem_cons.mp hc with rfl | hc
      · -- The parenthesis would close what is not open.
        have hbare : bare (p ++ [')']) = bare p ++ [')'] := Nest.bareFrom_append hm [')']
        have hopened := h.opened _ hp
        simp [hbare] at hopened
        omega
      · rcases h.enclosed p c hp hc with hodd | hinside
        · have := Nat.odd_iff.mp hodd
          omega
        · omega

/-- **Closed texts are balanced ones.** -/
theorem closed_iff : Closed marks s ↔ Balanced marks s := by
  refine ⟨Closed.balanced, fun h => ?_⟩
  obtain ⟨m, hm⟩ := h.exists_through s (List.prefix_refl s)
  obtain ⟨hquotes, hdepth⟩ := count_of_outside hm
  rw [Nat.even_iff.mp h.quotes] at hquotes
  obtain ⟨depth, quoted⟩ := m
  have hparentheses := h.parentheses
  obtain rfl : depth = 0 := by
    dsimp only at hdepth
    omega
  cases quoted with
  | true => cases hquotes
  | false => exact hm

instance (marks s : List Char) : Decidable (Balanced marks s) := decidable_of_iff _ closed_iff

end Text
end OData
