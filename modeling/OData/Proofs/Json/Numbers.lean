import Mathlib.Data.Option.Basic
import OData.Json.Number
import OData.Proofs.Text.Digits

/-! # Where a number ends

A number's text is read in four steps: a sign, digits, a fraction and an exponent
(`numberText?_eq`).  Each step stops at the first character that it cannot use, so what is
read does not change when a text is put behind it that no number goes on with
(`number_append`).  A number that is read from its own text alone is thus read from every
text that it stands in.
-/
namespace OData
namespace Json

variable {s rest r : List Char}

/-- A number that stands in front of the text ends there. -/
def Ends (rest : List Char) : Prop :=
  ∀ c ∈ rest.head?, c.isDigit = false ∧ c ≠ '.' ∧ c ≠ 'e' ∧ c ≠ 'E'

theorem ends_nil : Ends [] := by simp [Ends]

theorem ends_cons {c : Char} (h : c = ',' ∨ c = ']' ∨ c = '}') (rest : List Char) :
    Ends (c :: rest) := by
  rintro x hx
  obtain rfl := Option.some.inj hx
  rcases h with rfl | rfl | rfl <;> decide

/-! ## The steps of the reader -/

/-- The sign in front of a number, and what follows it. -/
def signFirst : List Char → Bool × List Char
  | '-' :: s => (true, s)
  | s => (false, s)

/-- The digits behind a point, if there is one, and what follows them. -/
def fractionFirst? : List Char → Option (Option (List Char) × List Char)
  | '.' :: s => (Text.digitsFirst? s).map fun (digits, s) => (some digits, s)
  | s => some (none, s)

/-- The sign of an exponent, and what follows it. -/
def exponentSign : List Char → Bool × List Char
  | '-' :: s => (true, s)
  | '+' :: s => (false, s)
  | s => (false, s)

/-- The exponent, if there is one, and what follows it. -/
def exponentFirst? : List Char → Option (Option (Bool × List Char) × List Char)
  | c :: s =>
    if c = 'e' ∨ c = 'E' then
      (Text.digitsFirst? (exponentSign s).2).map fun (digits, r) =>
        (some ((exponentSign s).1, digits), r)
    else some (none, c :: s)
  | [] => some (none, [])

-- The reader goes on within each branch of a step; these say that it goes on behind the step.
theorem fractionFirst?_bind {α : Type} (s : List Char)
    (k : Option (List Char) × List Char → Option α) :
    (match s with
      | '.' :: s => ((Text.digitsFirst? s).map fun (digits, s) => (some digits, s)) >>= k
      | s => some (none, s) >>= k) = (fractionFirst? s).bind k := by
  rw [fractionFirst?.eq_def]
  split <;> rfl

theorem exponentFirst?_bind {α : Type} (s : List Char)
    (k : Option (Bool × List Char) × List Char → Option α) :
    (match s with
      | c :: s' =>
        if c = 'e' ∨ c = 'E' then
          ((Text.digitsFirst? (exponentSign s').2).map fun (digits, s) =>
            (some ((exponentSign s').1, digits), s)) >>= k
        else some (none, s) >>= k
      | [] => some (none, s) >>= k) = (exponentFirst? s).bind k := by
  cases s with
  | nil => rfl
  | cons c s =>
    rw [exponentFirst?]
    by_cases hc : c = 'e' ∨ c = 'E'
    · rw [if_pos hc]
      exact if_pos hc
    · rw [if_neg hc]
      exact if_neg hc

theorem numberText?_eq (s : List Char) : numberText? s =
    (Text.digitsFirst? (signFirst s).2).bind fun whole =>
      (guard (whole.1.head? ≠ some '0' || whole.1.length = 1) : Option Unit).bind fun _ =>
        (fractionFirst? whole.2).bind fun fraction =>
          (exponentFirst? fraction.2).bind fun exponent =>
            some (⟨(signFirst s).1, whole.1, fraction.1, exponent.1⟩, exponent.2) := by
  rw [numberText?.eq_def]
  split
  next negative s' heq =>
  have hsign : signFirst s = (negative, s') := heq
  rw [hsign]
  refine congrArg (Option.bind _) (funext fun ⟨whole, u⟩ => ?_)
  refine congrArg (Option.bind _) (funext fun _ => ?_)
  refine (fractionFirst?_bind u _).trans (congrArg (Option.bind _) (funext fun fraction => ?_))
  exact exponentFirst?_bind fraction.2 _

/-! ## What stands behind a number -/

theorem signFirst_append (h : s ≠ []) (rest : List Char) :
    signFirst (s ++ rest) = ((signFirst s).1, (signFirst s).2 ++ rest) := by
  obtain ⟨c, s, rfl⟩ := List.exists_cons_of_ne_nil h
  by_cases hc : c = '-'
  · subst hc
    rfl
  · simp [signFirst, hc]

theorem exponentSign_append (h : s ≠ []) (rest : List Char) :
    exponentSign (s ++ rest) = ((exponentSign s).1, (exponentSign s).2 ++ rest) := by
  obtain ⟨c, s, rfl⟩ := List.exists_cons_of_ne_nil h
  by_cases hminus : c = '-'
  · subst hminus
    rfl
  · by_cases hplus : c = '+'
    · subst hplus
      rfl
    · simp [exponentSign, hminus, hplus]

theorem Ends.no_digit (ends : Ends rest) : ∀ c ∈ rest.head?, c.isDigit = false :=
  fun c hc => (ends c hc).1

theorem fractionFirst?_append {fraction : Option (List Char)}
    (h : fractionFirst? s = some (fraction, r)) (ends : Ends rest) :
    fractionFirst? (s ++ rest) = some (fraction, r ++ rest) := by
  cases s with
  | nil =>
    cases h
    cases rest with
    | nil => rfl
    | cons c rest =>
      obtain ⟨-, hpoint, -, -⟩ := ends c rfl
      simp [fractionFirst?, hpoint]
  | cons c s =>
    by_cases hpoint : c = '.'
    · subst hpoint
      obtain ⟨p, hdigits, heq⟩ := Option.map_eq_some_iff.mp h
      cases heq
      exact Option.map_eq_some_iff.mpr ⟨_, Text.digitsFirst?_append hdigits ends.no_digit, rfl⟩
    · rw [fractionFirst?] at h
      · cases h
        simp [fractionFirst?, hpoint]
      · exact fun t heq => hpoint (List.cons.inj heq).1

theorem exponentFirst?_append {exponent : Option (Bool × List Char)}
    (h : exponentFirst? s = some (exponent, r)) (ends : Ends rest) :
    exponentFirst? (s ++ rest) = some (exponent, r ++ rest) := by
  cases s with
  | nil =>
    cases h
    cases rest with
    | nil => rfl
    | cons c rest =>
      obtain ⟨-, -, he, hE⟩ := ends c rfl
      exact if_neg (not_or.mpr ⟨he, hE⟩)
  | cons c s =>
    rw [exponentFirst?] at h
    split at h
    · next hc =>
      obtain ⟨p, hdigits, heq⟩ := Option.map_eq_some_iff.mp h
      cases heq
      -- No digits stand behind an exponent's letter that ends the text.
      have hne : s ≠ [] := by
        rintro rfl
        cases hdigits
      rw [List.cons_append, exponentFirst?, if_pos hc, exponentSign_append hne,
        Text.digitsFirst?_append hdigits ends.no_digit]
      rfl
    · next hc =>
      cases h
      exact if_neg hc

theorem numberText?_append {t : NumberText} (h : numberText? s = some (t, r)) (ends : Ends rest) :
    numberText? (s ++ rest) = some (t, r ++ rest) := by
  rw [numberText?_eq] at h ⊢
  obtain ⟨whole, hwhole, h⟩ := Option.bind_eq_some_iff.mp h
  obtain ⟨_, hguard, h⟩ := Option.bind_eq_some_iff.mp h
  obtain ⟨fraction, hfraction, h⟩ := Option.bind_eq_some_iff.mp h
  obtain ⟨exponent, hexponent, h⟩ := Option.bind_eq_some_iff.mp h
  have hne : s ≠ [] := by
    rintro rfl
    cases hwhole
  rw [signFirst_append hne, Text.digitsFirst?_append hwhole ends.no_digit, Option.bind_some,
    hguard, Option.bind_some, fractionFirst?_append hfraction ends, Option.bind_some,
    exponentFirst?_append hexponent ends, Option.bind_some]
  cases h
  rfl

/-- A number that is read from a text is read from it whatever stands behind, if that does
not go on with the number. -/
theorem number_append {j : Json} (h : number s = some (j, r)) (ends : Ends rest) :
    number (s ++ rest) = some (j, r ++ rest) := by
  obtain ⟨⟨t, u⟩, htext, h⟩ := Option.bind_eq_some_iff.mp h
  obtain ⟨k, hvalue, heq⟩ := Option.bind_eq_some_iff.mp h
  cases heq
  refine Option.bind_eq_some_iff.mpr ⟨_, numberText?_append htext ends, ?_⟩
  exact Option.bind_eq_some_iff.mpr ⟨_, hvalue, rfl⟩

/-- A number starts with its sign or a digit. -/
theorem exists_cons_of_number {p : Json × List Char} (h : number s = some p) :
    ∃ c t, s = c :: t ∧ (c = '-' ∨ c.isDigit = true) := by
  obtain ⟨t, htext, -⟩ := Option.bind_eq_some_iff.mp h
  rw [numberText?_eq] at htext
  obtain ⟨whole, hwhole, -⟩ := Option.bind_eq_some_iff.mp htext
  cases s with
  | nil => cases hwhole
  | cons c s =>
    refine ⟨c, s, rfl, ?_⟩
    by_cases hsign : c = '-'
    · exact .inl hsign
    · right
      obtain ⟨hparts, hne⟩ := Text.digitsFirst?_eq_some_iff.mp hwhole
      have hplain : (signFirst (c :: s)).2 = c :: s := by simp [signFirst, hsign]
      rw [hplain] at hparts
      by_contra hdigit
      have hnil : (c :: s).takeWhile Char.isDigit = [] := List.takeWhile_cons_of_neg hdigit
      exact hne ((congrArg Prod.fst hparts).symm.trans hnil)

/-! ## Integers -/

/-- Digits, with a sign or without one, that end where the number ends. -/
theorem numberText?_of_digits {s ds : List Char} (negative : Bool) (unsigned : s.head? ≠ some '-')
    (digits : Text.digitsFirst? s = some (ds, rest))
    (plain : ds.head? ≠ some '0' ∨ ds.length = 1) (ends : Ends rest) :
    numberText? ((if negative then ['-'] else []) ++ s) =
      some (⟨negative, ds, none, none⟩, rest) := by
  -- The reader looks for a sign first.
  have hsign : ∀ t, s ≠ '-' :: t := fun t heq => unsigned (by rw [heq]; rfl)
  have hguard : (guard (¬ds.head? = some '0' ∨ ds.length = 1) : Option Unit) = some () :=
    if_pos plain
  cases rest with
  | nil =>
    cases negative with
    | false => simp [numberText?, digits, hguard]
    | true => simp [numberText?, digits, hguard]
  | cons c rest =>
    obtain ⟨_, hpoint, he, hE⟩ := ends c rfl
    cases negative with
    | false => simp [numberText?, digits, hguard, hpoint, he, hE]
    | true => simp [numberText?, digits, hguard, hpoint, he, hE]

theorem numberText?_writeInt (n : Int) (ends : Ends rest) :
    numberText? (writeInt n ++ rest) =
      some (⟨n < 0, Nat.toDigits 10 n.natAbs, none, none⟩, rest) := by
  have hdigits := Text.digitsFirst?_toDigits n.natAbs fun c hc => (ends c hc).1
  have hunsigned : (Nat.toDigits 10 n.natAbs ++ rest).head? ≠ some '-' := by
    obtain ⟨d, ds, hd, hdigit⟩ := Text.exists_toDigits_eq_cons n.natAbs
    rw [hd]
    intro heq
    obtain rfl := Option.some.inj heq
    cases hdigit
  have hplain : (Nat.toDigits 10 n.natAbs).head? ≠ some '0' ∨
      (Nat.toDigits 10 n.natAbs).length = 1 := by
    by_cases hn : n.natAbs = 0
    · exact .inr (by rw [hn]; rfl)
    · exact .inl (Text.head?_toDigits hn)
  have h := numberText?_of_digits (decide (n < 0)) hunsigned hdigits hplain ends
  simpa [writeInt] using h

/-- The text of an integer that 64 bits can hold stands for that integer. -/
theorem value?_toDigits {n : Int} (least : leastInt64 ≤ n) (greatest : n ≤ greatestNat64) :
    NumberText.value? ⟨n < 0, Nat.toDigits 10 n.natAbs, none, none⟩ = some (.int n) := by
  rw [leastInt64] at least
  obtain ⟨k, rfl | rfl⟩ := n.eq_nat_or_neg
  · have hk : k ≤ greatestNat64 := by omega
    have hsign : ¬ (k : Int) < 0 := by omega
    simp [NumberText.value?, hsign, hk]
  · by_cases hzero : k = 0
    · subst hzero
      rfl
    · have hk : k ≤ 9223372036854775808 := by omega
      simp [NumberText.value?, hzero, hk]

/-- An integer is read back. -/
theorem number_writeInt {n : Int} (least : leastInt64 ≤ n) (greatest : n ≤ greatestNat64)
    (ends : Ends rest) : number (writeInt n ++ rest) = some (.int n, rest) := by
  rw [number, numberText?_writeInt n ends]
  simp [value?_toDigits least greatest]

end Json
end OData
