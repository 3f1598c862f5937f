import Mathlib.Algebra.Group.Nat.Defs
import Mathlib.Data.List.TakeWhile
import OData.Text.Blank
import OData.Text.Digits

/-! # Numbers in decimal digits

The digits of a number are read back as the number, whatever follows them, so long as
that does not start with a digit.
-/
namespace OData
namespace Text

theorem isDigit_of_mem_toDigits {n : Nat} : ∀ c ∈ Nat.toDigits 10 n, c.isDigit = true :=
  fun _ hc => Nat.isDigit_of_mem_toDigits (by decide) (Nat.le_refl 10) hc

theorem exists_toDigits_eq_cons (n : Nat) :
    ∃ d ds, Nat.toDigits 10 n = d :: ds ∧ d.isDigit = true := by
  have hne : Nat.toDigits 10 n ≠ [] := Nat.toDigits_ne_nil
  obtain ⟨d, ds, hd⟩ := List.exists_cons_of_ne_nil hne
  exact ⟨d, ds, hd, isDigit_of_mem_toDigits d (hd ▸ List.mem_cons_self ..)⟩

@[simp] theorem natOfDigits_toDigits (n : Nat) : natOfDigits (Nat.toDigits 10 n) = n := by
  have h := Nat.ofDigitChars_ten_toDigits (n := n)
  rw [Nat.ofDigitChars_eq_foldl] at h
  simpa [natOfDigits, digitValue, Nat.mul_comm] using h

theorem digitsFirst?_eq_some_iff {s ds r : List Char} :
    digitsFirst? s = some (ds, r) ↔ digitsFirst s = (ds, r) ∧ ds ≠ [] := by
  rw [digitsFirst?]
  split
  · next hnone =>
    rw [hnone]
    simp only [reduceCtorEq, false_iff, not_and]
    exact fun hparts hne => hne (Prod.mk.inj hparts).1.symm
  · next hsome =>
    simp only [Option.some.injEq, iff_self_and]
    rintro hparts rfl
    exact hsome _ hparts

theorem takeWhile_dropWhile_append (s : List Char) {rest : List Char}
    (ends : ∀ c ∈ rest.head?, c.isDigit = false) :
    (s ++ rest).takeWhile Char.isDigit = s.takeWhile Char.isDigit ∧
      (s ++ rest).dropWhile Char.isDigit = s.dropWhile Char.isDigit ++ rest := by
  induction s with
  | nil =>
    cases rest with
    | nil => exact ⟨rfl, rfl⟩
    | cons c rest =>
      have hc : ¬ c.isDigit = true := by simpa using ends c rfl
      exact ⟨List.takeWhile_cons_of_neg hc, List.dropWhile_cons_of_neg hc⟩
  | cons c s ih =>
    by_cases hc : c.isDigit = true
    · simp [hc, ih]
    · simp [hc]

/-- Where the digits at the start of a text end does not depend on what stands behind the
text, if that is no digit. -/
theorem digitsFirst?_append {s ds r rest : List Char} (h : digitsFirst? s = some (ds, r))
    (ends : ∀ c ∈ rest.head?, c.isDigit = false) :
    digitsFirst? (s ++ rest) = some (ds, r ++ rest) := by
  rw [digitsFirst?_eq_some_iff] at h ⊢
  obtain ⟨hparts, hne⟩ := h
  obtain ⟨rfl, rfl⟩ := Prod.mk.inj hparts
  obtain ⟨htake, hdrop⟩ := takeWhile_dropWhile_append s ends
  exact ⟨by rw [digitsFirst, htake, hdrop], hne⟩

theorem digitsFirst?_toDigits (n : Nat) {rest : List Char}
    (h : ∀ c ∈ rest.head?, c.isDigit = false) :
    digitsFirst? (Nat.toDigits 10 n ++ rest) = some (Nat.toDigits 10 n, rest) := by
  have hall : digitsFirst (Nat.toDigits 10 n) = (Nat.toDigits 10 n, []) := by
    exact Prod.ext (List.takeWhile_eq_self_iff.mpr isDigit_of_mem_toDigits)
      (List.dropWhile_eq_nil_iff.mpr isDigit_of_mem_toDigits)
  exact digitsFirst?_append (digitsFirst?_eq_some_iff.mpr ⟨hall, Nat.toDigits_ne_nil⟩) h

theorem nat?_toDigits (n : Nat) : nat? (Nat.toDigits 10 n) = some n := by
  have h : digitsFirst? (Nat.toDigits 10 n ++ []) = some (Nat.toDigits 10 n, []) :=
    digitsFirst?_toDigits n (by simp)
  rw [List.append_nil] at h
  simp [nat?, h]

theorem natBelow?_toDigits {n bound : Nat} (h : n < bound) :
    natBelow? bound (Nat.toDigits 10 n) = some n := by
  have hbound : ∀ k : Option Nat, k = some n →
      (do let k ← k; guard (k < bound); return k) = some n := by
    rintro _ rfl
    have hguard : (guard (n < bound) : Option Unit) = some () := if_pos h
    change ((guard (n < bound) : Option Unit).bind fun _ => some n) = some n
    rw [hguard, Option.bind_some]
  refine hbound _ ?_
  -- Digits start with no plus sign.
  split
  · next s hs =>
    have hd : ('+' : Char).isDigit = true :=
      isDigit_of_mem_toDigits _ (hs ▸ List.mem_cons_self ..)
    exact absurd hd (by decide)
  · exact nat?_toDigits n

/-- No number but zero starts with the digit zero. -/
theorem head?_toDigits {n : Nat} (h : n ≠ 0) : (Nat.toDigits 10 n).head? ≠ some '0' := by
  induction n using Nat.strongRecOn with
  | ind n ih =>
    by_cases hn : n < 10
    · have hdigit : ∀ k < 10, k ≠ 0 → k.digitChar ≠ '0' := by decide
      rw [Nat.toDigits_of_lt_base hn]
      simpa using hdigit n hn h
    · have hhigher := ih (n / 10) (by omega) (by omega)
      obtain ⟨d, ds, hd, -⟩ := exists_toDigits_eq_cons (n / 10)
      rw [hd] at hhigher
      rw [Nat.toDigits_of_base_le (by decide) (by omega), hd]
      exact hhigher

/-- A number times a power of ten has the digits of the number and then zeros. -/
theorem toDigits_mul_pow {n : Nat} (h : 0 < n) (zeros : Nat) :
    Nat.toDigits 10 (n * 10 ^ zeros) = Nat.toDigits 10 n ++ List.replicate zeros '0' := by
  induction zeros with
  | zero => simp
  | succ zeros ih =>
    have hpos : 0 < n * 10 ^ zeros := Nat.mul_pos h (Nat.pow_pos (by decide))
    have hdiv : n * 10 ^ zeros * 10 / 10 = n * 10 ^ zeros := Nat.mul_div_cancel _ (by decide)
    have hmod : n * 10 ^ zeros * 10 % 10 = 0 := Nat.mul_mod_left ..
    rw [Nat.pow_succ, ← Nat.mul_assoc, Nat.toDigits_of_base_le (by decide) (by omega), hdiv, hmod,
      ih, List.replicate_succ', List.append_assoc]
    rfl

theorem isBlank_eq_false_of_isDigit {c : Char} (h : c.isDigit = true) : isBlank c = false := by
  have hn : 48 ≤ c.toNat ∧ c.toNat ≤ 57 := Char.isDigit_iff_toNat.mp h
  simp only [isBlank, Bool.or_eq_false_iff, Bool.and_eq_false_iff, decide_eq_false_iff_not,
    beq_eq_false_iff_ne]
  omega

end Text
end OData
