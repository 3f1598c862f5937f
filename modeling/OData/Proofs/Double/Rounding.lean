import Mathlib.Tactic.Ring
import OData.Double.Shortest

/-! # Which integers a double stands for

An integer is rounded to the nearest double, and of two equally near to the one with the
even significand.  So the integers that are rounded to one double are those in its interval,
whose ends lie half way to its neighbours (`ofInt_eq_finite_iff`).  Below a power of two the
neighbour is nearer: there an integer is rounded up to the double with the next exponent.
-/
namespace OData
namespace Double

/-! ## Rounding a fraction -/

/-- A fraction is rounded to the integer at most one half away, and from one that is just so
far away to the even one. -/
theorem roundRatio_eq_iff {num den q : Nat} (hden : 0 < den) : roundRatio num den = q ↔
    2 * (q * den) ≤ 2 * num + den ∧ 2 * num ≤ 2 * (q * den) + den ∧
      (q % 2 = 1 → 2 * (q * den) < 2 * num + den ∧ 2 * num < 2 * (q * den) + den) := by
  have hnum : num = num / den * den + num % den := by
    rw [Nat.mul_comm]
    exact (Nat.div_add_mod num den).symm
  have hrest := Nat.mod_lt num hden
  generalize hfloor : num / den = floor at hnum
  generalize hr : num % den = rest at hnum hrest
  have hnext : (floor + 1) * den = floor * den + den := by ring
  have hround : roundRatio num den =
      if 2 * rest < den then floor
      else if 2 * rest = den then floor + floor % 2 else floor + 1 := by
    rw [roundRatio, hfloor, hr]
  constructor
  · rintro rfl
    rw [hround]
    split
    · omega
    · split
      · rcases Nat.mod_two_eq_zero_or_one floor with heven | hodd
        · rw [heven, Nat.add_zero]
          omega
        · rw [hodd, hnext]
          omega
      · rw [hnext]
        omega
  · rintro ⟨hlow, hhigh, hodd⟩
    -- No other integer than these two is so near.
    have hle : floor ≤ q := by
      by_contra hlt
      have hmul : (q + 1) * den ≤ floor * den := Nat.mul_le_mul_right den (by omega)
      rw [Nat.add_mul] at hmul
      omega
    have hge : q ≤ floor + 1 := by
      by_contra hlt
      have hmul : (floor + 2) * den ≤ q * den := Nat.mul_le_mul_right den (by omega)
      rw [Nat.add_mul] at hmul
      omega
    rw [hround]
    obtain rfl | rfl : q = floor ∨ q = floor + 1 := by omega
    · split
      · rfl
      · split <;> omega
    · rw [hnext] at hlow hhigh hodd
      split
      · omega
      · split <;> omega

theorem roundRatio_one (n : Nat) : roundRatio n 1 = n := by
  simp [roundRatio, Nat.mod_one]

/-! ## The exponent -/

theorem scaleUp_natCast (n e : Nat) : scaleUp n e = n * 2 ^ e := rfl

theorem scaleUp_of_nonpos {e : Int} (n : Nat) (he : e ≤ 0) : scaleUp n e = n := by
  rw [scaleUp, Int.toNat_of_nonpos he]
  exact Nat.mul_one n

/-- The binary logarithm of a fraction that lies between two powers of two. -/
theorem floorLog2_eq {num den b : Nat} (hden : 0 < den) (least : den * 2 ^ b ≤ num)
    (greatest : num < den * 2 ^ (b + 1)) : floorLog2 num den = b := by
  have hpos : 0 < den * 2 ^ b := Nat.mul_pos hden (Nat.two_pow_pos b)
  have hden_le := Nat.log2_self_le hden.ne'
  have hden_lt := @Nat.lt_log2_self den
  have hnum_le := Nat.log2_self_le (n := num) (by omega)
  have hnum_lt := @Nat.lt_log2_self num
  have hlow : den.log2 + b < num.log2 + 1 := by
    refine (Nat.pow_lt_pow_iff_right (by decide : 1 < 2)).mp ?_
    calc 2 ^ (den.log2 + b) = 2 ^ den.log2 * 2 ^ b := Nat.pow_add ..
      _ ≤ den * 2 ^ b := Nat.mul_le_mul_right _ hden_le
      _ ≤ num := least
      _ < 2 ^ (num.log2 + 1) := hnum_lt
  have hhigh : num.log2 < den.log2 + 1 + (b + 1) := by
    refine (Nat.pow_lt_pow_iff_right (by decide : 1 < 2)).mp ?_
    calc 2 ^ num.log2 ≤ num := hnum_le
      _ < den * 2 ^ (b + 1) := greatest
      _ ≤ 2 ^ (den.log2 + 1) * 2 ^ (b + 1) := Nat.mul_le_mul_right _ hden_lt.le
      _ = 2 ^ (den.log2 + 1 + (b + 1)) := (Nat.pow_add ..).symm
  rw [floorLog2]
  -- The difference of the logarithms is the logarithm of the fraction, or one more.
  obtain he | he : (num.log2 : Int) - den.log2 = b ∨
      (num.log2 : Int) - den.log2 = (b + 1 : Nat) := by
    omega
  · have hscaled : scaleUp den b ≤ scaleUp num (-b) := by
      rw [scaleUp_natCast, scaleUp_of_nonpos num (by omega)]
      exact least
    rw [he, if_pos hscaled]
  · have hscaled : ¬ scaleUp den (b + 1 : Nat) ≤ scaleUp num (-(b + 1 : Nat)) := by
      rw [scaleUp_natCast, scaleUp_of_nonpos num (by omega)]
      exact Nat.not_le.mpr greatest
    rw [he, if_neg hscaled]
    omega

/-! ## Rounding an integer -/

/-- The double with the significand and the exponent given, where a significand of fifty-four
binary digits makes one with the next exponent. -/
def ofRounded (significand : Nat) (exponent : Int) : Double :=
  let (m, e) := if significand = Nat.pow 2 53 then (Nat.pow 2 52, exponent + 1)
    else (significand, exponent)
  if e > greatestExponent then .infinite false else .finite false m e

theorem ofInt_natCast {n b : Nat} (least : 2 ^ b ≤ n) (greatest : n < 2 ^ (b + 1)) :
    ofInt n = ofRounded (roundRatio (n * 2 ^ (52 - b)) (2 ^ (b - 52))) ((b : Int) - 52) := by
  have hpos : 0 < 2 ^ b := Nat.two_pow_pos b
  have hlog : floorLog2 n 1 = b :=
    floorLog2_eq (by decide) (by rwa [Nat.one_mul]) (by rwa [Nat.one_mul])
  have hexponent : max leastExponent ((b : Int) - 52) = (b : Int) - 52 := by
    rw [leastExponent]
    omega
  have hup : scaleUp n (-((b : Int) - 52)) = n * 2 ^ (52 - b) := by
    rw [scaleUp, show (-((b : Int) - 52)).toNat = 52 - b by omega]
    rfl
  have hdown : scaleUp 1 ((b : Int) - 52) = 2 ^ (b - 52) := by
    rw [scaleUp, show ((b : Int) - 52).toNat = b - 52 by omega, Nat.one_mul]
    rfl
  have hsign : decide ((n : Int) < 0) = false := by
    rw [decide_eq_false_iff_not]
    omega
  rw [ofInt, hsign, Int.natAbs_natCast, ofRatio, if_neg (by omega)]
  simp only [hlog, hexponent, hup, hdown]
  rfl

theorem ofRounded_eq_finite_iff {s m : Nat} {x e : Int} : ofRounded s x = .finite false m e ↔
    e ≤ greatestExponent ∧ (s = m ∧ x = e ∧ s ≠ 2 ^ 53 ∨ s = 2 ^ 53 ∧ m = 2 ^ 52 ∧ e = x + 1) := by
  by_cases hs : s = 2 ^ 53
  · have hvalue : ofRounded s x = if x + 1 > greatestExponent then .infinite false
        else .finite false (2 ^ 52) (x + 1) := by
      subst hs
      rfl
    rw [hvalue]
    split
    · simp only [reduceCtorEq, false_iff]
      omega
    · simp only [finite.injEq, true_and]
      omega
  · have hvalue : ofRounded s x = if x > greatestExponent then .infinite false
        else .finite false s x := by
      have hs' : ¬ s = Nat.pow 2 53 := hs
      rw [ofRounded, if_neg hs']
    rw [hvalue]
    split
    · simp only [reduceCtorEq, false_iff]
      omega
    · simp only [finite.injEq, true_and]
      omega

/-- An integer of fifty-three or more binary digits loses those behind the first fifty-three. -/
theorem ofInt_of_le {n e : Nat} (least : 2 ^ (52 + e) ≤ n) (greatest : n < 2 ^ (52 + e + 1)) :
    ofInt n = ofRounded (roundRatio n (2 ^ e)) e := by
  rw [ofInt_natCast least greatest, Nat.sub_eq_zero_of_le (by omega), Nat.add_sub_cancel_left,
    Nat.pow_zero, Nat.mul_one]
  congr 1
  omega

/-- A smaller integer has a double with a negative exponent. -/
theorem ofInt_ne_of_lt {n m e : Nat} (h : n < 2 ^ 52) : ofInt n ≠ .finite false m e := by
  intro heq
  have hn : n ≠ 0 := by
    rintro rfl
    cases heq
  have hb : n.log2 < 52 := (Nat.log2_lt hn).mpr h
  rw [ofInt_natCast (Nat.log2_self_le hn) Nat.lt_log2_self, show n.log2 - 52 = 0 by omega,
    Nat.pow_zero, roundRatio_one] at heq
  obtain ⟨-, ⟨-, hx, -⟩ | ⟨hs, -⟩⟩ := ofRounded_eq_finite_iff.mp heq
  · omega
  · have hlt : n * 2 ^ (52 - n.log2) < 2 ^ (n.log2 + 1) * 2 ^ (52 - n.log2) :=
      Nat.mul_lt_mul_of_pos_right Nat.lt_log2_self (Nat.two_pow_pos _)
    rw [hs, ← Nat.pow_add, show n.log2 + 1 + (52 - n.log2) = 53 by omega] at hlt
    omega

/-! ## The interval of a double -/

/-- The ends of an interval belong to it if it is closed. -/
theorem Interval.contains_iff {i : Interval} {x : Nat} : i.contains x 1 = true ↔
    i.low ≤ x * i.den ∧ x * i.den ≤ i.high ∧
      (i.closed = false → i.low < x * i.den ∧ x * i.den < i.high) := by
  rw [contains, Nat.mul_one, Nat.mul_one]
  cases i.closed with
  | true => simp
  | false =>
    simp only [Bool.false_eq_true, if_false, Bool.and_eq_true, decide_eq_true_eq, true_imp_iff]
    omega

/-- The distance from a double to the one below it, in halves of the distance to the one
above it. -/
def gapBelow (significand : Nat) : Nat := if significand = 2 ^ 52 then 1 else 2

/-- The integers in the interval of a double: those at most half way to its neighbours, and
less far if its significand is odd. -/
theorem contains_interval_iff {n m e : Nat} (normal : 2 ^ 52 ≤ m) :
    (interval m e).contains n 1 = true ↔
      4 * (m * 2 ^ e) ≤ 4 * n + gapBelow m * 2 ^ e ∧ 4 * n ≤ 4 * (m * 2 ^ e) + 2 * 2 ^ e ∧
        (m % 2 = 1 → 4 * (m * 2 ^ e) < 4 * n + gapBelow m * 2 ^ e ∧
          4 * n < 4 * (m * 2 ^ e) + 2 * 2 ^ e) := by
  have hunit : scaleUp 1 e = 2 ^ e := by rw [scaleUp_natCast, Nat.one_mul]
  have hden : scaleUp 1 (-(e : Int)) = 1 := scaleUp_of_nonpos 1 (by omega)
  have hpow : Nat.pow 2 52 = 2 ^ 52 := rfl
  have hleast : (e : Int) > leastExponent := by
    rw [leastExponent]
    omega
  have hbelow : (if m = 2 ^ 52 ∧ (e : Int) > leastExponent then 2 ^ e else 2 * 2 ^ e) =
      gapBelow m * 2 ^ e := by
    by_cases hm : m = 2 ^ 52
    · rw [if_pos ⟨hm, hleast⟩, gapBelow, if_pos hm, Nat.one_mul]
    · rw [if_neg fun h => hm h.1, gapBelow, if_neg hm]
  have hgap : gapBelow m * 2 ^ e ≤ 4 * (m * 2 ^ e) := by
    rw [← Nat.mul_assoc]
    refine Nat.mul_le_mul_right _ ?_
    rw [gapBelow]
    split <;> omega
  rw [Interval.contains_iff]
  simp only [interval, hunit, hden, hpow, hbelow, Nat.mul_assoc 4 m, decide_eq_false_iff_not]
  generalize 2 ^ e = unit at hgap ⊢
  generalize gapBelow m * unit = below at hgap ⊢
  omega

/-- Only the double whose significand is a power of two has a smaller gap below it. -/
theorem gapBelow_cases {m : Nat} (normal : 2 ^ 52 ≤ m) (unit : Nat) :
    m = 2 ^ 52 ∧ gapBelow m = 1 ∨ 2 ^ 52 * unit + unit ≤ m * unit ∧ gapBelow m = 2 := by
  by_cases hm : m = 2 ^ 52
  · exact .inl ⟨hm, if_pos hm⟩
  · refine .inr ⟨?_, if_neg hm⟩
    rw [← Nat.succ_mul]
    exact Nat.mul_le_mul_right _ (by omega)

theorem contains_of_ofInt_eq {n m e : Nat} (normal : 2 ^ 52 ≤ m)
    (h : ofInt n = .finite false m e) : (interval m e).contains n 1 = true := by
  rw [contains_interval_iff normal]
  have hlong : 2 ^ 52 ≤ n := by
    by_contra hlt
    exact ofInt_ne_of_lt (Nat.lt_of_not_le hlt) h
  have hlog : 52 ≤ n.log2 := (Nat.le_log2 (by omega)).mpr hlong
  obtain ⟨x, hx⟩ : ∃ x, n.log2 = 52 + x := ⟨n.log2 - 52, by omega⟩
  have hlow := Nat.log2_self_le (n := n) (by omega)
  have hhigh := @Nat.lt_log2_self n
  rw [hx] at hlow hhigh
  rw [ofInt_of_le hlow hhigh] at h
  rw [Nat.pow_succ, Nat.pow_add] at hhigh
  rw [Nat.pow_add] at hlow
  obtain ⟨-, ⟨hm, hx, -⟩ | ⟨hm, rfl, hx⟩⟩ := ofRounded_eq_finite_iff.mp h
  · obtain rfl : x = e := by omega
    rw [roundRatio_eq_iff (Nat.two_pow_pos x)] at hm
    rcases gapBelow_cases normal (2 ^ x) with ⟨rfl, hgap⟩ | ⟨hnext, hgap⟩
    · rw [hgap]
      omega
    · rw [hgap]
      omega
  · -- The integer has one binary digit less than the double and is rounded up to it.
    obtain rfl : e = x + 1 := by omega
    rw [roundRatio_eq_iff (Nat.two_pow_pos x)] at hm
    have hgap : gapBelow (2 ^ 52) = 1 := rfl
    rw [hgap, Nat.pow_succ]
    omega

theorem ofInt_eq_of_contains {n m e : Nat} (normal : 2 ^ 52 ≤ m) (small : m < 2 ^ 53)
    (range : (e : Int) ≤ greatestExponent) (h : (interval m e).contains n 1 = true) :
    ofInt n = .finite false m e := by
  rw [contains_interval_iff normal] at h
  have hunit : 0 < 2 ^ e := Nat.two_pow_pos e
  have hgreatest : m * 2 ^ e ≤ (2 ^ 53 - 1) * 2 ^ e := Nat.mul_le_mul_right _ (by omega)
  have hgap := gapBelow_cases normal (2 ^ e)
  by_cases hlow : 2 ^ (52 + e) ≤ n
  · have hhigh : n < 2 ^ (52 + e + 1) := by
      rw [Nat.pow_succ, Nat.pow_add]
      omega
    have hm : roundRatio n (2 ^ e) = m := by
      rw [Nat.pow_add] at hlow
      rw [roundRatio_eq_iff hunit]
      rcases hgap with ⟨rfl, hgap⟩ | ⟨hnext, hgap⟩
      · rw [hgap] at h
        omega
      · rw [hgap] at h
        omega
    rw [ofInt_of_le hlow hhigh, hm, ofRounded_eq_finite_iff]
    exact ⟨range, .inl ⟨rfl, rfl, by omega⟩⟩
  · -- Only below a power of two does an interval reach to integers with fewer binary digits.
    rw [Nat.pow_add] at hlow
    obtain ⟨rfl, hgap⟩ : m = 2 ^ 52 ∧ gapBelow m = 1 := by
      refine hgap.resolve_right fun hgap => ?_
      rw [hgap.2] at h
      omega
    rw [hgap] at h
    obtain ⟨x, rfl⟩ : ∃ x, e = x + 1 := by
      refine ⟨e - 1, ?_⟩
      by_contra hzero
      obtain rfl : e = 0 := by omega
      omega
    rw [Nat.pow_succ] at h hlow
    have hlow' : 2 ^ (52 + x) ≤ n := by
      rw [Nat.pow_add]
      omega
    have hhigh : n < 2 ^ (52 + x + 1) := by
      rw [Nat.pow_succ, Nat.pow_add]
      omega
    have hm : roundRatio n (2 ^ x) = 2 ^ 53 := by
      rw [roundRatio_eq_iff (Nat.two_pow_pos x)]
      omega
    rw [ofInt_of_le hlow' hhigh, hm, ofRounded_eq_finite_iff]
    exact ⟨range, .inr ⟨rfl, rfl, by omega⟩⟩

/-- **The integers of a double.**  An integer is rounded to a double exactly if it lies in
the interval of the double. -/
theorem ofInt_eq_finite_iff {n m e : Nat} (normal : 2 ^ 52 ≤ m) (small : m < 2 ^ 53)
    (range : (e : Int) ≤ greatestExponent) :
    ofInt n = .finite false m e ↔ (interval m e).contains n 1 = true :=
  ⟨contains_of_ofInt_eq normal, ofInt_eq_of_contains normal small range⟩

end Double
end OData
