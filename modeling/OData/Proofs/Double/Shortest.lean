import Mathlib.Data.Nat.Dist
import OData.Proofs.Double.Rounding
import OData.Proofs.Text.Digits

/-! # The shortest text of a large integer

An integer of nineteen or twenty digits has more digits than a double keeps.  The double it
is rounded to is written as the integer with the most zeros at its end that is rounded to the
same double, and of several such integers as the nearest to the double (`Shortest`).  The
digits are searched on ever finer grids: on each grid one of the two points around the double
lies in its interval, or no point of the grid does (`nearest_of_nearestOnGrid?`,
`not_contains_of_nearestOnGrid?`).  So the first grid with such a point is the coarsest one.
-/
namespace OData
namespace Double

/-! ## Points of a grid -/

namespace Interval

variable {i : Interval} {tie : Tie} {d : Decimal} {j x y : Nat}

/-- The double lies inside its interval. -/
structure Proper (i : Interval) : Prop where
  den_pos : 0 < i.den
  low_lt : i.low < i.value
  lt_high : i.value < i.high

/-- How far an integer is from the double, in the unit in which the interval is given. -/
def distance (i : Interval) (x : Nat) : Nat := Nat.dist (x * i.den) i.value

theorem Proper.contains_of_le (p : Proper i) (h : i.contains x 1 = true) (hxy : x ≤ y)
    (hy : y * i.den ≤ i.value) : i.contains y 1 = true := by
  have hmul : x * i.den ≤ y * i.den := Nat.mul_le_mul_right _ hxy
  have hhigh := p.lt_high
  rw [contains_iff] at h ⊢
  obtain ⟨hlow, -, hends⟩ := h
  refine ⟨by omega, by omega, fun hopen => ?_⟩
  have hstrict := hends hopen
  omega

theorem Proper.contains_of_ge (p : Proper i) (h : i.contains x 1 = true) (hxy : y ≤ x)
    (hy : i.value ≤ y * i.den) : i.contains y 1 = true := by
  have hmul : y * i.den ≤ x * i.den := Nat.mul_le_mul_right _ hxy
  have hlow := p.low_lt
  rw [contains_iff] at h ⊢
  obtain ⟨-, hhigh, hends⟩ := h
  refine ⟨by omega, by omega, fun hopen => ?_⟩
  have hstrict := hends hopen
  omega

/-- The point of a grid at or below the double. -/
def floorOn (i : Interval) (j : Nat) : Nat := i.value / (i.den * 10 ^ j)

/-- Which of the two points around the double is taken. -/
theorem nearestOnGrid?_eq (i : Interval) (j : Nat) : i.nearestOnGrid? .up j =
    match i.contains (i.floorOn j * 10 ^ j) 1, i.contains ((i.floorOn j + 1) * 10 ^ j) 1 with
    | false, false => none
    | true, false => some ⟨i.floorOn j, j⟩
    | false, true => some ⟨i.floorOn j + 1, j⟩
    | true, true =>
      some ⟨if i.den * 10 ^ j ≤ 2 * (i.value % (i.den * 10 ^ j)) then i.floorOn j + 1
        else i.floorOn j, j⟩ := by
  have hdown : Nat.pow 10 (-(j : Int)).toNat = 1 := by
    rw [Int.toNat_of_nonpos (by omega)]
  have hup : Nat.pow 10 (j : Int).toNat = 10 ^ j := rfl
  have hupper : ∀ rest unit : Nat,
      ((if 2 * rest = unit then true else decide (2 * rest > unit)) = true) =
        (unit ≤ 2 * rest) := by
    intro rest unit
    split
    · next h => simp [h]
    · next h =>
      rw [decide_eq_true_eq, eq_iff_iff]
      omega
  rw [nearestOnGrid?, hdown, hup]
  simp only [Nat.mul_one, hupper]
  rfl

/-! ## The point that is taken -/

/-- An integer of the interval on a grid, none of which is nearer to the double; of two just
as near it is the greater. -/
structure Nearest (i : Interval) (j x : Nat) : Prop where
  contains : i.contains x 1 = true
  dvd : 10 ^ j ∣ x
  distance_le : ∀ y, i.contains y 1 = true → 10 ^ j ∣ y →
    i.distance x ≤ i.distance y ∧ (i.distance y = i.distance x → y ≤ x)

/-- The point of a grid that is not above the double, and the one above it. -/
theorem floorOn_bounds (p : Proper i) (j : Nat) :
    i.floorOn j * (i.den * 10 ^ j) + i.value % (i.den * 10 ^ j) = i.value ∧
      i.value % (i.den * 10 ^ j) < i.den * 10 ^ j := by
  refine ⟨?_, Nat.mod_lt _ (Nat.mul_pos p.den_pos (Nat.pow_pos (by decide)))⟩
  rw [floorOn, Nat.mul_comm]
  exact Nat.div_add_mod ..

/-- A grid has a point in the interval only if one of the two around the double is. -/
theorem contains_floorOn (p : Proper i) {t : Nat} (h : i.contains (t * 10 ^ j) 1 = true) :
    t ≤ i.floorOn j ∧ i.contains (i.floorOn j * 10 ^ j) 1 = true ∨
      i.floorOn j + 1 ≤ t ∧ i.contains ((i.floorOn j + 1) * 10 ^ j) 1 = true := by
  obtain ⟨hvalue, hrest⟩ := floorOn_bounds p j
  by_cases ht : t ≤ i.floorOn j
  · refine .inl ⟨ht, p.contains_of_le h (Nat.mul_le_mul_right _ ht) ?_⟩
    rw [Nat.mul_assoc, Nat.mul_comm (10 ^ j)]
    omega
  · refine .inr ⟨by omega, p.contains_of_ge h (Nat.mul_le_mul_right _ (by omega)) ?_⟩
    rw [Nat.mul_assoc, Nat.mul_comm (10 ^ j), Nat.succ_mul]
    omega

theorem not_contains_of_nearestOnGrid? (p : Proper i) (h : i.nearestOnGrid? .up j = none)
    (t : Nat) : ¬ i.contains (t * 10 ^ j) 1 = true := by
  intro ht
  rw [nearestOnGrid?_eq] at h
  rcases contains_floorOn p ht with ⟨-, hin⟩ | ⟨-, hin⟩
  · rw [hin] at h
    split at h <;> simp_all
  · rw [hin] at h
    split at h <;> simp_all

theorem distance_mul (t : Nat) :
    i.distance (t * 10 ^ j) = Nat.dist (t * (i.den * 10 ^ j)) i.value := by
  rw [distance, Nat.mul_assoc, Nat.mul_comm (10 ^ j)]

/-- The point below the double is taken if the one above is not in the interval or farther
away. -/
theorem nearest_floorOn (p : Proper i) (hin : i.contains (i.floorOn j * 10 ^ j) 1 = true)
    (h : i.contains ((i.floorOn j + 1) * 10 ^ j) 1 = true →
      2 * (i.value % (i.den * 10 ^ j)) < i.den * 10 ^ j) :
    Nearest i j (i.floorOn j * 10 ^ j) := by
  obtain ⟨hvalue, hrest⟩ := floorOn_bounds p j
  refine ⟨hin, Nat.dvd_mul_left .., ?_⟩
  rintro y hy ⟨t, rfl⟩
  rw [Nat.mul_comm (10 ^ j) t] at hy ⊢
  rw [distance_mul, distance_mul, Nat.dist, Nat.dist]
  rcases contains_floorOn p hy with ⟨ht, -⟩ | ⟨ht, hupper⟩
  · have hmul := Nat.mul_le_mul_right (i.den * 10 ^ j) ht
    exact ⟨by omega, fun _ => Nat.mul_le_mul_right _ ht⟩
  · have hmul := Nat.mul_le_mul_right (i.den * 10 ^ j) ht
    have hfar := h hupper
    rw [Nat.succ_mul] at hmul
    omega

/-- The point above the double is taken if the one below is not in the interval or not
nearer. -/
theorem nearest_succ_floorOn (p : Proper i)
    (hin : i.contains ((i.floorOn j + 1) * 10 ^ j) 1 = true)
    (h : i.contains (i.floorOn j * 10 ^ j) 1 = true →
      i.den * 10 ^ j ≤ 2 * (i.value % (i.den * 10 ^ j))) :
    Nearest i j ((i.floorOn j + 1) * 10 ^ j) := by
  obtain ⟨hvalue, hrest⟩ := floorOn_bounds p j
  refine ⟨hin, Nat.dvd_mul_left .., ?_⟩
  rintro y hy ⟨t, rfl⟩
  rw [Nat.mul_comm (10 ^ j) t] at hy ⊢
  rw [distance_mul, distance_mul, Nat.succ_mul, Nat.dist, Nat.dist]
  rcases contains_floorOn p hy with ⟨ht, hlower⟩ | ⟨ht, -⟩
  · have hmul := Nat.mul_le_mul_right (i.den * 10 ^ j) ht
    have hfar := h hlower
    exact ⟨by omega, fun _ => Nat.mul_le_mul_right _ (by omega)⟩
  · have hmul := Nat.mul_le_mul_right (i.den * 10 ^ j) ht
    rw [Nat.succ_mul] at hmul
    refine ⟨by omega, fun heq => Nat.mul_le_mul_right _ ?_⟩
    -- A point farther up is farther away.
    by_contra hlt
    have hnext := Nat.mul_le_mul_right (i.den * 10 ^ j) (Nat.lt_of_not_le hlt)
    rw [Nat.succ_mul, Nat.succ_mul] at hnext
    omega

theorem nearest_of_nearestOnGrid? (p : Proper i) (h : i.nearestOnGrid? .up j = some d) :
    d.exponent = j ∧ Nearest i j (d.coefficient * 10 ^ j) := by
  rw [nearestOnGrid?_eq] at h
  split at h
  · cases h
  · next hlower hupper =>
    cases h
    exact ⟨rfl, nearest_floorOn p hlower fun hin => by simp_all⟩
  · next hlower hupper =>
    cases h
    exact ⟨rfl, nearest_succ_floorOn p hupper fun hin => by simp_all⟩
  · next hlower hupper =>
    cases h
    refine ⟨rfl, ?_⟩
    dsimp only
    split
    · next hfar => exact nearest_succ_floorOn p hupper fun _ => hfar
    · next hnear => exact nearest_floorOn p hlower fun _ => Nat.lt_of_not_le hnear

/-! ## The search -/

theorem exists_of_findSome?_range {α : Type} {f : Nat → Option α} {n : Nat} {a : α}
    (h : (List.range n).findSome? f = some a) : ∃ x < n, f x = some a ∧ ∀ y < x, f y = none := by
  induction n with
  | zero => cases h
  | succ n ih =>
    rw [List.range_succ, List.findSome?_append] at h
    cases hn : (List.range n).findSome? f with
    | some b =>
      rw [hn, Option.some_or] at h
      obtain ⟨x, hx, hsome, hnone⟩ := ih (hn.trans h)
      exact ⟨x, by omega, hsome, hnone⟩
    | none =>
      rw [hn, Option.none_or, List.findSome?_singleton] at h
      exact ⟨n, by omega, h, fun y hy => List.findSome?_eq_none_iff.mp hn y (List.mem_range.mpr hy)⟩

/-- The grids are tried from the coarsest one on, and the first with a point in the interval
is taken. -/
theorem exists_grid {k : Nat} (p : Proper i) (hk : i.magnitude = k) (long : 17 ≤ k) (hj : j < k)
    (hjk : k ≤ j + 17) {t : Nat} (hit : i.contains (t * 10 ^ j) 1 = true) :
    ∃ x c, j ≤ x ∧ x < k ∧ Nearest i x (c * 10 ^ x) ∧ i.shortest .up = Decimal.strip 400 ⟨c, x⟩ ∧
      (x + 1 < k → ∀ t, ¬ i.contains (t * 10 ^ (x + 1)) 1 = true) := by
  have hexponents : ((List.range 17).map fun n : Nat => i.magnitude - (n + 1)) =
      (List.range 17).map fun n : Nat => ((k - (n + 1) : Nat) : Int) := by
    refine List.map_congr_left fun n hn => ?_
    have hn := List.mem_range.mp hn
    omega
  have hgrids : ((List.range 17).map fun n : Nat => i.magnitude - (n + 1)).findSome?
      (i.nearestOnGrid? .up) =
      (List.range 17).findSome? fun n => i.nearestOnGrid? .up (k - (n + 1) : Nat) := by
    rw [hexponents, List.findSome?_map]
    rfl
  cases hfound : (List.range 17).findSome? fun n => i.nearestOnGrid? .up (k - (n + 1) : Nat) with
  | none =>
    have hmiss := List.findSome?_eq_none_iff.mp hfound (k - (j + 1)) (List.mem_range.mpr (by omega))
    rw [show k - (k - (j + 1) + 1) = j by omega] at hmiss
    exact absurd hit (not_contains_of_nearestOnGrid? p hmiss t)
  | some d =>
    obtain ⟨n, hn, hsome, hnone⟩ := exists_of_findSome?_range hfound
    obtain ⟨hexponent, hnearest⟩ := nearest_of_nearestOnGrid? p hsome
    refine ⟨k - (n + 1), d.coefficient, ?_, by omega, hnearest, ?_, fun hnext => ?_⟩
    · -- The grid of `j` would have been taken before any finer one.
      by_contra hlt
      have hmiss := hnone (k - (j + 1)) (by omega)
      rw [show k - (k - (j + 1) + 1) = j by omega] at hmiss
      exact not_contains_of_nearestOnGrid? p hmiss t hit
    · rw [shortest, hgrids, hfound, ← hexponent]
    · have hmiss := hnone (n - 1) (by omega)
      rw [show k - (n - 1 + 1) = k - (n + 1) + 1 by omega] at hmiss
      exact not_contains_of_nearestOnGrid? p hmiss

/-- Digits that do not end in zero are kept. -/
theorem strip_eq_self {steps c : Nat} {e : Int} (h : c % 10 ≠ 0) :
    Decimal.strip steps ⟨c, e⟩ = ⟨c, e⟩ := by
  cases steps with
  | zero => rfl
  | succ steps => rw [Decimal.strip, if_neg fun hc => h hc.1]

/-- **The shortest decimal.**  If the integers of the interval have `k` digits and some grid of
seventeen digits has one of them, the decimal found is an integer of the interval: it has the
most zeros at its end, and of those that have as many it is the nearest one. -/
theorem exists_shortest {k : Nat} (p : Proper i) (hk : i.magnitude = k) (long : 17 ≤ k) (hj : j < k)
    (hjk : k ≤ j + 17) {t : Nat} (hit : i.contains (t * 10 ^ j) 1 = true)
    (digits : ∀ x, i.contains x 1 = true → 0 < x ∧ x < 10 ^ k) :
    ∃ x c, j ≤ x ∧ 0 < c ∧ i.shortest .up = ⟨c, x⟩ ∧ Nearest i x (c * 10 ^ x) ∧
      ∀ y, i.contains y 1 = true → ¬ 10 ^ (x + 1) ∣ y := by
  obtain ⟨x, c, hjx, hxk, hnearest, hshortest, hcoarser⟩ := exists_grid p hk long hj hjk hit
  have hfewest : ∀ y, i.contains y 1 = true → ¬ 10 ^ (x + 1) ∣ y := by
    rintro y hy ⟨t, rfl⟩
    rw [Nat.mul_comm (10 ^ (x + 1)) t] at hy
    by_cases hnext : x + 1 < k
    · exact hcoarser hnext t hy
    · -- Beyond the coarsest grid there is zero, and numbers with more digits.
      obtain rfl : k = x + 1 := by omega
      obtain ⟨hpos, hlt⟩ := digits _ hy
      have ht : 0 < t := Nat.pos_of_mul_pos_right hpos
      exact absurd hlt (Nat.not_lt.mpr (Nat.le_mul_of_pos_left _ ht))
  have hlast : c % 10 ≠ 0 := by
    intro hzero
    refine hfewest _ hnearest.contains ⟨c / 10, ?_⟩
    calc c * 10 ^ x = c / 10 * 10 * 10 ^ x := by
          rw [Nat.div_mul_cancel (Nat.dvd_of_mod_eq_zero hzero)]
      _ = 10 ^ (x + 1) * (c / 10) := by ring
  refine ⟨x, c, hjx, by omega, ?_, hnearest, hfewest⟩
  rw [hshortest, strip_eq_self hlast]

end Interval

/-! ## Integers of nineteen and twenty digits -/

/-- The value of a double that is an integer and not negative. -/
def wholeValue : Double → Nat
  | finite _ m e => scaleUp m e
  | _ => 0

/-- An integer that is rounded to the double and ends in so many zeros: no other such integer
ends in more of them, and of those that end in as many none is nearer to the double; of two
just as near it is the greater. -/
structure Shortest (d : Double) (zeros x : Nat) : Prop where
  rounds : ofInt x = d
  dvd : 10 ^ zeros ∣ x
  fewest : ∀ y : Nat, ofInt y = d → ¬ 10 ^ (zeros + 1) ∣ y
  nearest : ∀ y : Nat, ofInt y = d → 10 ^ zeros ∣ y →
    Nat.dist x d.wholeValue ≤ Nat.dist y d.wholeValue ∧
      (Nat.dist y d.wholeValue = Nat.dist x d.wholeValue → y ≤ x)

theorem interval_den (m e : Nat) : (interval m e).den = 4 := by
  have hden : scaleUp 1 (-(e : Int)) = 1 := scaleUp_of_nonpos 1 (by omega)
  simp only [interval, hden]

theorem interval_value (m e : Nat) : (interval m e).value = 4 * (m * 2 ^ e) := by
  have hunit : scaleUp 1 e = 2 ^ e := by rw [scaleUp_natCast, Nat.one_mul]
  simp only [interval, hunit, Nat.mul_assoc]

theorem proper_interval {m : Nat} (e : Nat) (positive : 0 < m) : (interval m e).Proper := by
  have hunit : scaleUp 1 e = 2 ^ e := by rw [scaleUp_natCast, Nat.one_mul]
  have hpos : 0 < 2 ^ e := Nat.two_pow_pos e
  have hmul : 2 ^ e ≤ m * 2 ^ e := Nat.le_mul_of_pos_left _ positive
  refine ⟨by rw [interval_den]; decide, ?_, ?_⟩
  · simp only [interval, hunit, Nat.mul_assoc]
    split <;> omega
  · simp only [interval, hunit, Nat.mul_assoc]
    omega

/-- Whether the double is below a power of ten. -/
def Interval.isBelow (i : Interval) (k : Int) : Bool :=
  i.value * Nat.pow 10 (-k).toNat < i.den * Nat.pow 10 k.toNat

theorem isBelow_interval (m e k : Nat) : (interval m e).isBelow k = true ↔ m * 2 ^ e < 10 ^ k := by
  have hup : Nat.pow 10 (k : Int).toNat = 10 ^ k := rfl
  have hdown : Nat.pow 10 (-(k : Int)).toNat = 1 := by
    rw [Int.toNat_of_nonpos (by omega)]
  rw [Interval.isBelow, interval_value, interval_den, hdown, hup, decide_eq_true_eq]
  omega

/-- The number of digits is guessed from the binary logarithm and then made right. -/
theorem magnitude_interval {m e : Nat} (least : 2 ^ 63 ≤ m * 2 ^ e)
    (greatest : m * 2 ^ e ≤ 2 ^ 64) :
    (interval m e).magnitude = ((if m * 2 ^ e < 10 ^ 19 then 19 else 20 : Nat) : Int) := by
  have hlog : ∀ b : Nat, 2 ^ b ≤ m * 2 ^ e → m * 2 ^ e < 2 ^ (b + 1) →
      floorLog2 (interval m e).value (interval m e).den = b := by
    intro b hlow hhigh
    rw [interval_value, interval_den]
    exact floorLog2_eq (by decide) (Nat.mul_le_mul_left 4 hlow) (by omega)
  have below := isBelow_interval m e
  rw [Interval.magnitude]
  rcases Nat.lt_or_ge (m * 2 ^ e) (2 ^ 64) with hlt | hge
  · have hguess : ((63 : Nat) : Int) * 30103 / 100000 - 1 = (17 : Nat) := by decide
    rw [hlog 63 least hlt, hguess]
    change (List.find? (interval m e).isBelow
      [(17 : Nat), (18 : Nat), (19 : Nat)]).getD (20 : Nat) = _
    rw [List.find?_cons_of_neg ((below 17).not.mpr (by omega)),
      List.find?_cons_of_neg ((below 18).not.mpr (by omega))]
    by_cases h : m * 2 ^ e < 10 ^ 19
    · rw [List.find?_cons_of_pos ((below 19).mpr h), if_pos h]
      rfl
    · rw [List.find?_cons_of_neg ((below 19).not.mpr h), if_neg h]
      rfl
  · have hguess : ((64 : Nat) : Int) * 30103 / 100000 - 1 = (18 : Nat) := by decide
    rw [hlog 64 hge (by omega), hguess]
    change (List.find? (interval m e).isBelow
      [(18 : Nat), (19 : Nat), (20 : Nat)]).getD (21 : Nat) = _
    rw [List.find?_cons_of_neg ((below 18).not.mpr (by omega)),
      List.find?_cons_of_neg ((below 19).not.mpr (by omega)),
      List.find?_cons_of_pos ((below 20).mpr (by omega)), if_neg (by omega)]
    rfl

/-- The double of an integer that needs 64 binary digits: its significand counts multiples of
2048, unless the integer is rounded to the next power of two. -/
theorem exists_ofInt_eq {n : Nat} (least : 2 ^ 63 ≤ n) (greatest : n < 2 ^ 64) :
    ∃ m e : Nat, ofInt n = .finite false m e ∧ 2 ^ 52 ≤ m ∧
      (e = 11 ∧ m < 2 ^ 53 ∨ e = 12 ∧ m = 2 ^ 52) := by
  have hofInt : ofInt n = ofRounded (roundRatio n (2 ^ 11)) 11 :=
    ofInt_of_le (e := 11) (by omega) (by omega)
  have hden : 0 < 2 ^ 11 := by decide
  obtain ⟨hlow, hhigh, -⟩ :=
    (roundRatio_eq_iff hden).mp (rfl : roundRatio n (2 ^ 11) = roundRatio n (2 ^ 11))
  rw [hofInt]
  by_cases hcarry : roundRatio n (2 ^ 11) = 2 ^ 53
  · refine ⟨2 ^ 52, 12, ofRounded_eq_finite_iff.mpr ⟨by decide, .inr ⟨hcarry, rfl, rfl⟩⟩, ?_⟩
    omega
  · refine ⟨roundRatio n (2 ^ 11), 11,
      ofRounded_eq_finite_iff.mpr ⟨by decide, .inl ⟨rfl, rfl, hcarry⟩⟩, ?_⟩
    omega

/-- What the interval of such a double has: a multiple of one thousand, and only integers with
as many digits as the double. -/
theorem contains_interval_long {m e : Nat} (normal : 2 ^ 52 ≤ m)
    (hexponent : e = 11 ∧ m < 2 ^ 53 ∨ e = 12 ∧ m = 2 ^ 52) :
    (interval m e).contains ((m * 2 ^ e / 10 ^ 3 + 1) * 10 ^ 3) 1 = true ∧
      ∀ x, (interval m e).contains x 1 = true →
        0 < x ∧ x < 10 ^ (if m * 2 ^ e < 10 ^ 19 then 19 else 20) := by
  have hgap : gapBelow m ≤ 2 := by
    rw [gapBelow]
    split <;> omega
  constructor
  · rw [contains_interval_iff normal]
    rcases hexponent with ⟨rfl, hsmall⟩ | ⟨rfl, rfl⟩ <;> omega
  · intro x hx
    rw [contains_interval_iff normal] at hx
    split
    · rcases hexponent with ⟨rfl, hsmall⟩ | ⟨rfl, rfl⟩ <;> omega
    · rcases hexponent with ⟨rfl, hsmall⟩ | ⟨rfl, rfl⟩ <;> omega

/-- The nearest point of a grid, in terms of what is rounded to the double. -/
theorem shortest_of_nearest {d : Double} {m e zeros x : Nat} (hd : d = .finite false m e)
    (hin : ∀ y, (interval m e).contains y 1 = true ↔ ofInt y = d)
    (h : (interval m e).Nearest zeros x)
    (fewest : ∀ y, (interval m e).contains y 1 = true → ¬ 10 ^ (zeros + 1) ∣ y) :
    Shortest d zeros x := by
  refine ⟨(hin x).mp h.contains, h.dvd, fun y hy => fewest y ((hin y).mpr hy), fun y hy hdvd => ?_⟩
  have hdistance := h.distance_le y ((hin y).mpr hy) hdvd
  have hvalue : d.wholeValue = m * 2 ^ e := by
    rw [hd]
    rfl
  simp only [Interval.distance, interval_den, interval_value, Nat.dist] at hdistance
  rw [hvalue, Nat.dist, Nat.dist]
  omega

/-- The double of an integer that needs 64 binary digits is written as the shortest integer
that stands for it, which ends in three zeros or more. -/
theorem exists_shortest_ofInt {n : Nat} (least : 2 ^ 63 ≤ n) (greatest : n < 2 ^ 64) :
    ∃ m e c zeros : Nat, ofInt n = .finite false m e ∧ 3 ≤ zeros ∧ 0 < c ∧
      shortest .up m e = ⟨c, zeros⟩ ∧ Shortest (ofInt n) zeros (c * 10 ^ zeros) := by
  obtain ⟨m, e, hn, normal, hexponent⟩ := exists_ofInt_eq least greatest
  have range : (e : Int) ≤ greatestExponent := by
    rw [greatestExponent]
    omega
  have hin : ∀ y : Nat, (interval m e).contains y 1 = true ↔ ofInt y = ofInt n := by
    intro y
    rw [hn]
    exact (ofInt_eq_finite_iff normal (by omega) range).symm
  have hlow : 2 ^ 63 ≤ m * 2 ^ e := by
    rcases hexponent with ⟨rfl, hsmall⟩ | ⟨rfl, rfl⟩ <;> omega
  have hhigh : m * 2 ^ e ≤ 2 ^ 64 := by
    rcases hexponent with ⟨rfl, hsmall⟩ | ⟨rfl, rfl⟩ <;> omega
  obtain ⟨hit, digits⟩ := contains_interval_long normal hexponent
  obtain ⟨zeros, c, hzeros, hc, hshortest, hnearest, hfewest⟩ :=
    Interval.exists_shortest (proper_interval e (by omega)) (magnitude_interval hlow hhigh)
      (by split <;> decide) (by split <;> decide) (by split <;> decide) hit digits
  refine ⟨m, e, c, zeros, hn, hzeros, hc, ?_, shortest_of_nearest hn hin hnearest hfewest⟩
  rw [shortest, if_neg (by omega), hshortest]

end Double
end OData
