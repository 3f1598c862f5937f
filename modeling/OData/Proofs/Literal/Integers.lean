import Mathlib.Data.List.Forall2
import OData.Literal
import OData.Proofs.Double.Shortest

/-! # JSON integers as literals

A JSON integer has 64 bits, with a sign or without one; the integer of a literal has 64 bits
with a sign.  So every integer of the narrower range is written in its own digits, at any depth
of arrays, and one beyond it becomes a double and is written as the shortest integer that
stands for that (`shows_integers`).  Such an integer keeps its digits only if it is the
shortest one itself, and the first one beyond the range is not (`firstUnsigned_rounded`).
-/
namespace OData
namespace Literal

/-- A JSON value of integers of 64 bits, with a sign or without one, and of arrays of such
values. -/
inductive Integral : Json → Prop
  | int {n} (least : Json.leastInt64 ≤ n) (greatest : n ≤ Json.greatestNat64) : Integral (.int n)
  | array {items} (h : ∀ j ∈ items, Integral j) : Integral (.array items)

/-- The text shows the integers of a JSON value, each of which is written as `numeral` says.
An array stands in parentheses, with commas between the texts of its items. -/
inductive Shows (numeral : Int → String → Prop) : Json → String → Prop
  | int {n s} (h : numeral n s) : Shows numeral (.int n) s
  | array {items texts} (h : List.Forall₂ (Shows numeral) items texts) :
      Shows numeral (.array items) ("(" ++ String.intercalate "," texts ++ ")")

/-- An integer in its own digits. -/
def InDigits (n : Int) (s : String) : Prop := s = toString n

/-- An integer in its own digits if 64 bits with a sign can hold it, and else in those of the
shortest integer for the double it is rounded to, which ends in three zeros or more. -/
structure Numeral (n : Int) (s : String) : Prop where
  inDigits : n ≤ Json.greatestInt64 → InDigits n s
  rounded : Json.greatestInt64 < n →
    ∃ zeros x : Nat, 3 ≤ zeros ∧ Double.Shortest (Double.ofInt n) zeros x ∧ InDigits x s

variable {j : Json} {n : Int}

theorem writeInt_eq (n : Int) : writeInt n = toString n := by
  cases n with
  | ofNat k => rfl
  | negSucc k =>
    rw [writeInt, Json.writeInt, if_pos (Int.negSucc_lt_zero k), String.ofList_append]
    rfl

/-- A double that is written with zeros at its end is written as an integer. -/
theorem write_shortest {m e c zeros : Nat} (hc : 0 < c)
    (h : Double.shortest .up m e = ⟨c, zeros⟩) :
    numberLayout.write (.finite false m e) = toString (c * 10 ^ zeros) := by
  have htie : numberLayout.tie = .up := rfl
  have hpositional : numberLayout.positional (Decimal.scientificExponent ⟨c, zeros⟩) = true := rfl
  have hdigits : numberLayout.writePositional ⟨c, zeros⟩ = Nat.toDigits 10 (c * 10 ^ zeros) := by
    have hpoint : numberLayout.keepsPoint = false := rfl
    have hzeros : (0 : Int) ≤ zeros := Int.natCast_nonneg zeros
    rw [Double.Layout.writePositional, if_pos hzeros, if_neg hc.ne', hpoint,
      Text.toDigits_mul_pow hc]
    simp [Decimal.digits]
  rw [Double.Layout.write, htie, h]
  simp only [hpositional, if_true, hdigits]
  rfl

theorem numeral_render (least : Json.leastInt64 ≤ n) (greatest : n ≤ Json.greatestNat64) :
    Numeral n (ofJson (.int n)).render := by
  rw [ofJson]
  split
  · next hsigned =>
    rw [render, writeInt_eq]
    exact ⟨fun _ => rfl, fun hbeyond => absurd hbeyond (by omega)⟩
  · next hunsigned =>
    refine ⟨fun hle => absurd ⟨least, hle⟩ hunsigned, fun hbeyond => ?_⟩
    rw [Json.greatestInt64] at hbeyond
    rw [Json.greatestNat64] at greatest
    obtain ⟨k, rfl⟩ : ∃ k : Nat, n = k := ⟨n.toNat, by omega⟩
    obtain ⟨m, e, c, zeros, hofInt, hzeros, hc, hshortest, hk⟩ :=
      Double.exists_shortest_ofInt (n := k) (by omega) (by omega)
    refine ⟨zeros, c * 10 ^ zeros, hzeros, hk, ?_⟩
    rw [render, hofInt, write_shortest hc hshortest]
    rfl

/-- **JSON integers as literals.**  The text of JSON integers in arrays of any depth has the
digits of each integer that 64 bits with a sign can hold, and of every other the shortest
integer that stands for its double; arrays keep their items in order. -/
theorem shows_integers (h : Integral j) : Shows Numeral j (ofJson j).render := by
  induction h with
  | int least greatest => exact .int (numeral_render least greatest)
  | @array items _ ih =>
    rw [ofJson, render, renderAll_eq_map, ofJsonItems_eq_map, List.map_map]
    exact .array (List.forall₂_map_right_iff.mpr (List.forall₂_same.mpr ih))

/-- The least integer, the two greatest ones and an empty array, in arrays. -/
def integerLimits : Json :=
  .array [.int (-9223372036854775808),
    .array [.int 9223372036854775807, .int 18446744073709551615], .array []]

/-- Of the limits only the greatest one is written otherwise. -/
theorem shows_integers_limits : Integral integerLimits ∧
    (ofJson integerLimits).render =
      "(-9223372036854775808,(9223372036854775807,18446744073709552000),())" ∧
    Shows Numeral integerLimits (ofJson integerLimits).render := by
  have integral : Integral integerLimits := by
    refine .array ?_
    simp only [List.forall_mem_cons]
    refine ⟨.int (by decide) (by decide), .array ?_, .array (List.forall_mem_nil _),
      List.forall_mem_nil _⟩
    simp only [List.forall_mem_cons]
    exact ⟨.int (by decide) (by decide), .int (by decide) (by decide), List.forall_mem_nil _⟩
  exact ⟨integral, by decide +kernel, shows_integers integral⟩

/-- The first integer that 64 bits with a sign cannot hold is not written in its digits. -/
theorem firstUnsigned_rounded : Integral (.int 9223372036854775808) ∧
    (ofJson (.int 9223372036854775808)).render = "9223372036854776000" ∧
    ¬ Shows InDigits (.int 9223372036854775808) (ofJson (.int 9223372036854775808)).render := by
  have text : (ofJson (.int 9223372036854775808)).render = "9223372036854776000" := by
    decide +kernel
  have digits : "9223372036854776000" ≠ toString (9223372036854775808 : Int) := by decide +kernel
  refine ⟨.int (by decide) (by decide), text, ?_⟩
  rw [text]
  rintro ⟨h⟩
  exact digits h

end Literal
end OData
