import Mathlib.Data.List.Forall2
import OData.Text.Casing

/-! # Letters in lower case

What lower case leaves of an ASCII letter and of a text.  A text is a word in any letter case
if its lower case is that word (`asciiLower_eq_iff`).
-/
namespace OData
namespace Text

theorem val_toLower (c : Char) :
    c.toLower.val = if 65 ≤ c.val ∧ c.val ≤ 90 then c.val + 32 else c.val := by
  delta Char.toLower
  split <;> grind

theorem val_toUpper (c : Char) :
    c.toUpper.val = if 97 ≤ c.val ∧ c.val ≤ 122 then c.val - 32 else c.val := by
  delta Char.toUpper
  split <;> grind

theorem toLower_toLower (c : Char) : c.toLower.toLower = c.toLower := by
  rw [Char.ext_iff, val_toLower, val_toLower]
  split <;> grind

/-- The characters whose lower case is a small letter are the letter and its capital form. -/
theorem toLower_eq_iff {c d : Char} (hd : d.isLower = true) :
    c.toLower = d ↔ c = d ∨ c = d.toUpper := by
  have hsmall : 97 ≤ d.val ∧ d.val ≤ 122 := by
    delta Char.isLower at hd
    simpa using hd
  rw [Char.ext_iff, Char.ext_iff, Char.ext_iff, val_toLower, val_toUpper, if_pos hsmall]
  split <;> grind

/-- A word, each letter of which is a small or a capital one. -/
def InAnyCase (word s : List Char) : Prop :=
  List.Forall₂ (fun c d => c = d ∨ c = d.toUpper) s word

instance (word s : List Char) : Decidable (InAnyCase word s) :=
  inferInstanceAs (Decidable (List.Forall₂ _ _ _))

theorem asciiLower_eq_iff {word s : List Char} (small : ∀ d ∈ word, d.isLower = true) :
    asciiLower s = word ↔ InAnyCase word s := by
  rw [asciiLower, ← List.forall₂_eq_eq_eq, List.forall₂_map_left_iff]
  induction word generalizing s with
  | nil => simp [InAnyCase]
  | cons d word ih =>
    have hrest := fun s => ih (s := s) fun x hx => small x (List.mem_cons_of_mem _ hx)
    cases s with
    | nil => simp [InAnyCase]
    | cons c s =>
      rw [InAnyCase, List.forall₂_cons, List.forall₂_cons, hrest,
        toLower_eq_iff (small d (List.mem_cons_self ..))]
      rfl

end Text

theorem lowercased_lowercased (s : String) : lowercased (lowercased s) = lowercased s := by
  rw [lowercased, lowercased, String.toList_ofList, Text.asciiLower, Text.asciiLower,
    List.map_map]
  exact congrArg String.ofList (List.map_congr_left fun c _ => Text.toLower_toLower c)

theorem sameIgnoringCase_iff {a b : String} :
    sameIgnoringCase a b = true ↔ lowercased a = lowercased b := by
  rw [sameIgnoringCase, beq_iff_eq, lowercased, lowercased, String.ofList_inj]

end OData
