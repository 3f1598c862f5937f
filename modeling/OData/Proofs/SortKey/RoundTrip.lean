import OData.Proofs.Text.Casing
import OData.Proofs.Text.Cutting
import OData.SortKey

/-! # Sort keys read back

A direction stands behind the last space of a clause.  A property may have spaces of its own
and any words behind them, so a clause with a direction is told from one without by its last
word alone.  The text of a descending key always ends in a direction and is read back whatever
words the property has.  The text of an ascending key is its property, which must not end in a
direction itself (`Plain`).

White space at the ends of a clause and in front of its direction is of no account
(`ofText_directed`), and neither is the case of the direction's letters.
-/
namespace OData
open Text

namespace SortKey

/-! ## Directions -/

/-- The word of a direction. -/
def word (descending : Bool) : List Char :=
  if descending then ['d', 'e', 's', 'c'] else ['a', 's', 'c']

/-- The word of a direction in any letter case. -/
def IsDirection (descending : Bool) (s : List Char) : Prop := InAnyCase (word descending) s

instance (descending : Bool) (s : List Char) : Decidable (IsDirection descending s) :=
  inferInstanceAs (Decidable (InAnyCase _ _))

/-- A text ends in a space and a direction. -/
def EndsInDirection (s : List Char) : Prop :=
  ∃ front descending direction, IsDirection descending direction ∧ s = front ++ ' ' :: direction

variable {descending : Bool} {property front blanks direction : List Char}

theorem isLower_of_mem_word : ∀ d ∈ word descending, d.isLower = true := by
  cases descending <;> decide

theorem isDirection_iff : IsDirection descending direction ↔
    asciiLower direction = word descending :=
  (asciiLower_eq_iff isLower_of_mem_word).symm

theorem IsDirection.not_isBlank (h : IsDirection descending direction) :
    ∀ c ∈ direction, isBlank c = false := by
  have letters : ∀ d ∈ word descending, isBlank d = false ∧ isBlank d.toUpper = false := by
    cases descending <;> decide
  intro c hc
  have hmem : c.toLower ∈ word descending := by
    rw [← isDirection_iff.mp h]
    exact List.mem_map_of_mem hc
  rcases (toLower_eq_iff (isLower_of_mem_word _ hmem)).mp rfl with hsmall | hcapital
  · rw [hsmall]
    exact (letters _ hmem).1
  · rw [hcapital]
    exact (letters _ hmem).2

theorem IsDirection.ne_nil (h : IsDirection descending direction) : direction ≠ [] := by
  rintro rfl
  cases descending <;> cases h

theorem IsDirection.space_not_mem (h : IsDirection descending direction) : ' ' ∉ direction :=
  fun hmem => absurd (h.not_isBlank ' ' hmem) (by decide)

/-- Where the direction starts, if there is one, the last space shows. -/
theorem endsInDirection_iff {s : List Char} : EndsInDirection s ↔
    ∃ p ∈ cutLast? ' ' s, ∃ descending, IsDirection descending p.2 := by
  constructor
  · rintro ⟨front, descending, direction, h, rfl⟩
    exact ⟨(front, direction), cutLast?_joint h.space_not_mem, descending, h⟩
  · rintro ⟨⟨front, direction⟩, hcut, descending, h⟩
    exact ⟨front, descending, direction, h, eq_append_of_cutLast? hcut⟩

instance (s : List Char) : Decidable (EndsInDirection s) :=
  decidable_of_iff _ endsInDirection_iff.symm

/-! ## Clauses -/

/-- A clause with a direction behind its last space. -/
theorem ofText_eq_of_direction {text : String} (h : IsDirection descending direction)
    (hclause : trim text.toList = front ++ ' ' :: direction) :
    ofText text = ⟨String.ofList (trim front), descending⟩ := by
  have hword := isDirection_iff.mp h
  rw [ofText, hclause, cutLast?_joint h.space_not_mem]
  cases descending with
  | true => simp [hword, word, descendingBy]
  | false => simp [hword, word, ascendingBy]

/-- A clause without a direction is a property as a whole. -/
theorem ofText_eq_of_not_endsInDirection {text : String}
    (h : ¬ EndsInDirection (trim text.toList)) :
    ofText text = ⟨String.ofList (trim text.toList), false⟩ := by
  rw [ofText]
  split
  · next front direction hcut =>
    have hword : ∀ descending, asciiLower direction ≠ word descending := fun descending hword =>
      h (endsInDirection_iff.mpr ⟨_, hcut, descending, isDirection_iff.mpr hword⟩)
    have hdesc : asciiLower direction ≠ ['d', 'e', 's', 'c'] := hword true
    have hasc : asciiLower direction ≠ ['a', 's', 'c'] := hword false
    rw [if_neg hdesc, if_neg hasc]
    rfl
  · rfl

/-- A property, a space and a direction, with white space between and around them. -/
theorem ofText_directed {before after : List Char} (hne : property ≠ [])
    (hproperty : Trimmed property) (h : IsDirection descending direction)
    (hbefore : ∀ c ∈ before, isBlank c = true) (hblanks : ∀ c ∈ blanks, isBlank c = true)
    (hafter : ∀ c ∈ after, isBlank c = true) :
    ofText (String.ofList (before ++ ((property ++ blanks) ++ ' ' :: direction ++ after))) =
      ⟨String.ofList property, descending⟩ := by
  have hclause : Trimmed ((property ++ blanks) ++ ' ' :: direction) := by
    constructor
    · obtain ⟨c, s, rfl⟩ := List.exists_cons_of_ne_nil hne
      exact hproperty.1
    · intro c hc
      obtain ⟨d, direction, rfl⟩ := List.exists_cons_of_ne_nil h.ne_nil
      have hlast : c ∈ (d :: direction).getLast? := by simpa using hc
      exact h.not_isBlank c (List.mem_of_getLast? hlast)
  have hfront : trim (property ++ blanks) = property := by
    simpa using trim_append (a := []) (by simp) hproperty hblanks
  rw [ofText_eq_of_direction h, hfront]
  rw [String.toList_ofList, trim_append hbefore hclause hafter]

/-! ## Texts of sort keys -/

/-- A sort key that its text gives back: its property has no white space at its ends and, if
the key is ascending, no direction at its end. -/
structure Plain (k : SortKey) : Prop where
  nonempty : k.property.toList ≠ []
  trimmed : Trimmed k.property.toList
  ascending : k.descending = false → ¬ EndsInDirection k.property.toList

theorem ofText_toText {k : SortKey} (h : k.Plain) : ofText k.toText = k := by
  obtain ⟨property, descending⟩ := k
  cases descending with
  | false =>
    have htrim : trim property.toList = property.toList := trim_eq_self h.trimmed
    have hbare : ¬ EndsInDirection (trim property.toList) := by
      rw [htrim]
      exact h.ascending rfl
    calc ofText (toText ⟨property, false⟩)
      _ = ofText property := rfl
      _ = ⟨String.ofList (trim property.toList), false⟩ := ofText_eq_of_not_endsInDirection hbare
      _ = ⟨property, false⟩ := by rw [htrim, String.ofList_toList]
  | true =>
    have hdesc : IsDirection true ['d', 'e', 's', 'c'] := by decide
    have htext : toText ⟨property, true⟩ =
        String.ofList ([] ++ ((property.toList ++ []) ++ ' ' :: ['d', 'e', 's', 'c'] ++ [])) := by
      simp [toText, String.ofList_append]
    rw [htext, ofText_directed h.nonempty h.trimmed hdesc (by simp) (by simp) (by simp),
      String.ofList_toList]

/-- **Sort keys survive their texts.**  A plain key is read back from its own text.  A property
without white space, at least one space and a direction in any letter case are read as that
property and that direction, whatever white space is around them. -/
theorem ofText_toText_and_clause :
    (∀ k : SortKey, k.Plain → ofText k.toText = k) ∧
    ∀ (before property direction after : List Char) (spaces : Nat) (descending : Bool),
      property ≠ [] → (∀ c ∈ property, isBlank c = false) →
      (∀ c ∈ before, isBlank c = true) → (∀ c ∈ after, isBlank c = true) →
      1 ≤ spaces → IsDirection descending direction →
      ofText (String.ofList
        (before ++ property ++ List.replicate spaces ' ' ++ direction ++ after)) =
        ⟨String.ofList property, descending⟩ := by
  refine ⟨fun k => ofText_toText, ?_⟩
  intro before property direction after spaces descending hne hsolid hbefore hafter hspaces h
  -- The last of the spaces is the one in front of the direction.
  obtain ⟨n, rfl⟩ : ∃ n, spaces = n + 1 := ⟨spaces - 1, by omega⟩
  have hblanks : ∀ c ∈ List.replicate n ' ', isBlank c = true := fun c hc => by
    rw [List.eq_of_mem_replicate hc, isBlank_space]
  have htext : before ++ property ++ List.replicate (n + 1) ' ' ++ direction ++ after =
      before ++ ((property ++ List.replicate n ' ') ++ ' ' :: direction ++ after) := by
    simp [List.replicate_succ']
  rw [htext]
  exact ofText_directed hne (trimmed_of_solid hsolid) h hbefore hblanks hafter

/-- A property with a space in it and one that looks like a direction, and a clause with white
space at every place. -/
theorem ofText_toText_and_clause_spaced :
    (Plain ⟨"Unit price", false⟩ ∧ ofText (toText ⟨"Unit price", false⟩) = ⟨"Unit price", false⟩) ∧
    (Plain ⟨"Price asc", true⟩ ∧ ofText (toText ⟨"Price asc", true⟩) = ⟨"Price asc", true⟩) ∧
    ofText "\t Name   DeSc\n" = ⟨"Name", true⟩ := by
  have unitPrice : Plain ⟨"Unit price", false⟩ := ⟨by decide, by decide, fun _ => by decide⟩
  have priceAsc : Plain ⟨"Price asc", true⟩ := ⟨by decide, by decide, nofun⟩
  refine ⟨⟨unitPrice, ofText_toText_and_clause.1 _ unitPrice⟩,
    ⟨priceAsc, ofText_toText_and_clause.1 _ priceAsc⟩, ?_⟩
  exact ofText_toText_and_clause.2 ['\t', ' '] "Name".toList "DeSc".toList ['\n'] 3 true
    (by decide) (by decide) (by decide) (by decide) (by decide) (by decide)

end SortKey
end OData
