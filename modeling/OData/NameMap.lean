/-! # Maps from names

A finite map from names to values, kept as the list of its entries in ascending
order of names.  The order is the order of code points.  A map is determined by
its look-ups (`NameMap.ext_get?`).
-/
namespace OData

/-! ## Lists of named values -/

namespace Entries

variable {α : Type}

/-- Each name stands before a greater one. -/
def Ascending (entries : List (String × α)) : Prop :=
  entries.Pairwise fun a b => a.1 < b.1

/-- Puts `value` under `name`, in place of the value that stood there. -/
def put (name : String) (value : α) : List (String × α) → List (String × α)
  | [] => [(name, value)]
  | (n, v) :: rest =>
    if name < n then (name, value) :: (n, v) :: rest
    else if name = n then (name, value) :: rest
    else (n, v) :: put name value rest

/-- The value under `name`. -/
def get? (name : String) (entries : List (String × α)) : Option α :=
  entries.lookup name

/-- The entries of a list in ascending order; of several entries with one name
the last counts. -/
def ofList (entries : List (String × α)) : List (String × α) :=
  entries.foldl (fun m e => put e.1 e.2 m) []

@[simp] theorem get?_nil (name : String) : get? name ([] : List (String × α)) = none := rfl

theorem get?_cons (name n : String) (v : α) (rest : List (String × α)) :
    get? name ((n, v) :: rest) = if name = n then some v else get? name rest := by
  unfold get?
  rw [List.lookup_cons]
  by_cases h : name = n
  · simp [h]
  · simp [h, beq_eq_false_iff_ne.mpr h]

theorem mem_put {name : String} {value : α} {entries : List (String × α)} {e : String × α}
    (h : e ∈ put name value entries) : e = (name, value) ∨ e ∈ entries := by
  induction entries with
  | nil => exact Or.inl (List.mem_singleton.mp h)
  | cons a rest ih =>
    unfold put at h
    split at h
    · rcases List.mem_cons.mp h with h | h
      · exact Or.inl h
      · exact Or.inr h
    · split at h
      · rcases List.mem_cons.mp h with h | h
        · exact Or.inl h
        · exact Or.inr (List.mem_cons_of_mem _ h)
      · rcases List.mem_cons.mp h with h | h
        · exact Or.inr (h ▸ List.mem_cons_self ..)
        · exact (ih h).imp id (List.mem_cons_of_mem _)

theorem ascending_put {name : String} {value : α} {entries : List (String × α)}
    (h : Ascending entries) : Ascending (put name value entries) := by
  induction entries with
  | nil => exact List.pairwise_singleton _ _
  | cons a rest ih =>
    obtain ⟨hall, hrest⟩ := List.pairwise_cons.mp h
    unfold put
    split
    · next hlt =>
      refine List.pairwise_cons.mpr ⟨fun e he => ?_, h⟩
      rcases List.mem_cons.mp he with he | he
      · rw [he]; exact hlt
      · exact Std.lt_trans hlt (hall e he)
    · next hnlt =>
      split
      · next heq => exact List.pairwise_cons.mpr ⟨fun e he => heq ▸ hall e he, hrest⟩
      · next hne =>
        refine List.pairwise_cons.mpr ⟨fun e he => ?_, ih hrest⟩
        rcases mem_put he with he | he
        · rw [he]
          rcases Std.lt_trichotomy a.1 name with h1 | h1 | h1
          · exact h1
          · exact absurd h1.symm hne
          · exact absurd h1 hnlt
        · exact hall e he

theorem get?_put (name : String) (value : α) (entries : List (String × α)) (other : String)
    (h : Ascending entries) :
    get? other (put name value entries) = if other = name then some value
      else get? other entries := by
  induction entries with
  | nil => rw [put, get?_cons]
  | cons a rest ih =>
    obtain ⟨hall, hrest⟩ := List.pairwise_cons.mp h
    unfold put
    split
    · rw [get?_cons]
    · split
      · next heq =>
        rw [get?_cons, get?_cons]
        by_cases ho : other = name
        · simp [ho]
        · simp [ho, heq ▸ ho]
      · next hne =>
        rw [get?_cons, get?_cons, ih hrest]
        by_cases ho : other = a.1
        · simp [ho, Ne.symm hne]
        · simp [ho]

/-- The first name of an ascending list is its least one. -/
theorem get?_eq_none_of_lt {name : String} {entries : List (String × α)}
    (h : ∀ e ∈ entries, name < e.1) : get? name entries = none := by
  induction entries with
  | nil => rfl
  | cons a rest ih =>
    have ha := h a (List.mem_cons_self ..)
    rw [get?_cons, if_neg, ih fun e he => h e (List.mem_cons_of_mem _ he)]
    intro he
    exact Std.lt_irrefl (he ▸ ha)

theorem eq_of_get?_eq {entries others : List (String × α)} (h : Ascending entries)
    (h' : Ascending others) (hg : ∀ name, get? name entries = get? name others) :
    entries = others := by
  induction entries generalizing others with
  | nil =>
    cases others with
    | nil => rfl
    | cons b rest' =>
      have := hg b.1
      rw [get?_cons, if_pos rfl] at this
      cases this
  | cons a rest ih =>
    obtain ⟨ha, hrest⟩ := List.pairwise_cons.mp h
    cases others with
    | nil =>
      have := hg a.1
      rw [get?_cons, if_pos rfl] at this
      cases this
    | cons b rest' =>
      obtain ⟨hb, hrest'⟩ := List.pairwise_cons.mp h'
      -- The least names agree: each is bound in the other list.
      have hab : a.1 = b.1 := by
        rcases Std.lt_trichotomy a.1 b.1 with hlt | heq | hlt
        · have h1 := hg a.1
          rw [get?_cons, if_pos rfl, get?_eq_none_of_lt] at h1
          · cases h1
          · intro e he
            rcases List.mem_cons.mp he with he | he
            · rw [he]; exact hlt
            · exact Std.lt_trans hlt (hb e he)
        · exact heq
        · have h1 := hg b.1
          rw [get?_cons b.1 b.1, if_pos rfl, get?_eq_none_of_lt] at h1
          · cases h1
          · intro e he
            rcases List.mem_cons.mp he with he | he
            · rw [he]; exact hlt
            · exact Std.lt_trans hlt (ha e he)
      have hv : a.2 = b.2 := by
        have h1 := hg a.1
        rw [get?_cons, if_pos rfl, get?_cons, if_pos hab] at h1
        exact Option.some.inj h1
      have hr : rest = rest' := by
        refine ih hrest hrest' fun name => ?_
        by_cases hn : name = a.1
        · rw [hn, get?_eq_none_of_lt ha, get?_eq_none_of_lt fun e he => hab ▸ hb e he]
        · have h1 := hg name
          rwa [get?_cons, if_neg hn, get?_cons, if_neg (hab ▸ hn)] at h1
      rw [hr, show a = b from Prod.ext hab hv]

theorem ascending_ofList (entries : List (String × α)) : Ascending (ofList entries) := by
  have go : ∀ (l m : List (String × α)), Ascending m →
      Ascending (l.foldl (fun m e => put e.1 e.2 m) m) := by
    intro l
    induction l with
    | nil => exact fun _ h => h
    | cons e l ih => exact fun m h => ih _ (ascending_put h)
  exact go entries [] List.Pairwise.nil

end Entries

/-- A finite map from names to values. -/
structure NameMap (α : Type) where
  entries : List (String × α)
  ascending : Entries.Ascending entries

namespace NameMap

variable {α : Type}

/-- The map without entries. -/
def empty : NameMap α := ⟨[], List.Pairwise.nil⟩

instance : EmptyCollection (NameMap α) := ⟨empty⟩
instance : Inhabited (NameMap α) := ⟨empty⟩

instance [DecidableEq α] : DecidableEq (NameMap α) := fun m n =>
  decidable_of_iff (m.entries = n.entries) <| by cases m; cases n; simp

/-- Puts `value` under `name`, in place of the value that stood there. -/
def insert (m : NameMap α) (name : String) (value : α) : NameMap α :=
  ⟨Entries.put name value m.entries, Entries.ascending_put m.ascending⟩

/-- The value under `name`. -/
def get? (m : NameMap α) (name : String) : Option α := Entries.get? name m.entries

/-- The map of a list of entries; of several with one name the last counts. -/
def ofList (entries : List (String × α)) : NameMap α :=
  ⟨Entries.ofList entries, Entries.ascending_ofList entries⟩

/-- The map `m` with the entries of `n` put over it. -/
def union (m n : NameMap α) : NameMap α := n.entries.foldl (fun m e => m.insert e.1 e.2) m

@[simp] theorem get?_empty (name : String) : (empty : NameMap α).get? name = none := rfl

@[simp] theorem get?_insert (m : NameMap α) (name : String) (value : α) (other : String) :
    (m.insert name value).get? other = if other = name then some value else m.get? other :=
  Entries.get?_put name value m.entries other m.ascending

/-- Maps with the same look-ups are the same map. -/
theorem ext_get? {m n : NameMap α} (h : ∀ name, m.get? name = n.get? name) : m = n := by
  have := Entries.eq_of_get?_eq m.ascending n.ascending h
  cases m; cases n
  simpa using this

end NameMap
end OData
