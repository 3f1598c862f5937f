import Mathlib.Data.List.Induction
import OData.Json

/-! # Members in ascending order

Putting the entries of a list in ascending order loses none of them if their names are
distinct (`ofList_perm`), and what stands under a name does not depend on the order
(`ofList_eq_of_perm`).  So the normal form of a value answers every question for a
member with the normal form of the answer (`member?_normal`), and it is its own normal form
(`normal_normal`).
-/
namespace OData

namespace Entries
variable {α β : Type} {entries others : List (String × α)} {name : String} {value : α}

/-! ## Names and what stands under them -/

theorem ofList_concat (entries : List (String × α)) (e : String × α) :
    ofList (entries ++ [e]) = put e.1 e.2 (ofList entries) := by
  simp [ofList, List.foldl_append]

theorem get?_map (f : α → β) (name : String) (entries : List (String × α)) :
    get? name (entries.map fun e => (e.1, f e.2)) = (get? name entries).map f := by
  induction entries with
  | nil => rfl
  | cons e entries ih =>
    rw [List.map_cons, get?_cons, get?_cons, ih]
    split <;> rfl

/-- Of several entries with one name the last counts. -/
theorem get?_ofList (name : String) (entries : List (String × α)) :
    get? name (ofList entries) = get? name entries.reverse := by
  induction entries using List.reverseRecOn with
  | nil => rfl
  | append_singleton entries e ih =>
    rw [ofList_concat, get?_put _ _ _ _ (ascending_ofList entries), ih, List.reverse_append,
      List.reverse_singleton, List.singleton_append, get?_cons]

theorem get?_eq_some_iff (distinct : (entries.map Prod.fst).Nodup) :
    get? name entries = some value ↔ (name, value) ∈ entries := by
  induction entries with
  | nil => simp
  | cons e entries ih =>
    obtain ⟨n, v⟩ := e
    obtain ⟨hn, hrest⟩ := List.nodup_cons.mp distinct
    rw [get?_cons, List.mem_cons]
    by_cases heq : name = n
    · subst heq
      have hmem : (name, value) ∉ entries := fun h => hn (List.mem_map.mpr ⟨_, h, rfl⟩)
      simp [hmem, eq_comm]
    · simp [heq, ih hrest]

theorem get?_eq_none (h : name ∉ entries.map Prod.fst) : get? name entries = none := by
  rw [get?, List.lookup_eq_none_iff]
  intro e he
  have hne : name ≠ e.1 := fun heq => h (heq ▸ List.mem_map_of_mem he)
  simpa using hne

theorem get?_perm (perm : entries.Perm others) (distinct : (entries.map Prod.fst).Nodup)
    (name : String) : get? name entries = get? name others := by
  have hothers : (others.map Prod.fst).Nodup := (perm.map Prod.fst).nodup_iff.mp distinct
  refine Option.ext fun value => ?_
  rw [get?_eq_some_iff distinct, get?_eq_some_iff hothers, perm.mem_iff]

theorem nodup_of_ascending (h : Ascending entries) : (entries.map Prod.fst).Nodup := by
  refine List.pairwise_map.mpr (h.imp ?_)
  intro a b hab heq
  exact Std.lt_irrefl (heq ▸ hab)

/-- In a list in ascending order every entry counts. -/
theorem get?_reverse_ofList (name : String) (entries : List (String × α)) :
    get? name (ofList entries).reverse = get? name entries.reverse := by
  have hdistinct := nodup_of_ascending (ascending_ofList entries)
  rw [← get?_perm (List.reverse_perm _).symm hdistinct, get?_ofList]

theorem get?_append (entries others : List (String × α)) (name : String) :
    get? name (entries ++ others) = (get? name entries).or (get? name others) :=
  List.lookup_append

/-- Of the names that are kept each has the value that it had. -/
theorem get?_filter (p : String → Bool) (entries : List (String × α)) (name : String) :
    get? name (entries.filter fun e => p e.1) = if p name then get? name entries else none := by
  induction entries with
  | nil => simp
  | cons e entries ih =>
    obtain ⟨n, v⟩ := e
    rw [List.filter_cons, get?_cons]
    by_cases h : name = n
    · subst h
      cases hp : p name <;> simp [hp, ih, get?_cons]
    · cases hp : p n <;> simp [ih, get?_cons, h]

/-- Entries may be put in order before others are put in front of them. -/
theorem ofList_append_ofList (entries others : List (String × α)) :
    ofList (entries ++ ofList others) = ofList (entries ++ others) := by
  refine eq_of_get?_eq (ascending_ofList _) (ascending_ofList _) fun name => ?_
  rw [get?_ofList, get?_ofList, List.reverse_append, List.reverse_append, get?_append, get?_append,
    get?_reverse_ofList]

/-! ## Orders of entries -/

theorem put_perm (h : name ∉ entries.map Prod.fst) :
    (put name value entries).Perm ((name, value) :: entries) := by
  induction entries with
  | nil => exact List.Perm.refl _
  | cons e entries ih =>
    rw [List.map_cons, List.mem_cons, not_or] at h
    rw [put]
    split
    · exact List.Perm.refl _
    · rw [if_neg h.1]
      exact ((ih h.2).cons e).trans (List.Perm.swap _ _ _)

theorem ofList_perm (distinct : (entries.map Prod.fst).Nodup) :
    (ofList entries).Perm entries := by
  induction entries using List.reverseRecOn with
  | nil => exact List.Perm.refl _
  | append_singleton entries e ih =>
    rw [List.map_append, List.nodup_append] at distinct
    obtain ⟨hentries, -, hdisjoint⟩ := distinct
    have hsorted := ih hentries
    have hname : e.1 ∉ (ofList entries).map Prod.fst := by
      rw [(hsorted.map Prod.fst).mem_iff]
      intro hmem
      exact hdisjoint e.1 hmem e.1 (by simp) rfl
    rw [ofList_concat]
    exact (put_perm hname).trans ((hsorted.cons e).trans (List.perm_append_singleton e entries).symm)

theorem ofList_eq_self (h : Ascending entries) : ofList entries = entries := by
  refine eq_of_get?_eq (ascending_ofList entries) h fun name => ?_
  rw [get?_ofList, ← get?_perm (List.reverse_perm entries).symm (nodup_of_ascending h)]

theorem mem_of_mem_ofList {e : String × α} (h : e ∈ ofList entries) : e ∈ entries := by
  induction entries using List.reverseRecOn with
  | nil => exact h
  | append_singleton entries a ih =>
    rw [ofList_concat] at h
    rw [List.mem_append, List.mem_singleton]
    exact (mem_put h).symm.imp ih id

/-- Values may be changed before the entries are put in order or after. -/
theorem map_put (f : α → β) (name : String) (value : α) (entries : List (String × α)) :
    (put name value entries).map (fun e => (e.1, f e.2)) =
      put name (f value) (entries.map fun e => (e.1, f e.2)) := by
  induction entries with
  | nil => rfl
  | cons e entries ih =>
    rw [put, List.map_cons, put]
    split
    · rfl
    · split
      · rfl
      · rw [List.map_cons, ih]

theorem map_ofList (f : α → β) (entries : List (String × α)) :
    (ofList entries).map (fun e => (e.1, f e.2)) =
      ofList (entries.map fun e => (e.1, f e.2)) := by
  induction entries using List.reverseRecOn with
  | nil => rfl
  | append_singleton entries e ih =>
    rw [ofList_concat, map_put, ih, List.map_append, List.map_singleton, ofList_concat]

end Entries

/-- The order of entries with distinct names does not matter. -/
theorem NameMap.ofList_eq_of_perm {α : Type} {entries others : List (String × α)}
    (perm : entries.Perm others) (distinct : (entries.map Prod.fst).Nodup) :
    ofList entries = ofList others := by
  refine ext_get? fun name => ?_
  have hreverse : entries.reverse.Perm others.reverse :=
    (List.reverse_perm entries).trans (perm.trans (List.reverse_perm others).symm)
  have hdistinct : (entries.reverse.map Prod.fst).Nodup :=
    ((List.reverse_perm entries).map Prod.fst).nodup_iff.mpr distinct
  change Entries.get? name (Entries.ofList entries) = Entries.get? name (Entries.ofList others)
  rw [Entries.get?_ofList, Entries.get?_ofList, Entries.get?_perm hreverse hdistinct]

@[simp] theorem NameMap.ofList_entries {α : Type} (m : NameMap α) : ofList m.entries = m := by
  obtain ⟨entries, ascending⟩ := m
  simp [ofList, Entries.ofList_eq_self ascending]

/-! ## Normal forms -/

namespace Json

theorem normalItems_eq_map (items : List Json) : normalItems items = items.map normal := by
  induction items with
  | nil => rfl
  | cons j items ih => rw [normalItems, ih, List.map_cons]

theorem normalMembers_eq_map (members : List (String × Json)) :
    normalMembers members = members.map fun m => (m.1, normal m.2) := by
  induction members with
  | nil => rfl
  | cons m members ih => rw [normalMembers, ih, List.map_cons]

theorem normalMembers_ofList (members : List (String × Json)) :
    normalMembers (Entries.ofList members) = Entries.ofList (normalMembers members) := by
  rw [normalMembers_eq_map, normalMembers_eq_map, Entries.map_ofList]

mutual

/-- The normal form of a value is in normal form. -/
theorem normal_normal : ∀ j : Json, j.normal.normal = j.normal
  | array items => by
    rw [normal, normal, normalItems_normalItems items]
  | object members => by
    rw [normal, normal, normalMembers_ofList, normalMembers_normalMembers members,
      Entries.ofList_eq_self (Entries.ascending_ofList _)]
  | null => rfl
  | bool _ => rfl
  | int _ => rfl
  | double _ => rfl
  | text _ => rfl

theorem normalItems_normalItems : ∀ items : List Json,
    normalItems (normalItems items) = normalItems items
  | [] => rfl
  | j :: items => by
    rw [normalItems, normalItems, normal_normal j, normalItems_normalItems items]

theorem normalMembers_normalMembers : ∀ members : List (String × Json),
    normalMembers (normalMembers members) = normalMembers members
  | [] => rfl
  | (name, j) :: members => by
    rw [normalMembers, normalMembers, normal_normal j, normalMembers_normalMembers members]

end

/-- A member of the normal form is the normal form of the member. -/
theorem member?_normal (j : Json) (name : String) :
    (normal j).member? name = (j.member? name).map normal := by
  cases j with
  | object members =>
    rw [normal, member?, Entries.get?_reverse_ofList, normalMembers_eq_map, ← List.map_reverse,
      Entries.get?_map, member?]
  | _ => rfl

end Json
end OData
