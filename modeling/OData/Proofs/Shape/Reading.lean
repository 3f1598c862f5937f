import Mathlib.Data.List.Forall2
import Mathlib.Data.List.Nodup
import OData.OpenEntity
import OData.Proofs.Json.Normal

/-! # Reading by a shape again

What a shape has read from a value it reads again as what it is (`Keeps`), also when the
members of the value's objects were put in order meanwhile (`keeps_of_read?`).  Reading
thus gives values in a form of their own: integers are doubles where a number is expected,
a missing optional member is null, and a record has its members as declared.

Declared members are looked for by name, so all depends on the names in an object being
distinct.  An open entity has declared members and others in one object; `Sound` says
which entities can be told apart into both again, in whatever order the members are
written (`read?_of_written`).
-/
namespace OData

/-- Results of a map that may fail stand in the order of the arguments. -/
theorem mapM_eq_some_iff {α β : Type} {f : α → Option β} {as : List α} {bs : List β} :
    as.mapM f = some bs ↔ List.Forall₂ (fun a b => f a = some b) as bs := by
  induction as generalizing bs with
  | nil => cases bs <;> simp
  | cons a as ih =>
    rw [List.mapM_cons]
    cases ha : f a with
    | none => cases bs <;> simp [ha]
    | some b =>
      cases has : as.mapM f with
      | none => cases bs <;> simp [ha, ← ih, has]
      | some bs' => cases bs <;> simp [ha, ← ih, has]

/-- What holds of each result that a map can give holds of those it gives. -/
theorem forall_of_mapM {α β : Type} {f : α → Option β} {as : List α} {bs : List β} {P : β → Prop}
    (h : as.mapM f = some bs) (results : ∀ a ∈ as, ∀ b, f a = some b → P b) : ∀ b ∈ bs, P b := by
  rw [mapM_eq_some_iff] at h
  induction h with
  | nil => simp
  | cons hab _ ih =>
    intro b hb
    rcases List.mem_cons.mp hb with rfl | hb
    · exact results _ (List.mem_cons_self ..) _ hab
    · exact ih (fun a ha => results a (List.mem_cons_of_mem _ ha)) b hb

namespace Shape

variable {shape : Shape} {fields : List (String × Shape)} {members declared : List (String × Json)}
variable {name : String} {j v : Json}

/-! ## Values of a name -/

theorem valuesOf_eq_nil (h : name ∉ members.map Prod.fst) : valuesOf name members = [] := by
  rw [valuesOf, List.map_eq_nil_iff, List.filter_eq_nil_iff]
  intro m hm heq
  exact h (List.mem_map.mpr ⟨m, hm, by simpa using heq⟩)

theorem valuesOf_eq_singleton (distinct : (members.map Prod.fst).Nodup)
    (h : (name, j) ∈ members) : valuesOf name members = [j] := by
  induction members with
  | nil => cases h
  | cons m members ih =>
    obtain ⟨hm, hrest⟩ := List.nodup_cons.mp distinct
    rcases List.mem_cons.mp h with rfl | h
    · have hnone := valuesOf_eq_nil hm
      simp only [valuesOf, List.map_eq_nil_iff] at hnone
      simp [valuesOf, hnone]
    · have hne : m.1 ≠ name := fun heq => hm (heq ▸ List.mem_map_of_mem (f := Prod.fst) h)
      rw [← ih hrest h]
      simp [valuesOf, hne]

/-! ## Declared members -/

/-- The shape reads the value as what it is, also from its normal form. -/
structure Keeps (shape : Shape) (v : Json) : Prop where
  same : shape.read? v = some v
  normal : shape.read? v.normal = some v

/-- The declared members, each with a value that its shape keeps. -/
def KeepsAll (fields : List (String × Shape)) (declared : List (String × Json)) : Prop :=
  List.Forall₂ (fun f d => d.1 = f.1 ∧ f.2.Keeps d.2) fields declared

/-- The value that an object's members give for a declared one. -/
def field? (members : List (String × Json)) (f : String × Shape) : Option Json :=
  match valuesOf f.1 members with
  | [] => if f.2.mayBeMissing then some .null else none
  | [j] => f.2.read? j
  | _ => none

theorem readFields?_cons (f : String × Shape) (fields : List (String × Shape))
    (members : List (String × Json)) :
    readFields? (f :: fields) members =
      (field? members f).bind fun j => (readFields? fields members).map ((f.1, j) :: ·) := by
  have hrest : ∀ j, (do return (f.1, j) :: (← readFields? fields members)) =
      (readFields? fields members).map ((f.1, j) :: ·) := by
    intro j
    cases readFields? fields members <;> rfl
  rw [readFields?, field?]
  rcases valuesOf f.1 members with _ | ⟨j, _ | ⟨j', js⟩⟩
  · cases f.2.mayBeMissing with
    | false => rfl
    | true => exact hrest .null
  · exact congrArg (Option.bind _) (funext hrest)
  · rfl

theorem readFields?_eq_some_iff :
    readFields? fields members = some declared ↔
      List.Forall₂ (fun f d => d.1 = f.1 ∧ field? members f = some d.2) fields declared := by
  induction fields generalizing declared with
  | nil => cases declared <;> simp [readFields?]
  | cons f fields ih =>
    rw [readFields?_cons, Option.bind_eq_some_iff, List.forall₂_cons_left_iff]
    constructor
    · rintro ⟨j, hj, h⟩
      obtain ⟨rest, hrest, rfl⟩ := Option.map_eq_some_iff.mp h
      exact ⟨_, _, ⟨rfl, hj⟩, ih.mp hrest, rfl⟩
    · rintro ⟨⟨name, j⟩, rest, ⟨rfl, hj⟩, hrest, rfl⟩
      exact ⟨j, hj, Option.map_eq_some_iff.mpr ⟨rest, ih.mpr hrest, rfl⟩⟩

theorem readInOrder?_eq_some {js : List Json} (h : readInOrder? fields js = some declared)
    (length : js.length = fields.length) :
    List.Forall₂ (fun f d => d.1 = f.1 ∧ ∃ j, f.2.read? j = some d.2) fields declared := by
  induction fields generalizing js declared with
  | nil =>
    cases js <;> cases h <;> exact .nil
  | cons f fields ih =>
    cases js with
    | nil => cases length
    | cons j js =>
      obtain ⟨v, hv, h⟩ := Option.bind_eq_some_iff.mp h
      obtain ⟨rest, hrest, heq⟩ := Option.bind_eq_some_iff.mp h
      cases heq
      exact .cons ⟨rfl, j, hv⟩ (ih hrest (Nat.succ.inj length))

/-- Whatever the shape reads, it reads again. -/
def Settles (shape : Shape) : Prop := ∀ j v, shape.read? j = some v → shape.Keeps v

theorem keeps_of_field? {f : String × Shape} (settles : f.2.Settles)
    (h : field? members f = some v) : f.2.Keeps v := by
  rw [field?] at h
  split at h
  · -- A member that may be missing is null then, and null is read as null.
    split at h
    · next hmissing =>
      cases h
      obtain ⟨name, shape⟩ := f
      cases shape with
      | optional inner => exact ⟨rfl, rfl⟩
      | _ => cases hmissing
    · cases h
  · exact settles _ _ h
  · cases h

theorem keepsAll_of_forall₂ {P : String × Shape → Json → Prop}
    (h : List.Forall₂ (fun f d => d.1 = f.1 ∧ P f d.2) fields declared)
    (keeps : ∀ f ∈ fields, ∀ v, P f v → f.2.Keeps v) : KeepsAll fields declared := by
  induction h with
  | nil => exact .nil
  | cons hd _ ih =>
    exact .cons ⟨hd.1, keeps _ (List.mem_cons_self ..) _ hd.2⟩
      (ih fun f hf => keeps f (List.mem_cons_of_mem _ hf))

theorem keepsAll_of_readFields? (settles : ∀ f ∈ fields, f.2.Settles)
    (h : readFields? fields members = some declared) : KeepsAll fields declared :=
  keepsAll_of_forall₂ (readFields?_eq_some_iff.mp h) fun f hf _ hv =>
    keeps_of_field? (settles f hf) hv

theorem keepsAll_of_readInOrder? {js : List Json} (settles : ∀ f ∈ fields, f.2.Settles)
    (h : readInOrder? fields js = some declared) (length : js.length = fields.length) :
    KeepsAll fields declared := by
  refine keepsAll_of_forall₂ (P := fun f v => ∃ j, f.2.read? j = some v)
    (readInOrder?_eq_some h length) ?_
  rintro f hf v ⟨j, hj⟩
  exact settles f hf j v hj

theorem KeepsAll.names (h : KeepsAll fields declared) :
    declared.map Prod.fst = fields.map Prod.fst := by
  induction h with
  | nil => rfl
  | cons hd _ ih => rw [List.map_cons, List.map_cons, hd.1, ih]

/-- Declared members are read from an object in which each stands under its name, as it is
or in normal form. -/
theorem KeepsAll.readFields? (h : KeepsAll fields declared)
    (distinct : (members.map Prod.fst).Nodup)
    (mem : ∀ d ∈ declared, d ∈ members ∨ (d.1, d.2.normal) ∈ members) :
    readFields? fields members = some declared := by
  rw [readFields?_eq_some_iff]
  induction h with
  | nil => exact .nil
  | @cons f d _ _ hd _ ih =>
    refine .cons ⟨hd.1, ?_⟩ (ih fun d hd => mem d (List.mem_cons_of_mem _ hd))
    rcases mem d (List.mem_cons_self ..) with hmem | hmem
    · rw [field?, ← hd.1, valuesOf_eq_singleton distinct hmem]
      exact hd.2.same
    · rw [field?, ← hd.1, valuesOf_eq_singleton distinct hmem]
      exact hd.2.normal

end Shape

/-! ## Declared members and others -/

namespace OpenEntity

variable {fields : List (String × Shape)} {members : List (String × Json)} {e : OpenEntity}
variable {j : Json}

/-- An entity whose members can be told apart again: those that `fields` declare, and
others under other names. -/
structure Sound (fields : List (String × Shape)) (e : OpenEntity) : Prop where
  names : (fields.map Prod.fst).Nodup
  keeps : Shape.KeepsAll fields e.declared
  apart : ∀ p ∈ e.extra.entries, p.1 ∉ fields.map Prod.fst
  normal : ∀ p ∈ e.extra.entries, p.2.normal = p.2

theorem Sound.nodup_members (h : Sound fields e) : (e.members.map Prod.fst).Nodup := by
  rw [members, List.map_append, List.nodup_append, h.keeps.names]
  refine ⟨h.names, Entries.nodup_of_ascending e.extra.ascending, ?_⟩
  rintro n hdeclared m hextra rfl
  obtain ⟨p, hp, rfl⟩ := List.mem_map.mp hextra
  exact h.apart p hp hdeclared

theorem map_fst_normalMembers (members : List (String × Json)) :
    (Json.normalMembers members).map Prod.fst = members.map Prod.fst := by
  rw [Json.normalMembers_eq_map, List.map_map]
  rfl

/-- The members of an entity in some order, as they are or in normal form. -/
def Written (e : OpenEntity) (members : List (String × Json)) : Prop :=
  members.Perm e.members ∨ members.Perm (Json.normalMembers e.members)

theorem Sound.nodup_of_written (h : Sound fields e) (written : e.Written members) :
    (members.map Prod.fst).Nodup := by
  rcases written with perm | perm
  · exact (perm.map Prod.fst).nodup_iff.mpr h.nodup_members
  · have hnames := map_fst_normalMembers e.members
    exact (perm.map Prod.fst).nodup_iff.mpr (hnames ▸ h.nodup_members)

theorem undeclared_perm {others : List (String × Json)} (perm : members.Perm others) :
    (Shape.undeclared fields members).Perm (Shape.undeclared fields others) := by
  rw [Shape.undeclared, Shape.undeclared, Json.normalMembers_eq_map, Json.normalMembers_eq_map]
  exact (perm.filter _).map _

theorem undeclared_normalMembers (fields : List (String × Shape))
    (members : List (String × Json)) :
    Shape.undeclared fields (Json.normalMembers members) = Shape.undeclared fields members := by
  have hfilter : (Json.normalMembers members).filter
        (fun m => !(fields.map Prod.fst).contains m.1) =
      Json.normalMembers (members.filter fun m => !(fields.map Prod.fst).contains m.1) := by
    rw [Json.normalMembers_eq_map, Json.normalMembers_eq_map, List.filter_map]
    rfl
  rw [Shape.undeclared, Shape.undeclared, hfilter, Json.normalMembers_normalMembers]

theorem Sound.undeclared_members (h : Sound fields e) :
    Shape.undeclared fields e.members = e.extra.entries := by
  have hdeclared : e.declared.filter (fun m => !(fields.map Prod.fst).contains m.1) = [] := by
    rw [List.filter_eq_nil_iff, ← h.keeps.names]
    intro d hd
    simpa using List.mem_map_of_mem (f := Prod.fst) hd
  have hextra : e.extra.entries.filter (fun m => !(fields.map Prod.fst).contains m.1) =
      e.extra.entries := by
    rw [List.filter_eq_self]
    intro p hp
    simpa using h.apart p hp
  have hnormal : Json.normalMembers e.extra.entries = e.extra.entries := by
    rw [Json.normalMembers_eq_map]
    refine (List.map_congr_left fun p hp => ?_).trans (List.map_id _)
    exact Prod.ext rfl (h.normal p hp)
  rw [Shape.undeclared, members, List.filter_append, hdeclared, hextra, List.nil_append, hnormal]

/-- What is not declared is the other members. -/
theorem Sound.undeclared_perm (h : Sound fields e) (written : e.Written members) :
    (Shape.undeclared fields members).Perm e.extra.entries := by
  rw [← h.undeclared_members]
  rcases written with perm | perm
  · exact OpenEntity.undeclared_perm perm
  · rw [← undeclared_normalMembers fields e.members]
    exact OpenEntity.undeclared_perm perm

/-- **An entity is read from its members**, in whatever order they are written. -/
theorem Sound.read?_of_written (h : Sound fields e) (written : e.Written members) :
    read? fields (.object members) = some e := by
  have hdeclared : Shape.readFields? fields members = some e.declared := by
    refine h.keeps.readFields? (h.nodup_of_written written) fun d hd => ?_
    have hd : d ∈ e.members := List.mem_append_left _ hd
    refine written.imp (fun perm => perm.mem_iff.mpr hd) fun perm => perm.mem_iff.mpr ?_
    rw [Json.normalMembers_eq_map]
    exact List.mem_map_of_mem (f := fun m => (m.1, m.2.normal)) hd
  have hextra : NameMap.ofList (Shape.undeclared fields members) = e.extra := by
    have perm := h.undeclared_perm written
    have hdistinct : ((Shape.undeclared fields members).map Prod.fst).Nodup :=
      (perm.map Prod.fst).nodup_iff.mpr (Entries.nodup_of_ascending e.extra.ascending)
    rw [NameMap.ofList_eq_of_perm perm hdistinct, NameMap.ofList_entries]
  change ((Shape.readFields? fields members).bind fun declared =>
    some ⟨declared, NameMap.ofList (Shape.undeclared fields members)⟩) = some e
  rw [hdeclared, hextra]
  rfl

/-! ### Written forms -/

theorem written_members (e : OpenEntity) : e.Written e.members := .inl (.refl _)

theorem Sound.written_ofList (h : Sound fields e) (written : e.Written members) :
    e.Written (Entries.ofList members) := by
  have perm := Entries.ofList_perm (h.nodup_of_written written)
  exact written.imp perm.trans perm.trans

theorem Written.normalMembers (written : e.Written members) :
    e.Written (Json.normalMembers members) := by
  refine .inr ?_
  rcases written with perm | perm
  · rw [Json.normalMembers_eq_map, Json.normalMembers_eq_map]
    exact perm.map _
  · rw [← Json.normalMembers_normalMembers e.members, Json.normalMembers_eq_map,
      Json.normalMembers_eq_map (Json.normalMembers e.members)]
    exact perm.map _

/-- The entity is read from its members as a value, and from the value's normal form. -/
theorem Sound.read?_normal (h : Sound fields e) (written : e.Written members) :
    read? fields (Json.object members).normal = some e :=
  h.read?_of_written (h.written_ofList written.normalMembers)

theorem Sound.read?_toJson (h : Sound fields e) : read? fields e.toJson = some e :=
  h.read?_of_written (h.written_ofList e.written_members)

theorem Sound.read?_toJson_normal (h : Sound fields e) : read? fields e.toJson.normal = some e :=
  h.read?_normal (h.written_ofList e.written_members)

theorem exists_of_mem_undeclared {p : String × Json} (h : p ∈ Shape.undeclared fields members) :
    ∃ m ∈ members, m.1 ∉ fields.map Prod.fst ∧ p = (m.1, m.2.normal) := by
  rw [Shape.undeclared, Json.normalMembers_eq_map] at h
  obtain ⟨m, hm, rfl⟩ := List.mem_map.mp h
  obtain ⟨hmem, hname⟩ := List.mem_filter.mp hm
  exact ⟨m, hmem, by simpa using hname, rfl⟩

theorem read?_eq_some_iff : read? fields j = some e ↔ ∃ members, j = .object members ∧
    Shape.readFields? fields members = some e.declared ∧
    e.extra = NameMap.ofList (Shape.undeclared fields members) := by
  obtain ⟨declared, extra⟩ := e
  constructor
  · intro h
    obtain ⟨members, hmembers, h⟩ := Option.bind_eq_some_iff.mp h
    obtain ⟨declared, hdeclared, heq⟩ := Option.bind_eq_some_iff.mp h
    cases heq
    cases j with
    | object ms =>
      cases hmembers
      exact ⟨_, rfl, hdeclared, rfl⟩
    | _ => cases hmembers
  · rintro ⟨members, rfl, hdeclared, rfl⟩
    change ((Shape.readFields? fields members).bind fun declared =>
      some (OpenEntity.mk declared (NameMap.ofList (Shape.undeclared fields members)))) = _
    rw [hdeclared]
    rfl

/-- What is read from a value is sound. -/
theorem sound_of_read? (names : (fields.map Prod.fst).Nodup)
    (settles : ∀ f ∈ fields, f.2.Settles) (h : read? fields j = some e) : Sound fields e := by
  obtain ⟨members, -, hdeclared, hextra⟩ := read?_eq_some_iff.mp h
  have hmem : ∀ p ∈ e.extra.entries, ∃ m ∈ members,
      m.1 ∉ fields.map Prod.fst ∧ p = (m.1, m.2.normal) := by
    intro p hp
    rw [hextra] at hp
    exact exists_of_mem_undeclared (Entries.mem_of_mem_ofList hp)
  refine ⟨names, Shape.keepsAll_of_readFields? settles hdeclared, fun p hp => ?_, fun p hp => ?_⟩
  · obtain ⟨m, -, hname, rfl⟩ := hmem p hp
    exact hname
  · obtain ⟨m, -, -, rfl⟩ := hmem p hp
    exact Json.normal_normal m.2

end OpenEntity

/-! ## Shapes -/

namespace Shape

/-- No record declares a name twice. -/
inductive Distinct : Shape → Prop
  | anything : Distinct .anything
  | integer (least greatest : Int) : Distinct (.integer least greatest)
  | number : Distinct .number
  | truth : Distinct .truth
  | text : Distinct .text
  | optional {inner} (h : Distinct inner) : Distinct (.optional inner)
  | listOf {item} (h : Distinct item) : Distinct (.listOf item)
  | mapOf {item} (h : Distinct item) : Distinct (.mapOf item)
  | record {fields} (names : (fields.map Prod.fst).Nodup) (inner : ∀ f ∈ fields, Distinct f.2) :
      Distinct (.record fields)
  | openRecord {fields} (names : (fields.map Prod.fst).Nodup)
      (inner : ∀ f ∈ fields, Distinct f.2) : Distinct (.openRecord fields)

variable {shape : Shape} {fields : List (String × Shape)} {declared : List (String × Json)}

theorem KeepsAll.keeps_record (h : KeepsAll fields declared)
    (names : (fields.map Prod.fst).Nodup) : (record fields).Keeps (.object declared) := by
  rw [← h.names] at names
  have hnormal : ((Json.normalMembers declared).map Prod.fst).Nodup := by
    rwa [OpenEntity.map_fst_normalMembers]
  have hperm := Entries.ofList_perm hnormal
  constructor
  · rw [read?, h.readFields? names fun d hd => .inl hd]
    rfl
  · rw [Json.normal, read?, h.readFields? ((hperm.map Prod.fst).nodup_iff.mpr hnormal)]
    · rfl
    · intro d hd
      refine .inr (hperm.mem_iff.mpr ?_)
      rw [Json.normalMembers_eq_map]
      exact List.mem_map_of_mem (f := fun m => (m.1, m.2.normal)) hd

/-- A record with other members is read as an open entity is. -/
theorem read?_openRecord (fields : List (String × Shape)) (j : Json) :
    (openRecord fields).read? j = (OpenEntity.read? fields j).map OpenEntity.toJson := by
  cases j with
  | object members =>
    have hjoin : ∀ declared,
        OpenEntity.toJson ⟨declared, NameMap.ofList (undeclared fields members)⟩ = Json.ofMembers (declared ++ undeclared fields members) := fun declared =>
      congrArg Json.object (Entries.ofList_append_ofList declared (undeclared fields members))
    rw [read?]
    change _ = ((readFields? fields members).bind fun declared =>
      some ⟨declared, NameMap.ofList (undeclared fields members)⟩).map OpenEntity.toJson
    cases readFields? fields members with
    | none => rfl
    | some declared => exact congrArg some (hjoin declared).symm
  | _ => rfl

theorem keeps_array {item : Shape} {vs : List Json} (h : ∀ v ∈ vs, item.Keeps v) :
    (listOf item).Keeps (.array vs) := by
  constructor
  · have hread : vs.mapM item.read? = some vs :=
      mapM_eq_some_iff.mpr (List.forall₂_same.mpr fun v hv => (h v hv).same)
    rw [read?, hread]
    rfl
  · have hread : (vs.map Json.normal).mapM item.read? = some vs := by
      rw [mapM_eq_some_iff, List.forall₂_map_left_iff]
      exact List.forall₂_same.mpr fun v hv => (h v hv).normal
    rw [Json.normal, Json.normalItems_eq_map, read?, hread]
    rfl

theorem keeps_map {item : Shape} {ps : List (String × Json)} (h : ∀ p ∈ ps, item.Keeps p.2) :
    (mapOf item).Keeps (Json.ofMembers ps) := by
  have hentries : ∀ p ∈ Entries.ofList ps, item.Keeps p.2 := fun p hp =>
    h p (Entries.mem_of_mem_ofList hp)
  have hsorted := Entries.ofList_eq_self (Entries.ascending_ofList ps)
  constructor
  · have hread : (Entries.ofList ps).mapM (fun m => (item.read? m.2).map fun j => (m.1, j)) =
        some (Entries.ofList ps) := by
      refine mapM_eq_some_iff.mpr (List.forall₂_same.mpr fun p hp => ?_)
      rw [(hentries p hp).same]
      rfl
    rw [Json.ofMembers, read?, hread, Option.map_some, Json.ofMembers, hsorted]
  · have hread : (Json.normalMembers (Entries.ofList ps)).mapM
        (fun m => (item.read? m.2).map fun j => (m.1, j)) = some (Entries.ofList ps) := by
      rw [Json.normalMembers_eq_map, mapM_eq_some_iff, List.forall₂_map_left_iff]
      refine List.forall₂_same.mpr fun p hp => ?_
      rw [(hentries p hp).normal]
      rfl
    rw [Json.ofMembers, Json.normal, ← Json.normalMembers_ofList, hsorted, read?, hread,
      Option.map_some, Json.ofMembers, hsorted]

/-- **What a shape reads, it reads again**, also from its normal form. -/
theorem Distinct.settles (distinct : shape.Distinct) : shape.Settles := by
  induction distinct with
  | anything =>
    intro j v h
    cases h
    have hnormal := Json.normal_normal j
    exact ⟨congrArg some hnormal, congrArg some (by rw [hnormal, hnormal])⟩
  | integer least greatest =>
    intro j v h
    obtain ⟨n, hn, rfl⟩ := Option.map_eq_some_iff.mp h
    have hread : (Shape.integer least greatest).read? (.int n) = some (.int n) := by
      cases j with
      | int k =>
        rw [Json.intWithin?] at hn
        split at hn
        · next hrange =>
          cases hn
          rw [read?, Json.intWithin?, if_pos hrange]
          rfl
        · cases hn
      | _ => cases hn
    exact ⟨hread, hread⟩
  | number =>
    intro j v h
    obtain ⟨d, -, rfl⟩ := Option.map_eq_some_iff.mp h
    exact ⟨rfl, rfl⟩
  | truth =>
    intro j v h
    cases j <;> cases h
    exact ⟨rfl, rfl⟩
  | text =>
    intro j v h
    cases j <;> cases h
    exact ⟨rfl, rfl⟩
  | @optional inner _ ih =>
    intro j v h
    rw [read?] at h
    split at h
    · cases h
      exact ⟨rfl, rfl⟩
    · have hv := ih j v h
      constructor
      · rw [read?]
        cases v <;> first | rfl | exact hv.same
      · rw [read?]
        cases v <;> first | rfl | exact hv.normal
  | listOf _ ih =>
    intro j v h
    cases j with
    | array js =>
      obtain ⟨vs, hvs, rfl⟩ := Option.map_eq_some_iff.mp h
      exact keeps_array (forall_of_mapM hvs fun j _ v => ih j v)
    | _ => cases h
  | mapOf _ ih =>
    intro j v h
    cases j with
    | object members =>
      obtain ⟨ps, hps, rfl⟩ := Option.map_eq_some_iff.mp h
      refine keeps_map (forall_of_mapM hps fun m _ p hp => ?_)
      obtain ⟨v, hv, rfl⟩ := Option.map_eq_some_iff.mp hp
      exact ih m.2 v hv
    | _ => cases h
  | record names _ ih =>
    intro j v h
    cases j with
    | object members =>
      obtain ⟨declared, hdeclared, rfl⟩ := Option.map_eq_some_iff.mp h
      exact (keepsAll_of_readFields? ih hdeclared).keeps_record names
    | array js =>
      rw [read?] at h
      split at h
      · next hlength =>
        obtain ⟨declared, hdeclared, rfl⟩ := Option.map_eq_some_iff.mp h
        exact (keepsAll_of_readInOrder? ih hdeclared hlength).keeps_record names
      · cases h
    | _ => cases h
  | openRecord names _ ih =>
    intro j v h
    rw [read?_openRecord] at h
    obtain ⟨e, he, rfl⟩ := Option.map_eq_some_iff.mp h
    have sound := OpenEntity.sound_of_read? names ih he
    constructor
    · rw [read?_openRecord, sound.read?_toJson, Option.map_some]
    · rw [read?_openRecord, sound.read?_toJson_normal, Option.map_some]

end Shape
end OData
