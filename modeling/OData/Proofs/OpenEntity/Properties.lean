import OData.Proofs.Json.RoundTrip
import OData.Proofs.Shape.Reading

/-! # Properties of an open entity

Declared properties and others lie side by side in one object and share its names.  An
entity that is read, or made without other properties, has them apart, and setting a
property that is not declared leaves it so (`Sound.setProperty`).  Whatever is set in turn,
what is written then is read as the same entity again (`setAll_apart`).

Nothing keeps a caller from setting a property under a declared name, since an entity does
not know its names.  The entity then has two members of that name, and is not read from
its text any more (`setProperty_declared_overlaps`).
-/
namespace OData
namespace OpenEntity

/-! ## Entities and what is set in them -/

/-- Where an entity comes from: it is read from a value, or made of a record that an object
stands for. -/
inductive Begins (fields : List (String × Shape)) : OpenEntity → Prop
  | read {j e} (h : read? fields j = some e) : Begins fields e
  | new {members declared} (h : Shape.readFields? fields members = some declared) :
      Begins fields (ofDeclared declared)

/-- Sets properties one after the other. -/
def setAll (e : OpenEntity) (calls : List (String × Json)) : OpenEntity :=
  calls.foldl (fun e call => e.setProperty call.1 call.2) e

variable {fields : List (String × Shape)} {calls : List (String × Json)} {e start : OpenEntity}
variable {name : String} {value j : Json}

theorem Begins.sound (distinct : (Shape.record fields).Distinct) (h : Begins fields e) :
    Sound fields e := by
  obtain ⟨names, inner⟩ : (fields.map Prod.fst).Nodup ∧ ∀ f ∈ fields, f.2.Settles := by
    cases distinct with
    | record names inner => exact ⟨names, fun f hf => (inner f hf).settles⟩
  cases h with
  | read h => exact sound_of_read? names inner h
  | @new _ declared h =>
    have hnone : ∀ p, p ∉ (ofDeclared declared).extra.entries := fun _ => List.not_mem_nil
    exact ⟨names, Shape.keepsAll_of_readFields? inner h, fun p hp => absurd hp (hnone p),
      fun p hp => absurd hp (hnone p)⟩

theorem Sound.setProperty (h : Sound fields e) (undeclared : name ∉ fields.map Prod.fst)
    (normal : value.normal = value) : Sound fields (e.setProperty name value) := by
  refine ⟨h.names, h.keeps, fun p hp => ?_, fun p hp => ?_⟩
  all_goals
    rcases Entries.mem_put hp with rfl | hp
  · exact undeclared
  · exact h.apart p hp
  · exact normal
  · exact h.normal p hp

theorem Sound.setAll (h : Sound fields e)
    (undeclared : ∀ c ∈ calls, c.1 ∉ fields.map Prod.fst)
    (normal : ∀ c ∈ calls, c.2.normal = c.2) : Sound fields (e.setAll calls) := by
  induction calls generalizing e with
  | nil => exact h
  | cons c calls ih =>
    have hset := h.setProperty (undeclared c (List.mem_cons_self ..))
      (normal c (List.mem_cons_self ..))
    exact ih hset (fun c hc => undeclared c (List.mem_cons_of_mem _ hc))
      fun c hc => normal c (List.mem_cons_of_mem _ hc)

theorem property?_setProperty (e : OpenEntity) (name : String) (value : Json) (other : String) :
    (e.setProperty name value).property? other =
      if other = name then some value else e.property? other :=
  NameMap.get?_insert e.extra name value other

/-- A property is what it was last set to, and what it was at first if it was not set. -/
theorem property?_setAll (e : OpenEntity) (calls : List (String × Json)) (name : String) :
    (e.setAll calls).property? name = (Entries.get? name calls.reverse).or (e.property? name) := by
  induction calls generalizing e with
  | nil => rfl
  | cons c calls ih =>
    have hstep : (e.setAll (c :: calls)) = (e.setProperty c.1 c.2).setAll calls := rfl
    rw [hstep, ih, property?_setProperty, List.reverse_cons, Entries.get?_append, Option.or_assoc,
      Entries.get?_cons]
    by_cases hname : name = c.1
    · rw [if_pos hname, if_pos hname, Option.some_or]
    · rw [if_neg hname, if_neg hname, Entries.get?_nil, Option.none_or]

/-- Every member that is not declared is a property, the last one of each name. -/
theorem property?_of_read? (h : read? fields j = some e) (hname : name ∉ fields.map Prod.fst) :
    e.property? name = (j.member? name).map Json.normal := by
  obtain ⟨members, rfl, -, hextra⟩ := read?_eq_some_iff.mp h
  have hkept : (!(fields.map Prod.fst).contains name) = true := by simpa using hname
  calc e.property? name
    _ = Entries.get? name (Shape.undeclared fields members).reverse := by
      rw [property?, hextra]
      exact Entries.get?_ofList name _
    _ = (Entries.get? name
          (members.reverse.filter fun m => !(fields.map Prod.fst).contains m.1)).map Json.normal := by
      rw [Shape.undeclared, Json.normalMembers_eq_map, ← List.map_reverse, Entries.get?_map,
        List.filter_reverse]
    _ = ((Json.object members).member? name).map Json.normal := by
      rw [Entries.get?_filter fun n => !(fields.map Prod.fst).contains n, if_pos hkept, Json.member?]

/-! ## What is written -/

/-- The two kinds of properties come apart again, from each form in which the entity is
written: as one value, its objects in order or not, and as a text, from which a value may be
read first. -/
structure Apart (fields : List (String × Shape)) (e : OpenEntity) : Prop where
  undeclared : ∀ p ∈ e.extra.entries, p.1 ∉ fields.map Prod.fst
  distinct : (e.members.map Prod.fst).Nodup
  ofJson : read? fields e.toJson = some e
  ofNormal : read? fields e.toJson.normal = some e
  ofText : Json.Legible Json.greatestDepth (.object e.members) →
    (Json.readWritten? e.toText).bind (read? fields) = some e
  ofTextNormal : Json.Legible Json.greatestDepth (.object e.members) →
    (Json.read? e.toText).bind (read? fields) = some e

theorem Sound.comesApart (h : Sound fields e) : Apart fields e where
  undeclared := h.apart
  distinct := h.nodup_members
  ofJson := h.read?_toJson
  ofNormal := h.read?_toJson_normal
  ofText legible := by
    rw [toText, Json.readWritten?_compact legible]
    exact h.read?_of_written e.written_members
  ofTextNormal legible := by
    rw [toText, Json.read?_compact legible]
    exact h.read?_normal e.written_members

/-- **Declared and other properties stay apart.**  An entity that was read or made, in which
properties that are not declared were then set in any order, has no declared name among its
other properties and writes no name twice; each form in which it is written is read as the
same entity; and every property holds what it was last set to, or else the last member of
its name in the value that was read. -/
theorem setAll_apart (distinct : (Shape.record fields).Distinct) (begins : Begins fields start)
    (undeclared : ∀ c ∈ calls, c.1 ∉ fields.map Prod.fst)
    (normal : ∀ c ∈ calls, c.2.normal = c.2) :
    Apart fields (start.setAll calls) ∧
      (∀ name, (start.setAll calls).property? name =
        (Entries.get? name calls.reverse).or (start.property? name)) ∧
      ∀ j, read? fields j = some start → ∀ name, name ∉ fields.map Prod.fst →
        start.property? name = (j.member? name).map Json.normal :=
  ⟨((begins.sound distinct).setAll undeclared normal).comesApart, property?_setAll start calls,
    fun _ h _ hname => property?_of_read? h hname⟩

/-- A record with a number and a text, which may be missing. -/
def product : List (String × Shape) :=
  [("Id", .integer Json.leastInt64 Json.greatestInt64), ("Name", .optional .text)]

theorem distinct_product : (Shape.record product).Distinct := by
  refine .record (by decide) fun f hf => ?_
  rcases List.mem_cons.mp hf with rfl | hf
  · exact .integer _ _
  · obtain rfl := List.mem_singleton.mp hf
    exact .optional .text

theorem setAll_apart_product :
    ∃ e, read? product (.object [("Colour", .text "blue"), ("Id", .int 2)]) = some e ∧
      (e.setAll [("Stock", .int 40), ("Colour", .null)]).toText =
        "\x7b\"Id\":2,\"Name\":null,\"Colour\":null,\"Stock\":40\x7d" ∧
      (Json.readWritten? (e.setAll [("Stock", .int 40), ("Colour", .null)]).toText).bind
        (read? product) = some (e.setAll [("Stock", .int 40), ("Colour", .null)]) := by
  refine ⟨_, rfl, by decide +kernel, ?_⟩
  have hundeclared : ∀ c ∈ [("Stock", Json.int 40), ("Colour", Json.null)],
      c.1 ∉ product.map Prod.fst := by decide
  have hapart := setAll_apart distinct_product
    (.read (j := .object [("Colour", .text "blue"), ("Id", .int 2)]) rfl) hundeclared (by decide)
  refine hapart.1.ofText (.object fun m hm => ?_)
  have hmembers : m ∈ [("Id", Json.int 2), ("Name", .null), ("Colour", .null),
      ("Stock", .int 40)] := hm
  simp only [List.mem_cons, List.not_mem_nil, or_false] at hmembers
  rcases hmembers with rfl | rfl | rfl | rfl
  · exact .int (by decide) (by decide)
  · exact .null
  · exact .null
  · exact .int (by decide) (by decide)

/-- An array in an array and so on, `n` of them around a null. -/
def nested (n : Nat) : Json := (List.range n).foldl (fun j _ => .array [j]) .null

-- Each hypothesis is needed: `Id` is declared, the digits of the double nearest to 12/97 are
-- read as the double below it, and a text may lie only 127 deep.
theorem setProperty_declared_overlaps :
    ∃ e, read? product (.object [("Id", .int 1)]) = some e ∧
      (e.setProperty "Id" (.int 5)).property? "Id" = some (.int 5) ∧
      (e.setProperty "Id" (.int 5)).toText = "\x7b\"Id\":1,\"Name\":null,\"Id\":5\x7d" ∧
      (Json.readWritten? (e.setProperty "Id" (.int 5)).toText).bind (read? product) = none ∧
      ((read? product (e.setProperty "Id" (.int 5)).toJson).bind fun e => e.property? "Id") = none ∧
      ((Json.readWritten? (e.setProperty "Ratio" (.double (.ofRatio false 12 97))).toText).bind
        fun j => (read? product j).bind fun e => e.property? "Ratio") ≠
          some (.double (.ofRatio false 12 97)) ∧
      (Json.readWritten? (e.setProperty "Tree" (nested 127)).toText).bind (read? product) = none := by
  refine ⟨_, rfl, ?_, ?_, ?_, ?_, ?_, ?_⟩
  · decide +kernel
  · decide +kernel
  · exact Option.isNone_iff_eq_none.mp (by decide +kernel)
  · decide +kernel
  · decide +kernel
  · rw [toText, Json.readWritten?, Json.compact, String.toList_ofList]
    exact Option.isNone_iff_eq_none.mp (by decide +kernel)

end OpenEntity
end OData
