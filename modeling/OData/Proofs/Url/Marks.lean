import Mathlib.Data.List.Forall2
import OData.Expansion
import OData.Proofs.FilterText.Acceptance
import OData.Proofs.FilterText.Structure
import OData.Proofs.Url.Parts

/-! # What can put a separator into a URL

Texts are written with fixed words, names and values.  No fixed word holds a separator
of a URL, and neither does a number, a date or a GUID.  So a separator comes from a
name or from the contents of a string (`Literal.contents`, `Filter.Uses`,
`Expansion.Uses`): what these lack, the text lacks that is written of them.
-/
namespace OData

/-- What separates the parts of a URL. -/
def urlMarks : List Char := ['?', '#', '&']

variable {marks marks' : List Char} {s t : String}

theorem Lacks.mono (h : Lacks marks' s) (hm : marks ⊆ marks') : Lacks marks s :=
  fun c hc => h c (hm hc)

/-! ## Literals -/

mutual

/-- The contents of the strings in a literal. -/
def Literal.contents : Literal → List String
  | .text s => [s]
  | .enumMember name => [name]
  | .list items => Literal.contentsOfAll items
  | _ => []
termination_by structural v => v

/-- The contents of the strings in several literals. -/
def Literal.contentsOfAll : List Literal → List String
  | [] => []
  | v :: vs => v.contents ++ Literal.contentsOfAll vs
termination_by structural vs => vs

end

theorem Literal.contentsOfAll_eq_flatMap (vs : List Literal) :
    Literal.contentsOfAll vs = vs.flatMap Literal.contents := by
  induction vs with
  | nil => rfl
  | cons v vs ih => rw [contentsOfAll, ih, List.flatMap_cons]

theorem mem_of_mem_doubleQuotes {c : Char} {s : List Char} (h : c ∈ Text.doubleQuotes s) :
    c ∈ s := by
  induction s with
  | nil => exact h
  | cons x s ih =>
    rw [Text.doubleQuotes] at h
    split at h
    · next hx =>
      subst hx
      simp only [List.mem_cons] at h
      rcases h with rfl | rfl | h
      · exact List.mem_cons_self ..
      · exact List.mem_cons_self ..
      · exact List.mem_cons_of_mem _ (ih h)
    · rcases List.mem_cons.mp h with rfl | h
      · exact List.mem_cons_self ..
      · exact List.mem_cons_of_mem _ (ih h)

theorem lacks_quoted (hm : marks ⊆ urlMarks) (h : Lacks marks s) : Lacks marks (quoted s) := by
  rw [quoted, lacks_append, lacks_append]
  have hquote : Lacks marks "'" := Lacks.mono (by decide) hm
  refine ⟨⟨hquote, fun c hc hmem => h c hc ?_⟩, hquote⟩
  rw [String.toList_ofList] at hmem
  exact mem_of_mem_doubleQuotes hmem

theorem lacks_bare (hm : marks ⊆ urlMarks) {v : Literal} (h : FilterText.IsBare v) :
    Lacks marks v.render :=
  (lacks_of_forall (FilterText.isBareChar_of_mem_render h) (by decide)).mono hm

mutual

/-- What the strings in a literal lack, its text lacks. -/
theorem lacks_render (hm : marks ⊆ urlMarks) : ∀ v : Literal, (∀ s ∈ v.contents, Lacks marks s) →
    Lacks marks v.render
  | .text s, h => by
    rw [Literal.render]
    exact lacks_quoted hm (h s (by simp [Literal.contents]))
  | .enumMember name, h => by
    rw [Literal.render]
    exact lacks_quoted hm (h name (by simp [Literal.contents]))
  | .list items, h => by
    rw [Literal.render, lacks_append, lacks_append]
    refine ⟨⟨Lacks.mono (by decide) hm, lacks_intercalate (Lacks.mono (by decide) hm) ?_⟩,
      Lacks.mono (by decide) hm⟩
    exact lacks_renderAll hm items (by simpa only [Literal.contents] using h)
  | .null, _ | .bool _, _ | .int _, _ | .double _, _ | .instant _, _ | .guid _, _ =>
    lacks_bare hm trivial
termination_by structural v => v

theorem lacks_renderAll (hm : marks ⊆ urlMarks) : ∀ vs : List Literal,
    (∀ s ∈ Literal.contentsOfAll vs, Lacks marks s) → ∀ t ∈ Literal.renderAll vs, Lacks marks t
  | [], _ => nofun
  | v :: vs, h => by
    rw [Literal.contentsOfAll, List.forall_mem_append] at h
    rw [Literal.renderAll, List.forall_mem_cons]
    exact ⟨lacks_render hm v h.1, lacks_renderAll hm vs h.2⟩
termination_by structural vs => vs

end

/-! ## Names in camel case -/

/-- A character in front of all letters; the case tables lead to none. -/
def IsLow (c : Char) : Prop := 0 < c.toNat ∧ c.toNat < 64

instance (c : Char) : Decidable (IsLow c) := inferInstanceAs (Decidable (_ ∧ _))

theorem isLow_of_mem_urlMarks : ∀ c ∈ urlMarks, IsLow c := by decide

theorem not_isLow_ofNat {n : Nat} (h : 64 ≤ n) : ¬ IsLow (Char.ofNat n) := by
  have hnat : (Char.ofNat n).toNat = n ∨ (Char.ofNat n).toNat = 0 := by
    rw [Char.ofNat]
    by_cases hvalid : n.isValidChar
    · rw [dif_pos hvalid]
      exact .inl rfl
    · rw [dif_neg hvalid]
      exact .inr rfl
  rintro ⟨hpos, hlt⟩
  omega

/-- Such a character is no case form but its own. -/
theorem eq_of_mem_caseForm {ranges : List Text.CaseRange} {sequences : List (Nat × List Nat)}
    {c x : Char} (hranges : ∀ r ∈ ranges, 64 ≤ (r.first : Int) + r.offset)
    (hsequences : ∀ p ∈ sequences, ∀ n ∈ p.2, 64 ≤ n) (hx : IsLow x)
    (h : x ∈ Text.caseForm ranges sequences c) : x = c := by
  rw [Text.caseForm] at h
  split at h
  · next cs hcs =>
    obtain ⟨n, hn, rfl⟩ := List.mem_map.mp h
    obtain ⟨before, after, rfl, -⟩ := List.lookup_eq_some_iff.mp hcs
    exact absurd hx (not_isLow_ofNat (hsequences (c.toNat, cs) (by simp) n hn))
  · rw [List.mem_singleton] at h
    cases hform : ranges.findSome? (·.form? c.toNat) with
    | none => rwa [hform] at h
    | some y =>
      rw [hform, Option.getD_some] at h
      obtain ⟨r, hr, hy⟩ := List.exists_of_findSome?_eq_some hform
      rw [Text.CaseRange.form?] at hy
      split at hy
      · next hbetween =>
        have hfirst := hranges r hr
        rw [h, ← Option.some.inj hy] at hx
        exact absurd hx (not_isLow_ofNat (by omega))
      · cases hy

theorem eq_of_mem_lower {c x : Char} (hx : IsLow x) (h : x ∈ Text.lower c) : x = c :=
  eq_of_mem_caseForm (by decide +kernel) (by decide +kernel) hx h

theorem eq_of_mem_upper {c x : Char} (hx : IsLow x) (h : x ∈ Text.upper c) : x = c :=
  eq_of_mem_caseForm (by decide +kernel) (by decide +kernel) hx h

theorem mem_of_mem_camelCase_go {x : Char} (hx : IsLow x) {raised : Bool} {out s : List Char}
    (h : x ∈ camelCase.go raised out s) : x ∈ out ∨ x ∈ s := by
  induction s generalizing raised out with
  | nil => exact .inl h
  | cons c s ih =>
    rw [camelCase.go] at h
    -- What is written of `c` is `c`, or one of its case forms.
    split at h
    · exact (ih h).imp_right (List.mem_cons_of_mem _)
    · split at h
      · rcases ih h with h | h
        · exact .inr (by simp [eq_of_mem_lower hx h])
        · exact .inr (List.mem_cons_of_mem _ h)
      · split at h
        · rcases ih h with h | h
          · rcases List.mem_append.mp h with h | h
            · exact .inl h
            · exact .inr (by simp [eq_of_mem_upper hx h])
          · exact .inr (List.mem_cons_of_mem _ h)
        · rcases ih h with h | h
          · rcases List.mem_append.mp h with h | h
            · exact .inl h
            · exact .inr (by simp_all)
          · exact .inr (List.mem_cons_of_mem _ h)

theorem lacks_camelCase (hm : ∀ c ∈ marks, IsLow c) (h : Lacks marks s) :
    Lacks marks (camelCase s) := by
  intro c hc hmem
  rw [camelCase, String.toList_ofList] at hmem
  exact (mem_of_mem_camelCase_go (hm c hc) hmem).elim nofun (h c hc)

/-! ## Keys and function calls -/

/-- The names in a key satisfy `name`, and what stands in its strings `content`. -/
def EntityKey.Uses (name content : String → Prop) : EntityKey → Prop
  | .single v => ∀ s ∈ v.contents, content s
  | .composite parts => ∀ p ∈ parts, name p.1 ∧ ∀ s ∈ p.2.contents, content s

/-- The names in a call satisfy `name`, and what stands in its strings `content`. -/
structure FunctionCall.Uses (name content : String → Prop) (f : FunctionCall) : Prop where
  called : name f.name
  arguments : ∀ a ∈ f.arguments, name a.1 ∧ ∀ s ∈ a.2.contents, content s

theorem lacks_key (hm : marks ⊆ urlMarks) {k : EntityKey}
    (h : k.Uses (Lacks urlMarks) (Lacks marks)) : Lacks marks k.render := by
  cases k with
  | single v => exact lacks_render hm v h
  | composite parts =>
    refine lacks_intercalate (Lacks.mono (by decide) hm) fun t ht => ?_
    obtain ⟨p, hp, rfl⟩ := List.mem_map.mp ht
    rw [lacks_append, lacks_append]
    exact ⟨⟨(h p hp).1.mono hm, Lacks.mono (by decide) hm⟩, lacks_render hm _ (h p hp).2⟩

theorem lacks_renderElement (hm : marks ⊆ urlMarks) {v : Literal}
    (h : ∀ s ∈ v.contents, Lacks marks s) : Lacks marks v.renderElement := by
  cases v with
  | text s => exact h s (by simp [Literal.contents])
  | enumMember name => exact h name (by simp [Literal.contents])
  | _ => exact lacks_render hm _ h

theorem lacks_renderArgument (hm : marks ⊆ urlMarks) {v : Literal}
    (h : ∀ s ∈ v.contents, Lacks marks s) : Lacks marks (FunctionCall.renderArgument v) := by
  cases v with
  | list items =>
    rw [Literal.contents, Literal.contentsOfAll_eq_flatMap] at h
    rw [FunctionCall.renderArgument, lacks_append, lacks_append]
    refine ⟨⟨Lacks.mono (by decide) hm, lacks_intercalate (Lacks.mono (by decide) hm) ?_⟩,
      Lacks.mono (by decide) hm⟩
    intro t ht
    obtain ⟨v, hv, rfl⟩ := List.mem_map.mp ht
    exact lacks_renderElement hm fun s hs => h s (List.mem_flatMap.mpr ⟨v, hv, hs⟩)
  | _ => exact lacks_render hm _ h

theorem lacks_call (hm : marks ⊆ urlMarks) {f : FunctionCall}
    (h : f.Uses (Lacks urlMarks) (Lacks marks)) : Lacks marks f.render := by
  rw [FunctionCall.render, lacks_append, lacks_append, lacks_append]
  refine ⟨⟨⟨h.called.mono hm, Lacks.mono (by decide) hm⟩,
    lacks_intercalate (Lacks.mono (by decide) hm) ?_⟩,
    Lacks.mono (by decide) hm⟩
  intro t ht
  obtain ⟨a, ha, rfl⟩ := List.mem_map.mp ht
  rw [lacks_append, lacks_append]
  have hlow : ∀ c ∈ marks, IsLow c := fun c hc => isLow_of_mem_urlMarks c (hm hc)
  exact ⟨⟨lacks_camelCase hlow ((h.arguments a ha).1.mono hm), Lacks.mono (by decide) hm⟩,
    lacks_renderArgument hm (h.arguments a ha).2⟩

/-! ## Sort keys -/

theorem lacks_sortKeys (hm : marks ⊆ urlMarks) {keys : List SortKey}
    (h : ∀ k ∈ keys, Lacks urlMarks k.property) : Lacks marks (SortKey.render keys) := by
  refine lacks_intercalate (Lacks.mono (by decide) hm) fun t ht => ?_
  obtain ⟨k, hk, rfl⟩ := List.mem_map.mp ht
  rw [SortKey.toText]
  split
  · rw [lacks_append]
    exact ⟨(h k hk).mono hm, Lacks.mono (by decide) hm⟩
  · exact (h k hk).mono hm

/-! ## Filters -/

namespace Filter

/-- The filter has no raw text, its names satisfy `name`, and what stands in its strings
`content`. -/
inductive Uses (name content : String → Prop) : Filter → Prop
  | binary {op left right} (l : Uses name content left) (r : Uses name content right) :
      Uses name content (.binary op left right)
  | not {operand} (u : Uses name content operand) : Uses name content (.not operand)
  | member {path} (names : ∀ n ∈ FilterText.pathNames path, name n) :
      Uses name content (.member path)
  | literal {v} (contents : ∀ s ∈ Literal.contents v, content s) : Uses name content (.literal v)
  | captured {c} (contents : ∀ s ∈ Literal.contents (Capture.value c), content s) :
      Uses name content (.captured c)
  | call {target method arguments}
      (operands : ∀ g ∈ target.toList ++ arguments, Uses name content g) :
      Uses name content (.call target method arguments)
  | quantified {q collection x predicate} (names : ∀ n ∈ FilterText.pathNames collection, name n)
      (bound : predicate.isSome = true → name x)
      (u : ∀ p, predicate = some p → Uses name content p) :
      Uses name content (.quantified q collection x predicate)

variable {scope : List String} {parent : Option BinaryOp} {f receiver argument path : Filter}
  {name content : String → Prop}

theorem Uses.constantItems? (u : f.Uses name content) {items : List Literal}
    (h : f.constantItems? = some items) : ∀ v ∈ items, ∀ s ∈ v.contents, content s := by
  have contents : ∀ v : Literal, v.items? = some items → (∀ s ∈ v.contents, content s) →
      ∀ v ∈ items, ∀ s ∈ v.contents, content s := by
    intro v hv hcontents w hw s hs
    cases v with
    | list items' =>
      obtain rfl := Option.some.inj hv
      refine hcontents s ?_
      rw [Literal.contents, Literal.contentsOfAll_eq_flatMap]
      exact List.mem_flatMap.mpr ⟨w, hw, hs⟩
    | _ => cases hv
  cases u with
  | literal hcontents => exact contents _ h hcontents
  | captured hcontents => exact contents _ h hcontents
  | _ => cases h

/-- The items of a membership are those of one of its operands. -/
theorem Uses.items {items : List Literal} (has : HasItems receiver argument path items)
    (u : ∀ g ∈ (some receiver).toList ++ [argument], g.Uses name content) :
    ∀ v ∈ items, ∀ s ∈ v.contents, content s := by
  rcases has with ⟨h, -⟩ | ⟨-, h, -⟩
  · exact (u argument (by simp)).constantItems? h
  · exact (u receiver (by simp)).constantItems? h

theorem lacks_path (hm : marks ⊆ urlMarks) {scope : List String} {path : MemberPath}
    (h : compilePath scope path = .ok s)
    (names : ∀ n ∈ FilterText.pathNames path, Lacks urlMarks n) : Lacks marks s := by
  rw [(FilterText.compilePath_eq_ok h).1]
  exact lacks_intercalate (Lacks.mono (by decide) hm) fun n hn => (names n hn).mono hm

theorem lacks_membership (hm : marks ⊆ urlMarks) {items : List Literal} (hs : Lacks marks s)
    (h : ∀ v ∈ items, ∀ s ∈ v.contents, Lacks marks s) :
    Lacks marks (compileNode.membership s items) := by
  rw [compileNode.membership, lacks_append, lacks_append, lacks_append]
  refine ⟨⟨⟨hs, Lacks.mono (by decide) hm⟩, lacks_intercalate (Lacks.mono (by decide) hm) ?_⟩,
    Lacks.mono (by decide) hm⟩
  intro t ht
  obtain ⟨v, hv, rfl⟩ := List.mem_map.mp ht
  exact lacks_render hm v (h v hv)

theorem lacks_binaryText (hm : marks ⊆ urlMarks) {parent : Option BinaryOp} {op : BinaryOp}
    (hs : Lacks marks s) (ht : Lacks marks t) : Lacks marks (binaryText parent op s t) := by
  have fixed : ∀ {w}, Lacks urlMarks w → Lacks marks w := fun h => h.mono hm
  have hsymbol : Lacks marks op.symbol := by cases op <;> exact fixed (by decide)
  have hspace : Lacks marks " " := fixed (by decide)
  rw [binaryText]
  split
  · simp only [lacks_append]
    exact ⟨⟨fixed (by decide), ⟨⟨⟨hs, hspace⟩, hsymbol⟩, hspace⟩, ht⟩, fixed (by decide)⟩
  · simp only [lacks_append]
    exact ⟨⟨⟨⟨hs, hspace⟩, hsymbol⟩, hspace⟩, ht⟩

/-- What the names and the strings of a filter lack, its text lacks. -/
theorem lacks_of_written (hm : marks ⊆ urlMarks) {scope : List String} {parent : Option BinaryOp}
    {f : Filter} (w : Written scope parent f s) (u : f.Uses (Lacks urlMarks) (Lacks marks)) :
    Lacks marks s := by
  have fixed : ∀ {w}, Lacks urlMarks w → Lacks marks w := fun h => h.mono hm
  induction w with
  | binary _ _ ihl ihr =>
    cases u with
    | binary l r => exact lacks_binaryText hm (ihl l) (ihr r)
  | not _ ih =>
    cases u with
    | not u =>
      simp only [lacks_append]
      exact ⟨⟨fixed (by decide), ih u⟩, fixed (by decide)⟩
  | member h =>
    cases u with
    | member names => exact lacks_path hm h names
  | literal =>
    cases u with
    | literal contents => exact lacks_render hm _ contents
  | captured =>
    cases u with
    | captured contents => exact lacks_render hm _ contents
  | raw => cases u
  | @nonempty _ _ q _ _ _ h =>
    cases u with
    | quantified names bound u =>
      have hword : Lacks marks q.word := by cases q <;> exact fixed (by decide)
      simp only [lacks_append]
      exact ⟨⟨⟨lacks_path hm h names, fixed (by decide)⟩, hword⟩, fixed (by decide)⟩
  | @quantified _ _ q _ _ _ _ _ h _ _ ih =>
    cases u with
    | quantified names bound u =>
      have hword : Lacks marks q.word := by cases q <;> exact fixed (by decide)
      simp only [lacks_append]
      exact ⟨⟨⟨⟨⟨⟨⟨lacks_path hm h names, fixed (by decide)⟩, hword⟩, fixed (by decide)⟩,
        (bound rfl).mono hm⟩, fixed (by decide)⟩, ih (u _ rfl)⟩, fixed (by decide)⟩
  | @test _ _ _ t _ _ _ _ _ _ _ _ ihr iha =>
    cases u with
    | call operands =>
      have hword : Lacks marks t.word := by cases t <;> exact fixed (by decide)
      simp only [lacks_append]
      exact ⟨⟨⟨⟨⟨hword, fixed (by decide)⟩, ihr (operands _ (by simp))⟩, fixed (by decide)⟩,
        iha (operands _ (by simp))⟩, fixed (by decide)⟩
  | @map _ _ _ _ _ m _ _ _ single _ _ ih =>
    cases u with
    | call operands =>
      have hword : Lacks marks m.word := by cases m <;> exact fixed (by decide)
      simp only [lacks_append]
      exact ⟨⟨⟨hword, fixed (by decide)⟩, ih (operands _ single.mem)⟩, fixed (by decide)⟩
  | isNullOrEmpty _ single _ ih =>
    cases u with
    | call operands =>
      have hs := ih (operands _ single.mem)
      simp only [lacks_append]
      exact ⟨⟨⟨⟨fixed (by decide), hs⟩, fixed (by decide)⟩, hs⟩, fixed (by decide)⟩
  | noItems => exact fixed (by decide)
  | isIn _ has _ _ ih =>
    cases u with
    | call operands =>
      exact lacks_membership hm (ih (operands _ has.mem)) (Uses.items has operands)

/-- What the names and the strings of a filter lack, the text found for it lacks. -/
theorem lacks_compile (hm : marks ⊆ urlMarks) {f : Filter} (h : f.compile = .ok s)
    (u : f.Uses (Lacks urlMarks) (Lacks marks)) : Lacks marks s :=
  lacks_of_written hm (written_of_finds ⟨[], f.compileLogged.2, Prod.ext h rfl⟩) u

end Filter

/-! ## Expansions -/

/-- The names in an expansion satisfy `name`, and what stands in the strings of its
filters `content`, and so at any depth. -/
inductive Expansion.Uses (name content : String → Prop) : Expansion → Prop
  | mk {navigation select expand filters orderBy top skip} (navigates : name navigation)
      (selects : ∀ p ∈ select, name p) (expands : ∀ e ∈ expand, Uses name content e)
      (filtered : ∀ f ∈ filters, Filter.Uses name content f)
      (sorts : ∀ k ∈ orderBy, name (SortKey.property k)) :
      Uses name content (.mk navigation select expand filters orderBy top skip)

theorem lacks_namedOption {name value : String} {present : Bool} (hm : marks ⊆ urlMarks)
    (hname : Lacks urlMarks name) (hvalue : Lacks marks value) :
    ∀ o ∈ namedOption name present value, Lacks marks o := by
  intro o ho
  rw [namedOption] at ho
  split at ho
  · obtain rfl := List.mem_singleton.mp ho
    simp only [lacks_append]
    exact ⟨⟨hname.mono hm, Lacks.mono (by decide) hm⟩, hvalue⟩
  · cases ho

theorem lacks_combineFilters (hm : marks ⊆ urlMarks) {clauses : List String}
    (h : ∀ c ∈ clauses, Lacks marks c) : Lacks marks (combineFilters clauses) := by
  refine lacks_intercalate (Lacks.mono (by decide) hm) fun t ht => ?_
  obtain ⟨c, hc, rfl⟩ := List.mem_map.mp ht
  simp only [lacks_append]
  exact ⟨⟨Lacks.mono (by decide) hm, h c hc⟩, Lacks.mono (by decide) hm⟩

/-- Of two parts both have to be found. -/
theorem bind_bind_eq_ok_iff {α β γ ε : Type} {x : Except ε α} {y : Except ε β} {k : α → β → γ}
    {c : γ} : (do let a ← x; let b ← y; return k a b) = .ok c ↔
      ∃ a b, x = .ok a ∧ y = .ok b ∧ c = k a b := by
  constructor
  · intro h
    cases x with
    | error u => cases h
    | ok a =>
      cases y with
      | error u => cases h
      | ok b => exact ⟨a, b, rfl, rfl, (Except.ok.inj h).symm⟩
  · rintro ⟨a, b, rfl, rfl, rfl⟩
    rfl

/-- All texts are found just if each one is. -/
theorem mapM_eq_ok_iff {α β ε : Type} {f : α → Except ε β} {as : List α} {bs : List β} :
    as.mapM f = .ok bs ↔ List.Forall₂ (fun a b => f a = .ok b) as bs := by
  induction as generalizing bs with
  | nil => cases bs <;> simp [pure, Except.pure]
  | cons a as ih =>
    rw [List.mapM_cons]
    cases ha : f a with
    | error u => cases bs <;> simp [bind, Except.bind, ha]
    | ok b =>
      cases has : as.mapM f with
      | error u => cases bs <;> simp [bind, Except.bind, ← ih, ha, has]
      | ok bs' => cases bs <;> simp [bind, Except.bind, pure, Except.pure, ← ih, ha, has]

/-- Each text found is that of some part. -/
theorem exists_of_mem_mapM {α β ε : Type} {f : α → Except ε β} {as : List α} {bs : List β} {b : β}
    (h : as.mapM f = .ok bs) (hb : b ∈ bs) : ∃ a ∈ as, f a = .ok b := by
  rw [mapM_eq_ok_iff] at h
  induction h with
  | nil => cases hb
  | @cons a _ _ _ ha _ ih =>
    rcases List.mem_cons.mp hb with rfl | hb
    · exact ⟨a, List.mem_cons_self .., ha⟩
    · obtain ⟨a', ha', h⟩ := ih hb
      exact ⟨a', List.mem_cons_of_mem _ ha', h⟩

namespace Expansion

/-- The options of an expansion whose own expansions and filters have these texts. -/
def optionsOf (select nested clauses : List String) (orderBy : List SortKey)
    (top skip : Option Nat) : List String :=
  namedOption "$select" (!select.isEmpty) (String.intercalate "," select) ++
  namedOption "$expand" (!nested.isEmpty) (String.intercalate "," nested) ++
  namedOption "$filter" (!clauses.isEmpty) (combineFilters clauses) ++
  namedOption "$orderby" (!orderBy.isEmpty) (SortKey.render orderBy) ++
  namedOption "$top" top.isSome (toString (top.getD 0)) ++
  namedOption "$skip" skip.isSome (toString (skip.getD 0))

variable {navigation text : String} {select nested clauses : List String} {expand : List Expansion}
  {filters : List Filter} {orderBy : List SortKey} {top skip : Option Nat}

theorem render_eq_ok_iff :
    (mk navigation select expand filters orderBy top skip).render = .ok text ↔
    ∃ nested clauses, expand.mapM render = .ok nested ∧ filters.mapM Filter.compile = .ok clauses ∧
      text = if (optionsOf select nested clauses orderBy top skip).isEmpty then navigation
        else navigation ++ "(" ++
          String.intercalate ";" (optionsOf select nested clauses orderBy top skip) ++ ")" := by
  rw [render, renderAll_eq_mapM]
  exact bind_bind_eq_ok_iff

end Expansion

/-- What the names in an expansion and the strings in its filters lack, its text lacks. -/
theorem lacks_expansion (hm : marks ⊆ urlMarks) {e : Expansion}
    (u : e.Uses (Lacks urlMarks) (Lacks marks)) (h : e.render = .ok s) : Lacks marks s := by
  induction u generalizing s with
  | @mk navigation select expand filters orderBy top skip navigates selects expands filtered sorts
      ih =>
    obtain ⟨nested, clauses, hnested, hclauses, rfl⟩ := Expansion.render_eq_ok_iff.mp h
    have fixed : ∀ {w}, Lacks urlMarks w → Lacks marks w := fun h => h.mono hm
    have hoptions : ∀ o ∈ Expansion.optionsOf select nested clauses orderBy top skip,
        Lacks marks o := by
      have nested' : ∀ t ∈ nested, Lacks marks t := fun t ht =>
        let ⟨e, he, hr⟩ := exists_of_mem_mapM hnested ht
        ih e he hr
      have clauses' : ∀ c ∈ clauses, Lacks marks c := fun c hc =>
        let ⟨f, hf, hr⟩ := exists_of_mem_mapM hclauses hc
        Filter.lacks_compile hm hr (filtered f hf)
      have number : ∀ n : Nat, Lacks marks (toString n) := fun n =>
        fixed (Query.lacks_toString n (by decide))
      have comma : Lacks marks "," := fixed (by decide)
      simp only [Expansion.optionsOf, List.forall_mem_append]
      have selects' : ∀ p ∈ select, Lacks marks p := fun p hp => (selects p hp).mono hm
      exact ⟨⟨⟨⟨⟨lacks_namedOption hm (by decide) (lacks_intercalate comma selects'),
        lacks_namedOption hm (by decide) (lacks_intercalate comma nested')⟩,
        lacks_namedOption hm (by decide) (lacks_combineFilters hm clauses')⟩,
        lacks_namedOption hm (by decide) (lacks_sortKeys hm sorts)⟩,
        lacks_namedOption hm (by decide) (number _)⟩, lacks_namedOption hm (by decide) (number _)⟩
    split
    · exact navigates.mono hm
    · simp only [lacks_append]
      exact ⟨⟨⟨navigates.mono hm, fixed (by decide)⟩,
        lacks_intercalate (fixed (by decide)) hoptions⟩, fixed (by decide)⟩

end OData
