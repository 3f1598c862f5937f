import OData.Proofs.Url.Contents

/-! # The predicates of a draft

The predicates of a draft are its own filters and those of its expansions, at any depth.
They are compiled in a fixed order: the filters of the draft first, then those of one
expansion after the other, and in each expansion those of the expansions in it before its
own.

No predicate is dropped (`build_predicates`).  The first one without a text is the reason
why a draft cannot be built; if each has a text, the query has them all.
-/
namespace OData

/-! ## Why a computation failed -/

section
variable {α β γ ε : Type}

/-- The reason for which a computation failed. -/
def faultOf? : Except ε α → Option ε
  | .error u => some u
  | .ok _ => none

theorem faultOf?_eq_some_iff {x : Except ε α} {u : ε} : faultOf? x = some u ↔ x = .error u := by
  cases x <;> simp [faultOf?]

theorem faultOf?_eq_none_iff {x : Except ε α} : faultOf? x = none ↔ ∃ a, x = .ok a := by
  cases x <;> simp [faultOf?]

theorem faultOf?_map {x : Except ε α} {k : α → β} : faultOf? (x.map k) = faultOf? x := by
  cases x <;> rfl

/-- Of two parts the first is tried first. -/
theorem faultOf?_bind_bind {x : Except ε α} {y : Except ε β} {k : α → β → γ} :
    faultOf? (do let a ← x; let b ← y; return k a b) = (faultOf? x).or (faultOf? y) := by
  cases x <;> cases y <;> rfl

/-- The parts of a list are tried in order. -/
theorem faultOf?_mapM {f : α → Except ε β} (as : List α) :
    faultOf? (as.mapM f) = as.findSome? fun a => faultOf? (f a) := by
  induction as with
  | nil => rfl
  | cons a as ih =>
    rw [List.mapM_cons, faultOf?_bind_bind, ih, List.findSome?_cons]
    cases faultOf? (f a) <;> rfl

end

namespace Filter

/-- Of the filters in a list, the first that has no text has none for the reason `u`. -/
def FirstFault (fs : List Filter) (u : Unsupported) : Prop :=
  ∃ before f after, fs = before ++ f :: after ∧ f.compile = .error u ∧
    ∀ g ∈ before, ∃ text, g.compile = .ok text

theorem firstFault_iff {fs : List Filter} {u : Unsupported} :
    FirstFault fs u ↔ (fs.findSome? fun f => faultOf? f.compile) = some u := by
  simp only [FirstFault, List.findSome?_eq_some_iff, faultOf?_eq_some_iff, faultOf?_eq_none_iff]

end Filter

/-! ## The order of the predicates -/

namespace Expansion

mutual

/-- The filters in an expansion: those of the expansions in it, then its own. -/
def predicates : Expansion → List Filter
  | mk _ _ expand filters _ _ _ => predicatesOfAll expand ++ filters
termination_by structural e => e

/-- The filters in several expansions. -/
def predicatesOfAll : List Expansion → List Filter
  | [] => []
  | e :: es => predicates e ++ predicatesOfAll es
termination_by structural es => es

end

/-- A filter stands in an expansion, at some depth. -/
inductive Carries (f : Filter) : Expansion → Prop
  | own {navigation select expand filters orderBy top skip} (h : f ∈ filters) :
      Carries f (.mk navigation select expand filters orderBy top skip)
  | nested {navigation select expand filters orderBy top skip e} (he : e ∈ expand)
      (h : Carries f e) : Carries f (.mk navigation select expand filters orderBy top skip)

theorem predicatesOfAll_eq_flatMap (es : List Expansion) :
    predicatesOfAll es = es.flatMap predicates := by
  induction es with
  | nil => rfl
  | cons e es ih => rw [predicatesOfAll, ih, List.flatMap_cons]

theorem mem_predicates {f : Filter} {e : Expansion} : f ∈ e.predicates ↔ e.Carries f := by
  induction e using Expansion.inductionOn with
  | mk navigation select expand filters orderBy top skip ih =>
    rw [predicates, predicatesOfAll_eq_flatMap, List.mem_append, List.mem_flatMap]
    constructor
    · rintro (⟨e, he, hf⟩ | hf)
      · exact .nested he ((ih e he).mp hf)
      · exact .own hf
    · rintro (hf | ⟨he, hf⟩)
      · exact .inr hf
      · exact .inl ⟨_, he, (ih _ he).mpr hf⟩

/-- Expansions that fail with their first predicate without a text fail so together. -/
theorem findSome?_predicatesOfAll {es : List Expansion}
    (h : ∀ e ∈ es, faultOf? e.render = e.predicates.findSome? fun f => faultOf? f.compile) :
    faultOf? (es.mapM render) =
      (predicatesOfAll es).findSome? fun f => faultOf? f.compile := by
  rw [faultOf?_mapM]
  induction es with
  | nil => rfl
  | cons e es ih =>
    obtain ⟨he, hes⟩ := List.forall_mem_cons.mp h
    rw [predicatesOfAll, List.findSome?_append, List.findSome?_cons, he, ih hes]
    cases e.predicates.findSome? _ <;> rfl

theorem faultOf?_render (e : Expansion) :
    faultOf? e.render = e.predicates.findSome? fun f => faultOf? f.compile := by
  induction e using Expansion.inductionOn with
  | mk navigation select expand filters orderBy top skip ih =>
    rw [render, renderAll_eq_mapM, faultOf?_bind_bind, findSome?_predicatesOfAll ih, faultOf?_mapM,
      predicates, List.findSome?_append]

end Expansion

namespace Query.Draft
variable {d : Draft} {u : Filter.Unsupported}

/-- The filters of a draft, then those in its expansions. -/
def predicates (d : Draft) : List Filter := d.filters ++ Expansion.predicatesOfAll d.expand

/-- A filter stands in a draft, at some depth. -/
def Carries (d : Draft) (f : Filter) : Prop := f ∈ d.filters ∨ ∃ e ∈ d.expand, e.Carries f

theorem mem_predicates {f : Filter} : f ∈ d.predicates ↔ d.Carries f := by
  rw [predicates, Carries, List.mem_append, Expansion.predicatesOfAll_eq_flatMap, List.mem_flatMap]
  simp only [Expansion.mem_predicates]

/-! ## Building -/

theorem build_eq_error_iff : d.build = .error u ↔ Filter.FirstFault d.predicates u := by
  rw [← faultOf?_eq_some_iff, Filter.firstFault_iff, build, faultOf?_bind_bind, faultOf?_mapM,
    Expansion.findSome?_predicatesOfAll fun e _ => e.faultOf?_render, predicates,
    List.findSome?_append]

theorem buildUrl_eq_error_iff : d.buildUrl = .error u ↔ d.build = .error u := by
  rw [← faultOf?_eq_some_iff, ← faultOf?_eq_some_iff, buildUrl, faultOf?_map]

theorem exists_build_eq_error_iff :
    (∃ u, d.build = .error u) ↔ ∃ f, d.Carries f ∧ ∃ u, f.compile = .error u := by
  constructor
  · rintro ⟨u, h⟩
    obtain ⟨before, f, after, hsplit, hf, -⟩ := build_eq_error_iff.mp h
    exact ⟨f, mem_predicates.mp (hsplit ▸ List.mem_append_cons_self), u, hf⟩
  · rintro ⟨f, hf, u, hu⟩
    have hfault : ((d.predicates.findSome? fun f => faultOf? f.compile)).isSome := by
      rw [List.findSome?_isSome_iff]
      exact ⟨f, mem_predicates.mpr hf, by rw [hu]; rfl⟩
    obtain ⟨u, hu⟩ := Option.isSome_iff_exists.mp hfault
    exact ⟨u, build_eq_error_iff.mpr (Filter.firstFault_iff.mpr hu)⟩

/-- **No predicate is dropped.**  A draft can be built, and so has a URL, just if every
filter in it has a text, at whatever depth it stands.  Else the reason is that of the
first filter without one, in the order of the predicates.  A query that is built has the
texts of all filters and of all expansions, in the order of the draft. -/
theorem build_predicates (d : Draft) :
    ((∃ u, d.build = .error u) ↔ ∃ f, d.Carries f ∧ ∃ u, f.compile = .error u) ∧
    (∀ u, (d.build = .error u ↔ Filter.FirstFault d.predicates u) ∧
      (d.buildUrl = .error u ↔ Filter.FirstFault d.predicates u)) ∧
    ((∀ f, d.Carries f → ∃ text, f.compile = .ok text) →
      ∃ q, d.build = .ok q ∧ d.buildUrl = .ok q.url ∧
        List.Forall₂ (fun f text => f.compile = .ok text) d.filters q.filters ∧
        List.Forall₂ (fun e text => e.render = .ok text) d.expand q.expand) := by
  refine ⟨exists_build_eq_error_iff, fun u => ⟨build_eq_error_iff, ?_⟩, fun hall => ?_⟩
  · exact buildUrl_eq_error_iff.trans build_eq_error_iff
  · cases hbuild : d.build with
    | error u =>
      obtain ⟨f, hf, u, hu⟩ := exists_build_eq_error_iff.mp ⟨u, hbuild⟩
      obtain ⟨text, htext⟩ := hall f hf
      cases hu.symm.trans htext
    | ok q =>
      obtain ⟨filters, expand, hfilters, hexpand, rfl⟩ := build_eq_ok_iff.mp hbuild
      exact ⟨_, rfl, by rw [buildUrl, hbuild]; rfl, mapM_eq_ok_iff.mp hfilters,
        mapM_eq_ok_iff.mp hexpand⟩

/-- The filter of a nested expansion is reported, not the one of the expansion around it. -/
example : { Draft.ofSet "Orders" with
    filters := [.field "Open"]
    expand := [.mk "Lines" [] [.mk "Product" [] [] [.ofBound "p" "Name"] [] none none]
      [.member ⟨.entity, []⟩] [] none none] }.build = .error (.unbound "p") := rfl

end Query.Draft
end OData
