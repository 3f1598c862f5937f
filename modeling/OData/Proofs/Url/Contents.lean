import Mathlib.Data.Option.Basic
import OData.Proofs.Url.Marks
import OData.Query.Draft

/-! # What the contents of strings do to a URL

Two drafts that differ only in what stands in their strings are alike
(`Query.Draft.Alike`).  If one has a URL so has the other, and both URLs have the same
options (`contents_keep_options`): no string ends the path, makes a fragment, or adds or
drops an option.  This needs nothing of the strings in the filters of the query itself,
which are encoded.  Strings in the key and in the function call are quoted only, and so
are those in the filters of expansions: there separators do harm
(`contents_break_options`).
-/
namespace OData

/-! ## Alike up to the contents of strings -/

/-- The literals differ at most in what stands in their strings. -/
inductive Literal.Alike : Literal → Literal → Prop
  | refl {v} : Alike v v
  | text {s t} : Alike (.text s) (.text t)
  | enumMember {s t} : Alike (.enumMember s) (.enumMember t)
  | list {vs ws} (items : List.Forall₂ Alike vs ws) : Alike (.list vs) (.list ws)

/-- The filters differ at most in what stands in their strings. -/
inductive Filter.Alike : Filter → Filter → Prop
  | binary {op left left' right right'} (l : Alike left left') (r : Alike right right') :
      Alike (.binary op left right) (.binary op left' right')
  | not {operand operand'} (h : Alike operand operand') : Alike (.not operand) (.not operand')
  | member {path} : Alike (.member path) (.member path)
  | literal {v w} (h : Literal.Alike v w) : Alike (.literal v) (.literal w)
  | captured {slot v w} (h : Literal.Alike v w) : Alike (.captured ⟨slot, v⟩) (.captured ⟨slot, w⟩)
  | call {target target' method arguments arguments'} (receiver : Option.Rel Alike target target')
      (operands : List.Forall₂ Alike arguments arguments') :
      Alike (.call target method arguments) (.call target' method arguments')
  | quantified {q collection name predicate predicate'}
      (h : Option.Rel Alike predicate predicate') :
      Alike (.quantified q collection name predicate) (.quantified q collection name predicate')
  | raw {text} : Alike (.raw text) (.raw text)

/-- The keys differ at most in what stands in their strings. -/
inductive EntityKey.Alike : EntityKey → EntityKey → Prop
  | single {v w} (h : Literal.Alike v w) : Alike (.single v) (.single w)
  | composite {ps qs}
      (h : List.Forall₂ (fun p q : String × Literal => p.1 = q.1 ∧ p.2.Alike q.2) ps qs) :
      Alike (.composite ps) (.composite qs)

/-- The calls differ at most in what stands in their strings. -/
structure FunctionCall.Alike (f f' : FunctionCall) : Prop where
  name : f.name = f'.name
  arguments : List.Forall₂ (fun a b => a.1 = b.1 ∧ a.2.Alike b.2) f.arguments f'.arguments

/-- The expansions differ at most in what stands in the strings of their filters. -/
inductive Expansion.Alike : Expansion → Expansion → Prop
  | mk {navigation select expand expand' filters filters' orderBy top skip}
      (expands : List.Forall₂ Alike expand expand')
      (filtered : List.Forall₂ Filter.Alike filters filters') :
      Alike (.mk navigation select expand filters orderBy top skip)
        (.mk navigation select expand' filters' orderBy top skip)

namespace Query.Draft

/-- The drafts differ at most in what stands in the strings of their keys, function
calls, filters and expansions. -/
structure Alike (d d' : Draft) : Prop where
  key : Option.Rel EntityKey.Alike d.key d'.key
  function : Option.Rel FunctionCall.Alike d.function d'.function
  filters : List.Forall₂ Filter.Alike d.filters d'.filters
  expand : List.Forall₂ Expansion.Alike d.expand d'.expand
  rest : d' = { d with
    key := d'.key, function := d'.function, filters := d'.filters, expand := d'.expand }

/-- The names in a draft satisfy `name`, what stands in the strings of its path `inPath`,
and what stands in those of its expansions `inExpand`.  Its own filters may say
anything. -/
structure Uses (name inPath inExpand : String → Prop) (d : Draft) : Prop where
  entitySet : name d.entitySet
  derivedType : ∀ t ∈ d.derivedType, name t
  key : ∀ k ∈ d.key, k.Uses name inPath
  function : ∀ f ∈ d.function, f.Uses name inPath
  select : ∀ p ∈ d.select, name p
  expand : ∀ e ∈ d.expand, e.Uses name inExpand
  orderBy : ∀ k ∈ d.orderBy, name k.property

end Query.Draft

/-! ## Texts of parts that are alike -/

/-- If related parts have texts together, so do lists of them. -/
theorem exists_mapM_of_forall₂ {α β ε : Type} {R : α → α → Prop} {f : α → Except ε β}
    {as as' : List α} {bs : List β} (h : List.Forall₂ R as as')
    (step : ∀ a ∈ as, ∀ a' b, R a a' → f a = .ok b → ∃ b', f a' = .ok b')
    (found : as.mapM f = .ok bs) : ∃ bs', as'.mapM f = .ok bs' := by
  simp only [mapM_eq_ok_iff] at found ⊢
  induction h generalizing bs with
  | nil => exact ⟨[], .nil⟩
  | @cons a a' as as' hr _ ih =>
    cases found with
    | cons ha found =>
      obtain ⟨b', hb⟩ := step a (List.mem_cons_self ..) a' _ hr ha
      obtain ⟨bs', hbs⟩ := ih (fun a ha => step a (List.mem_cons_of_mem _ ha)) found
      exact ⟨b' :: bs', .cons hb hbs⟩

theorem isEmpty_eq_of_forall₂ {α β : Type} {R : α → β → Prop} {as : List α} {bs : List β}
    (h : List.Forall₂ R as bs) : as.isEmpty = bs.isEmpty := by
  cases h <;> rfl

/-! ## Filters -/

namespace Filter
variable {scope : List String} {parent : Option BinaryOp} {f f' receiver receiver' argument
  argument' path operand : Filter} {target target' : Option Filter}
  {arguments arguments' : List Filter} {items : List Literal} {s method : String}

/-- Of filters that are alike both are lists or neither, and then their items are alike. -/
theorem Alike.constantItems? (h : f.Alike f') :
    Option.Rel (List.Forall₂ Literal.Alike) f.constantItems? f'.constantItems? := by
  have items : ∀ {v w : Literal}, v.Alike w →
      Option.Rel (List.Forall₂ Literal.Alike) v.items? w.items? := by
    intro v w h
    cases h with
    | refl =>
      cases v with
      | list vs => exact .some (List.forall₂_same.mpr fun _ _ => .refl)
      | _ => exact .none
    | list items => exact .some items
    | _ => exact .none
  cases h with
  | literal h => exact items h
  | captured h => exact items h
  | _ => exact .none

theorem Alike.isStringSource (h : f.Alike f') (hf : IsStringSource f) : IsStringSource f' := by
  cases h with
  | member => trivial
  | call => exact hf
  | _ => cases hf

theorem Alike.receiverFault? (h : f.Alike f') (hf : receiverFault? method f = none) :
    Filter.receiverFault? method f' = none :=
  receiverFault?_eq_none_iff.mpr (h.isStringSource (receiverFault?_eq_none_iff.mp hf))

theorem HasOperand.alike (h : HasOperand target arguments operand)
    (ht : Option.Rel Alike target target') (ha : List.Forall₂ Alike arguments arguments') :
    ∃ operand', HasOperand target' arguments' operand' ∧ operand.Alike operand' := by
  rcases h with ⟨rfl, rfl⟩ | ⟨rfl, rfl⟩
  · cases ht with
    | some ht =>
      cases ha
      exact ⟨_, .inl ⟨rfl, rfl⟩, ht⟩
  · cases ht
    cases ha with
    | cons hoperand ha =>
      cases ha
      exact ⟨_, .inr ⟨rfl, rfl⟩, hoperand⟩

theorem HasItems.alike (h : HasItems receiver argument path items) (hr : receiver.Alike receiver')
    (ha : argument.Alike argument') : ∃ path' items', HasItems receiver' argument' path' items' ∧
      path.Alike path' ∧ List.Forall₂ Literal.Alike items items' := by
  have hlist := ha.constantItems?
  rcases h with ⟨hitems, rfl⟩ | ⟨hnone, hitems, rfl⟩
  · rw [hitems] at hlist
    generalize hitems' : argument'.constantItems? = items' at hlist
    cases hlist with
    | some hlist => exact ⟨receiver', _, .inl ⟨hitems', rfl⟩, hr, hlist⟩
  · rw [hnone] at hlist
    generalize hnone' : argument'.constantItems? = none' at hlist
    cases hlist
    have hlist := hr.constantItems?
    rw [hitems] at hlist
    generalize hitems' : receiver'.constantItems? = items' at hlist
    cases hlist with
    | some hlist => exact ⟨argument', _, .inr ⟨hnone', hitems', rfl⟩, ha, hlist⟩

/-- If a filter has a text, every filter that is alike has one. -/
theorem Written.alike (w : Written scope parent f s) (h : f.Alike f') :
    ∃ s', Written scope parent f' s' := by
  induction w generalizing f' with
  | binary _ _ ihl ihr =>
    cases h with
    | binary l r =>
      obtain ⟨_, wl⟩ := ihl l
      obtain ⟨_, wr⟩ := ihr r
      exact ⟨_, .binary wl wr⟩
  | not _ ih =>
    cases h with
    | not h =>
      obtain ⟨_, w⟩ := ih h
      exact ⟨_, .not w⟩
  | member hpath =>
    cases h
    exact ⟨_, .member hpath⟩
  | literal =>
    cases h
    exact ⟨_, .literal⟩
  | captured =>
    cases h
    exact ⟨_, .captured⟩
  | raw =>
    cases h
    exact ⟨_, .raw⟩
  | nonempty hpath =>
    cases h with
    | quantified h =>
      cases h
      exact ⟨_, .nonempty hpath⟩
  | quantified hpath named _ ih =>
    cases h with
    | quantified h =>
      cases h with
      | some h =>
        obtain ⟨_, w⟩ := ih h
        exact ⟨_, .quantified hpath named w⟩
  | test method fault _ _ ihr iha =>
    cases h with
    | call receiver operands =>
      cases receiver with
      | some receiver =>
        cases operands with
        | cons argument rest =>
          cases rest
          obtain ⟨_, wr⟩ := ihr receiver
          obtain ⟨_, wa⟩ := iha argument
          exact ⟨_, .test method (receiver.receiverFault? fault) wr wa⟩
  | map method single fault _ ih =>
    cases h with
    | call receiver operands =>
      obtain ⟨_, single', operand⟩ := single.alike receiver operands
      obtain ⟨_, w⟩ := ih operand
      exact ⟨_, .map method single' (operand.receiverFault? fault) w⟩
  | isNullOrEmpty method single _ ih =>
    cases h with
    | call receiver operands =>
      obtain ⟨_, single', operand⟩ := single.alike receiver operands
      obtain ⟨_, w⟩ := ih operand
      exact ⟨_, .isNullOrEmpty method single' w⟩
  | noItems method has =>
    cases h with
    | call receiver operands =>
      cases receiver with
      | some receiver =>
        cases operands with
        | cons argument rest =>
          cases rest
          obtain ⟨_, _, has', -, hitems⟩ := has.alike receiver argument
          cases hitems
          exact ⟨_, .noItems method has'⟩
  | isIn method has nonempty _ ih =>
    cases h with
    | call receiver operands =>
      cases receiver with
      | some receiver =>
        cases operands with
        | cons argument rest =>
          cases rest
          obtain ⟨_, items', has', hpath, hitems⟩ := has.alike receiver argument
          have nonempty' : items' ≠ [] := by
            rintro rfl
            exact nonempty (List.forall₂_nil_right_iff.mp hitems)
          obtain ⟨_, w⟩ := ih hpath
          exact ⟨_, .isIn method has' nonempty' w⟩

theorem Alike.exists_compile (h : f.Alike f') (hf : f.compile = .ok s) :
    ∃ s', f'.compile = .ok s' := by
  obtain ⟨_, w⟩ := exists_compile_iff_written.mp ⟨s, hf⟩
  exact exists_compile_iff_written.mpr (w.alike h)

end Filter

/-! ## Expansions -/

/-- To prove something of all expansions, prove it of each from what it expands. -/
@[elab_as_elim]
theorem Expansion.inductionOn {motive : Expansion → Prop} (e : Expansion)
    (mk : ∀ navigation select expand filters orderBy top skip, (∀ e ∈ expand, motive e) →
      motive (.mk navigation select expand filters orderBy top skip)) : motive e :=
  @Expansion.rec motive (fun expand => ∀ e ∈ expand, motive e) mk nofun
    (fun _ _ he hes => List.forall_mem_cons.mpr ⟨he, hes⟩) e

theorem Expansion.Alike.exists_render {e e' : Expansion} {s : String} (h : e.Alike e')
    (he : e.render = .ok s) : ∃ s', e'.render = .ok s' := by
  induction e using Expansion.inductionOn generalizing e' s with
  | mk navigation select expand filters orderBy top skip ih =>
    cases h with
    | mk expands filtered =>
      obtain ⟨nested, clauses, hnested, hclauses, -⟩ := render_eq_ok_iff.mp he
      obtain ⟨nested', hnested'⟩ := exists_mapM_of_forall₂ expands
        (fun e he _ _ hr hs => ih e he hr hs) hnested
      obtain ⟨clauses', hclauses'⟩ := exists_mapM_of_forall₂ filtered
        (fun _ _ _ _ hr hs => hr.exists_compile hs) hclauses
      exact ⟨_, render_eq_ok_iff.mpr ⟨nested', clauses', hnested', hclauses', rfl⟩⟩

/-! ## Drafts -/

namespace Query
namespace Draft
variable {d d' : Draft} {q : Query}

theorem build_eq_ok_iff : d.build = .ok q ↔ ∃ filters expand,
    d.filters.mapM Filter.compile = .ok filters ∧ d.expand.mapM Expansion.render = .ok expand ∧
    q = { d with filters, expand } := by
  rw [build]
  exact bind_bind_eq_ok_iff

theorem Alike.exists_build (h : d.Alike d') (hq : d.build = .ok q) : ∃ q', d'.build = .ok q' := by
  obtain ⟨filters, expand, hfilters, hexpand, -⟩ := build_eq_ok_iff.mp hq
  obtain ⟨filters', hfilters'⟩ := exists_mapM_of_forall₂ h.filters
    (fun _ _ _ _ hr hs => hr.exists_compile hs) hfilters
  obtain ⟨expand', hexpand'⟩ := exists_mapM_of_forall₂ h.expand
    (fun _ _ _ _ hr hs => hr.exists_render hs) hexpand
  exact ⟨_, build_eq_ok_iff.mpr ⟨filters', expand', hfilters', hexpand', rfl⟩⟩

/-- If the names hold no separator of a URL, and the strings none that would end their
part of it, the query holds none in a wrong place. -/
theorem Uses.separable (u : d.Uses (Lacks urlMarks) (Lacks pathMarks) (Lacks optionMarks))
    (hq : d.build = .ok q) : q.Separable := by
  obtain ⟨filters, expand, -, hexpand, rfl⟩ := build_eq_ok_iff.mp hq
  have hpath : pathMarks ⊆ urlMarks := by decide
  have hoption : optionMarks ⊆ urlMarks := by decide
  have comma : Lacks optionMarks "," := by decide
  refine ⟨?_, lacks_intercalate comma fun p hp => (u.select p hp).mono hoption,
    lacks_intercalate comma fun t ht => ?_, lacks_sortKeys hoption u.orderBy⟩
  · simp only [Query.path, lacks_append]
    refine ⟨⟨⟨u.entitySet.mono hpath, ?_⟩, ?_⟩, ?_⟩
    · split
      · next t ht =>
        exact lacks_append.mpr ⟨by decide, (u.derivedType t ht).mono hpath⟩
      · decide
    · split
      · next k hk =>
        simp only [lacks_append]
        exact ⟨⟨by decide, lacks_key hpath (u.key k hk)⟩, by decide⟩
      · decide
    · split
      · next f hf =>
        exact lacks_append.mpr ⟨by decide, lacks_call hpath (u.function f hf)⟩
      · decide
  · obtain ⟨e, he, hr⟩ := exists_of_mem_mapM hexpand ht
    exact lacks_expansion hoption (u.expand e he) hr

end Draft

theorem optionIf_names {name value : String} {present : Bool} :
    (optionIf name present value).map Prod.fst = if present then [name] else [] := by
  cases present <;> rfl

/-- Which options a query has depends on which lists are empty, not on what they say. -/
theorem options_names_congr {q q' : Query}
    (hfilters : q.filters.isEmpty = q'.filters.isEmpty)
    (hexpand : q.expand.isEmpty = q'.expand.isEmpty)
    (rest : q' = { q with
      key := q'.key, function := q'.function, filters := q'.filters, expand := q'.expand }) :
    q.options.map Prod.fst = q'.options.map Prod.fst := by
  rw [rest]
  simp only [options, List.map_append, optionIf_names, hfilters, hexpand]

namespace Draft
variable {d d' : Draft} {q q' : Query}

theorem build_isEmpty (hq : d.build = .ok q) :
    q.filters.isEmpty = d.filters.isEmpty ∧ q.expand.isEmpty = d.expand.isEmpty := by
  obtain ⟨filters, expand, hfilters, hexpand, rfl⟩ := build_eq_ok_iff.mp hq
  exact ⟨(isEmpty_eq_of_forall₂ (mapM_eq_ok_iff.mp hfilters)).symm,
    (isEmpty_eq_of_forall₂ (mapM_eq_ok_iff.mp hexpand)).symm⟩

theorem Alike.options_names (h : d.Alike d') (hq : d.build = .ok q) (hq' : d'.build = .ok q') :
    q.options.map Prod.fst = q'.options.map Prod.fst := by
  have hempty := build_isEmpty hq
  have hempty' := build_isEmpty hq'
  refine options_names_congr ?_ ?_ ?_
  · rw [hempty.1, hempty'.1, isEmpty_eq_of_forall₂ h.filters]
  · rw [hempty.2, hempty'.2, isEmpty_eq_of_forall₂ h.expand]
  · obtain ⟨filters, expand, -, -, rfl⟩ := build_eq_ok_iff.mp hq
    obtain ⟨filters', expand', -, -, rfl⟩ := build_eq_ok_iff.mp hq'
    rw [h.rest]

/-- **What stands in strings does not change which options a URL has.**  If names hold no
separator, strings in the path none that ends the path, and strings in expansions none
that ends an option, then of two drafts that are alike both have URLs, these fall into
their paths and options of the same names, and neither has a fragment. -/
theorem contents_keep_options (h : d.Alike d')
    (u : d.Uses (Lacks urlMarks) (Lacks pathMarks) (Lacks optionMarks))
    (u' : d'.Uses (Lacks urlMarks) (Lacks pathMarks) (Lacks optionMarks))
    (hq : d.build = .ok q) : ∃ q', d'.build = .ok q' ∧
      (UrlParts.ofText q.url).path = q.path ∧ (UrlParts.ofText q'.url).path = q'.path ∧
      (UrlParts.ofText q.url).options.map (List.map Prod.fst) =
        (UrlParts.ofText q'.url).options.map (List.map Prod.fst) ∧
      (UrlParts.ofText q.url).fragment = none ∧ (UrlParts.ofText q'.url).fragment = none := by
  obtain ⟨q', hq'⟩ := h.exists_build hq
  have hnames := h.options_names hq hq'
  have hempty : q.options.isEmpty = q'.options.isEmpty := by
    rw [← List.isEmpty_map (f := Prod.fst), hnames, List.isEmpty_map]
  refine ⟨q', hq', ?_⟩
  rw [(u.separable hq).ofText_url, (u'.separable hq').ofText_url, hempty]
  refine ⟨rfl, rfl, ?_, rfl, rfl⟩
  split
  · rfl
  · simpa [Function.comp_def] using hnames

/-- A product by a name, found under another one, with the parts of a third name. -/
def sample (key argument part filter : String) : Draft :=
  { ofSet "Products" with
    key := some (.single (.text key))
    function := some ⟨"Find", [("Name", .text argument)]⟩
    expand := [.mk "Parts" [] [] [Filter.compare "Name" .eq (.text part)] [] none none]
    filters := [Filter.compare "Name" .eq (.text filter)] }

section
variable {key key' argument argument' part part' filter filter' : String}

theorem alike_sample : (sample key argument part filter).Alike
    (sample key' argument' part' filter') where
  key := .some (.single .text)
  function := .some ⟨rfl, .cons ⟨rfl, .text⟩ .nil⟩
  filters := .cons (.binary .member (.literal .text)) .nil
  expand := .cons (.mk .nil (.cons (.binary .member (.literal .text)) .nil)) .nil
  rest := rfl

theorem uses_sample {name inPath inExpand : String → Prop}
    (names : ∀ n ∈ ["Products", "Find", "Name", "Parts"], name n) (hkey : inPath key)
    (hargument : inPath argument) (hpart : inExpand part) :
    (sample key argument part filter).Uses name inPath inExpand where
  entitySet := names "Products" (by decide)
  derivedType := nofun
  key := by
    rintro _ ⟨⟩ s hs
    obtain rfl := List.mem_singleton.mp hs
    exact hkey
  function := by
    rintro _ ⟨⟩
    refine ⟨names "Find" (by decide),
      List.forall_mem_singleton.mpr ⟨names "Name" (by decide), fun s hs => ?_⟩⟩
    obtain rfl := List.mem_singleton.mp hs
    exact hargument
  select := nofun
  expand := by
    refine List.forall_mem_singleton.mpr (.mk (names _ (by decide)) nofun nofun ?_ nofun)
    refine List.forall_mem_singleton.mpr (.binary (.member fun n hn => names n ?_) (.literal ?_))
    · have hpath : FilterText.pathNames (.ofEntity "Name") = ["Name"] := by decide
      rw [hpath] at hn
      rw [List.mem_singleton.mp hn]
      decide
    · intro s hs
      obtain rfl := List.mem_singleton.mp hs
      exact hpart
  orderBy := nofun

end

theorem buildUrl_of_build (h : d.build = .ok q) : d.buildUrl = .ok q.url := by
  rw [buildUrl, h]
  rfl

theorem exists_build_of_buildUrl {url : String} (h : d.buildUrl = .ok url) :
    ∃ q, d.build = .ok q ∧ q.url = url := by
  rw [buildUrl] at h
  cases hb : d.build with
  | error u =>
    rw [hb] at h
    cases h
  | ok q =>
    rw [hb] at h
    exact ⟨q, rfl, Except.ok.inj h⟩

/-- The URL of a sample without separators. -/
def sampleUrl : String :=
  "Products('a')/Find(name='b')?$filter=%28Name%20eq%20%27d%27%29" ++
    "&$expand=Parts($filter=(Name eq 'c'))"

theorem buildUrl_sample : (sample "a" "b" "c" "d").buildUrl = .ok sampleUrl := by decide +kernel

/-- Separators where they do no harm. -/
theorem contents_keep_options_sample : ∃ q q',
    (sample "a" "b" "c" "d").build = .ok q ∧ (sample "a&b" "&=" "?" "?#&'").build = .ok q' ∧
    q.url = sampleUrl ∧
    q'.url = "Products('a&b')/Find(name='&=')?$filter=%28Name%20eq%20%27%3F%23%26%27%27%27%29" ++
      "&$expand=Parts($filter=(Name eq '?'))" ∧
    (UrlParts.ofText q.url).options.map (List.map Prod.fst) =
      (UrlParts.ofText q'.url).options.map (List.map Prod.fst) ∧
    (UrlParts.ofText q'.url).fragment = none := by
  have halike : (sample "a" "b" "c" "d").Alike (sample "a&b" "&=" "?" "?#&'") := alike_sample
  have hbuild' : (sample "a&b" "&=" "?" "?#&'").buildUrl = .ok
      ("Products('a&b')/Find(name='&=')?$filter=%28Name%20eq%20%27%3F%23%26%27%27%27%29" ++
        "&$expand=Parts($filter=(Name eq '?'))") := by decide +kernel
  obtain ⟨q, hq, hurl⟩ := exists_build_of_buildUrl buildUrl_sample
  obtain ⟨q', hq', -, -, hnames, -, hfragment⟩ := contents_keep_options halike
    (uses_sample (by decide) (by decide) (by decide) (by decide))
    (uses_sample (by decide) (by decide) (by decide) (by decide)) hq
  have hurl' := (buildUrl_of_build hq').symm.trans hbuild'
  exact ⟨q, q', hq, hq', hurl, Except.ok.inj hurl', hnames, hfragment⟩

/-- What stands in strings does change the parts of a URL: the drafts have identifiers for
names and are alike, but the second URL has other options or a fragment. -/
structure Breaks (d d' : Draft) : Prop where
  alike : d.Alike d'
  uses : d.Uses FilterText.IsIdentifier (fun _ => True) (fun _ => True)
  uses' : d'.Uses FilterText.IsIdentifier (fun _ => True) (fun _ => True)
  breaks : ∃ url url', d.buildUrl = .ok url ∧ d'.buildUrl = .ok url' ∧
    ¬ ((UrlParts.ofText url).options.map (List.map Prod.fst) =
          (UrlParts.ofText url').options.map (List.map Prod.fst) ∧
        (UrlParts.ofText url').fragment = none)

theorem options_sampleUrl : (UrlParts.ofText sampleUrl).options.map (List.map Prod.fst) =
    some ["$filter", "$expand"] := by decide +kernel

theorem breaks_sample {key argument part filter url : String}
    (h : (sample key argument part filter).buildUrl = .ok url)
    (breaks : ¬ (some ["$filter", "$expand"] =
          (UrlParts.ofText url).options.map (List.map Prod.fst) ∧
        (UrlParts.ofText url).fragment = none)) :
    Breaks (sample "a" "b" "c" "d") (sample key argument part filter) where
  alike := alike_sample
  uses := uses_sample (by decide) trivial trivial trivial
  uses' := uses_sample (by decide) trivial trivial trivial
  breaks := ⟨sampleUrl, url, buildUrl_sample, h, by rwa [options_sampleUrl]⟩

/-- A question mark in the key, a number sign in an argument, and an ampersand in a filter
of an expansion. -/
theorem contents_break_options : Breaks (sample "a" "b" "c" "d") (sample "a?b" "b" "c" "d") ∧
    Breaks (sample "a" "b" "c" "d") (sample "a" "b#c" "c" "d") ∧
    Breaks (sample "a" "b" "c" "d") (sample "a" "b" "c&d" "d") := by
  have hkey : (sample "a?b" "b" "c" "d").buildUrl = .ok
      ("Products('a?b')/Find(name='b')?$filter=%28Name%20eq%20%27d%27%29" ++
        "&$expand=Parts($filter=(Name eq 'c'))") := by decide +kernel
  have hargument : (sample "a" "b#c" "c" "d").buildUrl = .ok
      ("Products('a')/Find(name='b#c')?$filter=%28Name%20eq%20%27d%27%29" ++
        "&$expand=Parts($filter=(Name eq 'c'))") := by decide +kernel
  have hpart : (sample "a" "b" "c&d" "d").buildUrl = .ok
      ("Products('a')/Find(name='b')?$filter=%28Name%20eq%20%27d%27%29" ++
        "&$expand=Parts($filter=(Name eq 'c&d'))") := by decide +kernel
  exact ⟨breaks_sample hkey (by decide +kernel), breaks_sample hargument (by decide +kernel),
    breaks_sample hpart (by decide +kernel)⟩

end Draft
end Query
end OData
