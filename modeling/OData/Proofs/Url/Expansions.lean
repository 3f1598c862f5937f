import OData.Proofs.FilterText.Closed
import OData.Proofs.SortKey.RoundTrip

/-! # Reading expansions back

The text of an expansion puts its options in parentheses and between semicolons, the
items of an option between commas, and each filter in parentheses of its own.  Filters
and nested expansions bring parentheses, commas and strings along.  They are closed, so
whoever cuts the text outside parentheses and strings finds the parts it was written of
(`read?_render`): at every level the navigation property, the options in their order and
what each of them lists.
-/
namespace OData

open Text

/-! ## What is read -/

/-- The parts of an expansion, with a text in place of each filter. -/
inductive ExpansionParts where
  | mk (navigation : String) (select : List String) (expand : List ExpansionParts)
    (clauses : List String) (orderBy : List SortKey) (top skip : Option Nat)
  deriving Repr

namespace Expansion

mutual

/-- The parts that the text of an expansion is written of. -/
def parts : Expansion → Except Filter.Unsupported ExpansionParts
  | mk navigation select expand filters orderBy top skip => do
    let expand ← partsOfAll expand
    let clauses ← filters.mapM Filter.compile
    return .mk navigation select expand clauses orderBy top skip
termination_by structural e => e

def partsOfAll : List Expansion → Except Filter.Unsupported (List ExpansionParts)
  | [] => return []
  | e :: es => do
    let p ← parts e
    return p :: (← partsOfAll es)
termination_by structural es => es

end

theorem partsOfAll_eq_mapM (es : List Expansion) : partsOfAll es = es.mapM parts := by
  induction es with
  | nil => rfl
  | cons e es ih => simp [partsOfAll, ih]

end Expansion

namespace ExpansionText

/-! ## The reader -/

/-- The text between two parentheses that belong together. -/
def ungroup? : List Char → Option (List Char)
  | '(' :: s => if s.getLast? = some ')' ∧ Closed [] s.dropLast then some s.dropLast else none
  | _ => none

/-- The names of the options, in the order in which they stand. -/
def optionNames : List String := ["$select", "$expand", "$filter", "$orderby", "$top", "$skip"]

/-- What stands in front of the value of an option. -/
def label (name : String) : List Char := name.toList ++ ['=']

/-- The values of the options with the names given, and what follows.  An option is
missing if another one stands in its place. -/
def takeOptions : List String → List (List Char) → List (Option (List Char)) × List (List Char)
  | [], os => ([], os)
  | name :: names, os =>
    match os.head?.bind (label name).isPrefixOf? with
    | some value =>
      let (values, rest) := takeOptions names os.tail
      (some value :: values, rest)
    | none =>
      let (values, rest) := takeOptions names os
      (none :: values, rest)

/-- The items of an option between commas; a missing option has none. -/
def readItems? {α : Type} (read : List Char → Option α) : Option (List Char) → Option (List α)
  | none => some []
  | some value => (cutOutside? ',' value).bind fun items => items.mapM read

/-- Clauses, each in parentheses, with the word `and` between them. -/
def clausesOf? : List (List Char) → Option (List String)
  | [clause] => (ungroup? clause).map fun c => [String.ofList c]
  | clause :: word :: rest =>
    if word = "and".toList then do
      let c ← ungroup? clause
      return String.ofList c :: (← clausesOf? rest)
    else none
  | [] => none

/-- The clauses of an option; a missing one has none. -/
def readClauses? : Option (List Char) → Option (List String)
  | none => some []
  | some value => (cutOutside? ' ' value).bind clausesOf?

/-- The number that an option has for its value, if it is there. -/
def readNumber? : Option (List Char) → Option (Option Nat)
  | none => some none
  | some value => (nat? value).map some

/-- What a text says in which expansions stand in each other at most so deep. -/
def readWithin? : Nat → List Char → Option ExpansionParts
  | 0, _ => none
  | depth + 1, text =>
    match cutFirst? '(' text with
    | none => some (.mk (String.ofList text) [] [] [] [] none none)
    | some (navigation, rest) => do
      let inside ← ungroup? ('(' :: rest)
      match takeOptions optionNames (← cutOutside? ';' inside) with
      | ([select, expand, filter, orderBy, top, skip], []) =>
        let select ← readItems? (some ∘ String.ofList) select
        let expand ← readItems? (readWithin? depth) expand
        let clauses ← readClauses? filter
        let orderBy ← readItems? (some ∘ SortKey.ofText ∘ String.ofList) orderBy
        return .mk (String.ofList navigation) select expand clauses orderBy (← readNumber? top)
          (← readNumber? skip)
      | _ => none

/-- What the text of an expansion says.  It is longer than the expansions in it are deep. -/
def read? (text : List Char) : Option ExpansionParts := readWithin? text.length text

/-! ## Names -/

/-- A name that shows where it ends: it has no delimiter and no white space. -/
structure IsSolid (s : String) : Prop where
  nonempty : s.toList ≠ []
  solid : ∀ c ∈ s.toList, isBlank c = false
  lacks : Lacks Filter.delimiters s

/-- A path of identifiers is one such name. -/
theorem isSolid_path (names : List String) (hne : names ≠ [])
    (h : ∀ n ∈ names, FilterText.IsName n.toList) : IsSolid (String.intercalate "/" names) := by
  have hchars : ∀ c ∈ (String.intercalate "/" names).toList,
      c = '/' ∨ FilterText.isNameChar c = true := by
    intro c hc
    rw [String.toList_intercalate] at hc
    rcases mem_intercalate hc with hc | ⟨l, hl, hc⟩
    · exact .inl (by simpa using hc)
    · obtain ⟨n, hn, rfl⟩ := List.mem_map.mp hl
      exact .inr ((h n hn).2.1 c hc)
  obtain ⟨n, names, rfl⟩ := List.exists_cons_of_ne_nil hne
  refine ⟨?_, fun c hc => ?_, fun c hc hmem => ?_⟩
  · obtain ⟨c, s, hn⟩ := List.exists_cons_of_ne_nil (h n (by simp)).1
    cases names <;> simp [String.intercalate_cons_cons, hn]
  · rcases hchars c hc with rfl | hc
    · rfl
    · have hword := FilterText.isWordChar_of_isNameChar hc
      simp_all [FilterText.isWordChar]
  · rcases hchars c hmem with rfl | hname
    · exact absurd hc (by decide)
    · have hdelimiters : ∀ c ∈ Filter.delimiters, FilterText.isNameChar c = false := by decide
      rw [hdelimiters c hc] at hname
      cases hname

/-- A sort key by a solid name is read back from its text. -/
theorem plain_of_isSolid {k : SortKey} (h : IsSolid k.property) : k.Plain where
  nonempty := h.nonempty
  trimmed := trimmed_of_solid h.solid
  ascending := by
    rintro - ⟨front, _, direction, -, hend⟩
    have hspace := h.solid ' ' (by simp [hend])
    cases hspace

/-! ## Options -/

/-- The texts of the options that are there. -/
def written (options : List (String × Option String)) : List (List Char) :=
  options.flatMap fun o => o.2.toList.map fun value => label o.1 ++ value.toList

theorem written_cons (o : String × Option String) (options : List (String × Option String)) :
    written (o :: options) =
      (o.2.toList.map fun value => label o.1 ++ value.toList) ++ written options := by
  rw [written, List.flatMap_cons]
  rfl

/-- One of two labels may start the text behind the other. -/
def Apart (name name' : String) : Prop :=
  ¬ label name <+: label name' ∧ ¬ label name' <+: label name

instance (name name' : String) : Decidable (Apart name name') :=
  inferInstanceAs (Decidable (_ ∧ _))

theorem takeOptions_written (options : List (String × Option String))
    (h : (options.map Prod.fst).Pairwise Apart) :
    takeOptions (options.map Prod.fst) (written options) =
      (options.map fun o => o.2.map String.toList, []) := by
  induction options with
  | nil => rfl
  | cons o options ih =>
    obtain ⟨name, value⟩ := o
    rw [List.map_cons, List.pairwise_cons] at h
    rw [written_cons, List.map_cons, List.map_cons, takeOptions]
    cases value with
    | some value =>
      have hvalue : (label name).isPrefixOf? (label name ++ value.toList) = some value.toList :=
        List.isPrefixOf?_eq_some_iff_append_eq.mpr rfl
      simp [hvalue, ih h.2]
    | none =>
      -- What follows starts with the label of another option.
      have hnone : (written options).head?.bind (label name).isPrefixOf? = none := by
        rw [Option.bind_eq_none_iff]
        intro text htext
        obtain ⟨o, ho, hmem⟩ := List.mem_flatMap.mp (List.mem_of_mem_head? htext)
        obtain ⟨value, -, rfl⟩ := List.mem_map.mp hmem
        rw [Option.eq_none_iff_forall_ne_some]
        intro rest hrest
        have hprefix : label name <+: label o.1 ++ value.toList :=
          ⟨rest, List.isPrefixOf?_eq_some_iff_append_eq.mp hrest⟩
        have hapart := h.1 o.1 (List.mem_map_of_mem ho)
        exact (List.prefix_or_prefix_of_prefix hprefix (List.prefix_append _ _)).elim
          hapart.1 hapart.2
      simp [hnone, ih h.2]

/-! ## Values -/

/-- The items of an option, if there are any. -/
def joined (items : List String) : Option String :=
  if items.isEmpty then none else some (String.intercalate "," items)

/-- Several clauses in one, if there are any. -/
def combined (clauses : List String) : Option String :=
  if clauses.isEmpty then none else some (combineFilters clauses)

theorem mapM_eq_some_of_forall₂ {α β : Type} {f : α → Option β} {as : List α} {bs : List β}
    (h : List.Forall₂ (fun a b => f a = some b) as bs) : as.mapM f = some bs := by
  induction h with
  | nil => rfl
  | cons ha _ ih => simp [ha, ih]

theorem readItems?_joined {α : Type} {read : List Char → Option α} {items : List String}
    {values : List α} (closed : ∀ t ∈ items, Closed [','] t.toList)
    (h : List.Forall₂ (fun t a => read t = some a) (items.map String.toList) values) :
    readItems? read ((joined items).map String.toList) = some values := by
  cases items with
  | nil =>
    cases h
    rfl
  | cons t items =>
    have hcut : cutOutside? ',' ([','].intercalate ((t :: items).map String.toList)) =
        some ((t :: items).map String.toList) := by
      refine cutOutside?_intercalate (by simp) fun p hp => ?_
      obtain ⟨t, ht, rfl⟩ := List.mem_map.mp hp
      exact closed t ht
    have hvalue : (joined (t :: items)).map String.toList =
        some ([','].intercalate ((t :: items).map String.toList)) := by
      simp [joined, String.toList_intercalate]
    rw [hvalue, readItems?, hcut, Option.bind_some, mapM_eq_some_of_forall₂ h]

theorem ungroup?_group {marks text : List Char} (h : Closed marks text) :
    ungroup? ('(' :: (text ++ [')'])) = some text := by
  have hclosed := h.mono (List.nil_subset _)
  simp [ungroup?, hclosed]

theorem closed_combineFilters {clauses : List String} (closed : ∀ c ∈ clauses, Closed [] c.toList) :
    Closed [';'] (combineFilters clauses).toList := by
  rw [combineFilters, String.toList_intercalate, List.map_map]
  refine closed_intercalate (by decide) fun p hp => ?_
  obtain ⟨c, hc, rfl⟩ := List.mem_map.mp hp
  simpa using (Filter.closed_group (closed c hc)).mono (by decide : [';'] ⊆ Filter.separators)

/-- Clauses in parentheses fall apart at the spaces around the words between them. -/
theorem exists_clauses {clauses : List String} (hne : clauses ≠ [])
    (closed : ∀ c ∈ clauses, Closed [] c.toList) : ∃ pieces, pieces ≠ [] ∧
      (combineFilters clauses).toList = [' '].intercalate pieces ∧
      (∀ p ∈ pieces, Closed [' '] p) ∧ clausesOf? pieces = some clauses := by
  induction clauses with
  | nil => exact absurd rfl hne
  | cons c clauses ih =>
    rw [List.forall_mem_cons] at closed
    have hgroup : Closed [' '] ('(' :: (c.toList ++ [')'])) := closed.1.group (by decide)
    have hungroup := ungroup?_group closed.1
    cases clauses with
    | nil =>
      refine ⟨['(' :: (c.toList ++ [')'])], by simp, by simp [combineFilters], ?_, ?_⟩
      · simpa using hgroup
      · simp [clausesOf?, hungroup]
    | cons d clauses =>
      obtain ⟨pieces, hpieces, htext, hclosed, hread⟩ := ih (by simp) closed.2
      obtain ⟨p, pieces, rfl⟩ := List.exists_cons_of_ne_nil hpieces
      refine ⟨('(' :: (c.toList ++ [')'])) :: "and".toList :: p :: pieces, by simp, ?_, ?_, ?_⟩
      · have hcombine : (combineFilters (c :: d :: clauses)).toList =
            '(' :: (c.toList ++ ')' :: ' ' :: ("and".toList ++
              ' ' :: (combineFilters (d :: clauses)).toList)) := by
          simp [combineFilters, String.intercalate_cons_cons]
        rw [hcombine, htext, List.intercalate_cons_cons, List.intercalate_cons_cons]
        simp
      · have hand : Closed [' '] "and".toList := by decide
        rintro q (_ | ⟨_, _ | ⟨_, hq⟩⟩)
        · exact hgroup
        · exact hand
        · exact hclosed q hq
      · simp [clausesOf?, hungroup, hread]

theorem readClauses?_combined {clauses : List String} (closed : ∀ c ∈ clauses, Closed [] c.toList) :
    readClauses? ((combined clauses).map String.toList) = some clauses := by
  cases clauses with
  | nil => rfl
  | cons c clauses =>
    obtain ⟨pieces, hne, htext, hclosed, hread⟩ := exists_clauses (by simp) closed
    have hvalue : (combined (c :: clauses)).map String.toList = some ([' '].intercalate pieces) := by
      simp [combined, ← htext]
    rw [hvalue, readClauses?, cutOutside?_intercalate hne hclosed, Option.bind_some, hread]

theorem readNumber?_toString (n : Option Nat) :
    readNumber? ((n.map toString).map String.toList) = some n := by
  cases n with
  | none => rfl
  | some n => simp [readNumber?, nat?_toDigits]

/-! ## The parts of a text -/

/-- The options of an expansion, each with its value if it has one. -/
def optionTexts (select nested clauses : List String) (orderBy : List SortKey)
    (top skip : Option Nat) : List (String × Option String) :=
  [("$select", joined select), ("$expand", joined nested), ("$filter", combined clauses),
    ("$orderby", joined (orderBy.map SortKey.toText)), ("$top", top.map toString),
    ("$skip", skip.map toString)]

variable {navigation : String} {select nested clauses : List String} {orderBy : List SortKey}
  {top skip : Option Nat} {expand : List ExpansionParts}

theorem written_optionTexts : written (optionTexts select nested clauses orderBy top skip) =
    (Expansion.optionsOf select nested clauses orderBy top skip).map String.toList := by
  have option : ∀ name present value, (namedOption name present value).map String.toList =
      (if present then some value else none : Option String).toList.map fun v =>
        label name ++ v.toList := by
    intro name present value
    cases present <;> simp [namedOption, label]
  have joined' : ∀ items : List String, joined items =
      if !items.isEmpty then some (String.intercalate "," items) else none := by
    intro items
    cases items <;> rfl
  have combined' : combined clauses =
      if !clauses.isEmpty then some (combineFilters clauses) else none := by
    cases clauses <;> rfl
  have number : ∀ n : Option Nat, n.map toString =
      if n.isSome then some (toString (n.getD 0)) else none := by
    intro n
    cases n <;> rfl
  have sorted : (orderBy.map SortKey.toText).isEmpty = orderBy.isEmpty := by
    cases orderBy <;> rfl
  simp only [optionTexts, written, List.flatMap_cons, List.flatMap_nil, Expansion.optionsOf,
    List.map_append, option, joined', combined', number, sorted, SortKey.render, List.append_nil,
    List.append_assoc]

/-- The values of the options are closed, apart from the commas in them. -/
theorem closed_optionTexts (hselect : ∀ t ∈ select, Closed [';'] t.toList)
    (hnested : ∀ t ∈ nested, Closed [';'] t.toList) (hclauses : ∀ c ∈ clauses, Closed [] c.toList)
    (horderBy : ∀ k ∈ orderBy, Closed [';'] k.toText.toList) :
    ∀ p ∈ written (optionTexts select nested clauses orderBy top skip), Closed [';'] p := by
  have items : ∀ {texts : List String}, (∀ t ∈ texts, Closed [';'] t.toList) →
      ∀ v, joined texts = some v → Closed [';'] v.toList := by
    intro texts h v hv
    rw [joined] at hv
    split at hv
    · cases hv
    · obtain rfl := Option.some.inj hv
      rw [String.toList_intercalate]
      refine closed_intercalate (by decide) fun p hp => ?_
      obtain ⟨t, ht, rfl⟩ := List.mem_map.mp hp
      exact h t ht
  have filter : ∀ v, combined clauses = some v → Closed [';'] v.toList := by
    intro v hv
    rw [combined] at hv
    split at hv
    · cases hv
    · obtain rfl := Option.some.inj hv
      exact closed_combineFilters hclauses
  have number : ∀ (n : Option Nat) v, n.map toString = some v → Closed [';'] v.toList := by
    intro n v hv
    obtain ⟨k, rfl, rfl⟩ := Option.map_eq_some_iff.mp hv
    have hlacks : Lacks Filter.delimiters (toString k) := Query.lacks_toString k (by decide)
    exact (Filter.closed_of_lacks hlacks).mono (by decide)
  have sorts : ∀ t ∈ orderBy.map SortKey.toText, Closed [';'] t.toList := by
    intro t ht
    obtain ⟨k, hk, rfl⟩ := List.mem_map.mp ht
    exact horderBy k hk
  have values : ∀ o ∈ optionTexts select nested clauses orderBy top skip,
      ∀ v, o.2 = some v → Closed [';'] v.toList := by
    simp only [optionTexts, List.forall_mem_cons]
    exact ⟨items hselect, items hnested, filter, items sorts, number top, number skip, nofun⟩
  have labels : ∀ name ∈ optionNames, Closed [';'] (label name) := by decide
  intro p hp
  obtain ⟨o, ho, hmem⟩ := List.mem_flatMap.mp hp
  obtain ⟨v, hv, rfl⟩ := List.mem_map.mp hmem
  have hname : o.1 ∈ optionNames := List.mem_map_of_mem (f := Prod.fst) ho
  exact (labels o.1 hname).append (values o ho v (Option.mem_toList.mp hv))

/-- The text is closed and says these parts. -/
structure Says (text : List Char) (p : ExpansionParts) : Prop where
  closed : Closed Filter.separators text
  reads : ∀ depth, text.length ≤ depth → readWithin? depth text = some p

theorem IsSolid.closed {s : String} (h : IsSolid s) : Closed Filter.separators s.toList :=
  Filter.closed_of_lacks h.lacks

theorem closed_toText {k : SortKey} (h : IsSolid k.property) :
    Closed Filter.separators k.toText.toList := by
  have hdesc : Closed Filter.separators " desc".toList := by decide
  rw [SortKey.toText]
  split
  · simpa using h.closed.append hdesc
  · exact h.closed

/-- An expansion without options is its navigation property. -/
theorem says_navigation (h : IsSolid navigation) :
    Says navigation.toList (.mk navigation [] [] [] [] none none) := by
  refine ⟨h.closed, fun depth hdepth => ?_⟩
  have hpos := List.length_pos_iff.mpr h.nonempty
  obtain ⟨depth, rfl⟩ : ∃ d, depth = d + 1 := ⟨depth - 1, by omega⟩
  rw [readWithin?, cutFirst?_of_not_mem (h.lacks '(' (by decide)), String.ofList_toList]

theorem exists_of_mem_forall₂ {α β : Type} {R : α → β → Prop} {as : List α} {bs : List β} {a : α}
    (h : List.Forall₂ R as bs) (ha : a ∈ as) : ∃ b, R a b := by
  induction h with
  | nil => cases ha
  | cons hab _ ih =>
    rcases List.mem_cons.mp ha with rfl | ha
    · exact ⟨_, hab⟩
    · exact ih ha

/-- An expansion with options says what its options say. -/
theorem says_options (h : IsSolid navigation) (hselect : ∀ t ∈ select, IsSolid t)
    (hnested : List.Forall₂ Says (nested.map String.toList) expand)
    (hclauses : ∀ c ∈ clauses, Closed [] c.toList) (horderBy : ∀ k ∈ orderBy, IsSolid k.property)
    (hne : written (optionTexts select nested clauses orderBy top skip) ≠ []) :
    Says (navigation.toList ++ '(' :: ([';'].intercalate
        (written (optionTexts select nested clauses orderBy top skip)) ++ [')']))
      (.mk navigation select expand clauses orderBy top skip) := by
  have hoptions : ∀ p ∈ written (optionTexts select nested clauses orderBy top skip),
      Closed [';'] p := by
    refine closed_optionTexts (fun t ht => ?_) (fun t ht => ?_) hclauses fun k hk => ?_
    · exact (hselect t ht).closed.mono (by decide)
    · obtain ⟨p, hp⟩ := exists_of_mem_forall₂ hnested (List.mem_map_of_mem ht)
      exact hp.closed.mono (by decide)
    · exact (closed_toText (horderBy k hk)).mono (by decide)
  have hinside := closed_intercalate (by decide : Closed [] [';'])
    fun p hp => (hoptions p hp).mono (List.nil_subset _)
  refine ⟨h.closed.append (hinside.group (by decide)), fun depth hdepth => ?_⟩
  obtain ⟨depth, rfl⟩ : ∃ d, depth = d + 1 := ⟨depth - 1, by simp at hdepth; omega⟩
  have hlength : ∀ t ∈ nested.map String.toList, t.length ≤ depth := by
    intro t ht
    have hvalue : joined nested = some (String.intercalate "," nested) := by
      rw [joined, if_neg]
      rintro hempty
      simp [List.isEmpty_iff.mp hempty] at ht
    have hmem : label "$expand" ++ (String.intercalate "," nested).toList ∈
        written (optionTexts select nested clauses orderBy top skip) :=
      List.mem_flatMap.mpr ⟨("$expand", joined nested), by simp [optionTexts], by simp [hvalue]⟩
    have houter := @length_le_of_mem_intercalate [';'] _ _ hmem
    have hinner := @length_le_of_mem_intercalate [','] _ _ ht
    simp only [String.toList_intercalate, List.length_append, List.length_cons] at houter hdepth
    rw [show ",".toList = [','] from rfl] at houter
    omega
  have hselect' : readItems? (some ∘ String.ofList) ((joined select).map String.toList) =
      some select := by
    refine readItems?_joined (fun t ht => (hselect t ht).closed.mono (by decide)) ?_
    exact List.forall₂_map_left_iff.mpr (List.forall₂_same.mpr fun t _ => by simp)
  have hnested' : readItems? (readWithin? depth) ((joined nested).map String.toList) =
      some expand := by
    refine readItems?_joined (fun t ht => ?_) ?_
    · obtain ⟨p, hp⟩ := exists_of_mem_forall₂ hnested (List.mem_map_of_mem ht)
      exact hp.closed.mono (by decide)
    · exact ((List.forall₂_and_left _ _).mpr ⟨hlength, hnested⟩).imp fun t p h => h.2.reads depth h.1
  have horderBy' : readItems? (some ∘ SortKey.ofText ∘ String.ofList)
      ((joined (orderBy.map SortKey.toText)).map String.toList) = some orderBy := by
    refine readItems?_joined (fun t ht => ?_) ?_
    · obtain ⟨k, hk, rfl⟩ := List.mem_map.mp ht
      exact (closed_toText (horderBy k hk)).mono (by decide)
    · rw [List.map_map]
      refine List.forall₂_map_left_iff.mpr (List.forall₂_same.mpr fun k hk => ?_)
      simp [SortKey.ofText_toText (plain_of_isSolid (horderBy k hk))]
  have hapart : optionNames.Pairwise Apart := by decide
  have htake : takeOptions optionNames (written (optionTexts select nested clauses orderBy top skip))
      = ([(joined select).map String.toList, (joined nested).map String.toList,
        (combined clauses).map String.toList,
        (joined (orderBy.map SortKey.toText)).map String.toList,
        (top.map toString).map String.toList, (skip.map toString).map String.toList], []) :=
    takeOptions_written (optionTexts select nested clauses orderBy top skip) hapart
  rw [readWithin?, cutFirst?_joint (h.lacks '(' (by decide))]
  simp only [ungroup?_group hinside, cutOutside?_intercalate hne hoptions, htake, hselect',
    hnested', horderBy', readClauses?_combined hclauses, readNumber?_toString,
    Option.bind_eq_bind, Option.bind_some, String.ofList_toList]
  rfl

theorem eq_nil_of_written (h : written (optionTexts select nested clauses orderBy top skip) = []) :
    select = [] ∧ nested = [] ∧ clauses = [] ∧ orderBy = [] ∧ top = none ∧ skip = none := by
  simpa [written, optionTexts, joined, combined] using h

/-! ## Whole expansions -/

/-- Lists whose items are related one by one, through the items of a third list. -/
theorem exists_forall₂ {α β γ : Type} {R : α → β → Prop} {P : α → γ → Prop} {Q : β → γ → Prop}
    {as : List α} {bs : List β} (h : List.Forall₂ R as bs)
    (step : ∀ a ∈ as, ∀ b, R a b → ∃ c, P a c ∧ Q b c) :
    ∃ cs, List.Forall₂ P as cs ∧ List.Forall₂ Q bs cs := by
  induction h with
  | nil => exact ⟨[], .nil, .nil⟩
  | @cons a b as bs hab _ ih =>
    rw [List.forall_mem_cons] at step
    obtain ⟨c, hac, hbc⟩ := step.1 b hab
    obtain ⟨cs, has, hbs⟩ := ih step.2
    exact ⟨c :: cs, .cons hac has, .cons hbc hbs⟩

/-- The text of an expansion says its parts.  The induction is on the tree: the nested
texts are closed, so they are cut apart at the commas between them. -/
theorem exists_says_render {content : String → Prop} {e : Expansion} {s : String}
    (u : e.Uses IsSolid content) (hs : e.render = .ok s) :
    ∃ p, e.parts = .ok p ∧ Says s.toList p := by
  induction u generalizing s with
  | @mk navigation select expand filters orderBy top skip navigates selects expands filtered sorts
      ih =>
    obtain ⟨nested, clauses, hnested, hclauses, rfl⟩ := Expansion.render_eq_ok_iff.mp hs
    obtain ⟨parts, hparts, hsays⟩ := exists_forall₂ (mapM_eq_ok_iff.mp hnested)
      fun e he t ht => ih e he ht
    have hclosed : ∀ c ∈ clauses, Closed [] c.toList := by
      intro c hc
      obtain ⟨f, hf, hcompile⟩ := exists_of_mem_mapM hclauses hc
      exact (Filter.closed_compile (fun _ h => h.lacks) hcompile (filtered f hf)).mono
        (List.nil_subset _)
    refine ⟨.mk navigation select parts clauses orderBy top skip, ?_, ?_⟩
    · rw [Expansion.parts, Expansion.partsOfAll_eq_mapM]
      exact bind_bind_eq_ok_iff.mpr ⟨parts, clauses, mapM_eq_ok_iff.mpr hparts, hclauses, rfl⟩
    · have hwritten : written (optionTexts select nested clauses orderBy top skip) = _ :=
        written_optionTexts
      split
      · next hempty =>
        rw [List.isEmpty_iff.mp hempty, List.map_nil] at hwritten
        obtain ⟨rfl, rfl, rfl, rfl, rfl, rfl⟩ := eq_nil_of_written hwritten
        cases hsays
        exact says_navigation navigates
      · next hne =>
        have hne' : written (optionTexts select nested clauses orderBy top skip) ≠ [] := by
          rw [hwritten]
          simpa using hne
        have hsays := says_options navigates selects (List.forall₂_map_left_iff.mpr hsays) hclosed
          sorts hne'
        rw [hwritten] at hsays
        simpa [String.toList_intercalate] using hsays

/-- **Expansions read back.**  If the names of an expansion show where they end and its
filters have no raw text, then its text, if it has one, says what the expansion is made
of: at every level the navigation property, the items of every option in their order and
the text of each filter, whatever stands in the strings of the filters. -/
theorem read?_render {content : String → Prop} {e : Expansion} {s : String}
    (u : e.Uses IsSolid content) (hs : e.render = .ok s) :
    ∃ p, e.parts = .ok p ∧ read? s.toList = some p := by
  obtain ⟨p, hparts, hsays⟩ := exists_says_render u hs
  exact ⟨p, hparts, hsays.reads _ (Nat.le_refl _)⟩

/-- Orders with their lines, where strings hold what separates the parts of a text. -/
def orderLines : Expansion :=
  .mk "Orders" ["Id", "Address/City"]
    [.mk "Lines" [] [.ofNavigation "Product"] [.contains "Note" (.text "a;b,c")] [] (some 3) none]
    [.compare "Name" .eq (.text "') and ("), .isIn "Code" [.text "x)", .list [.int 1, .int 2]]]
    [.descendingBy "Date", .ascendingBy "Id"] none (some 5)

/-- The text of the orders. -/
def orderLinesText : String :=
  "Orders($select=Id,Address/City;" ++
    "$expand=Lines($expand=Product;$filter=(contains(Note,'a;b,c'));$top=3);" ++
    "$filter=(Name eq ''') and (') and (Code in ('x)',(1,2)));$orderby=Date desc,Id;$skip=5)"

/-- The orders are read back. -/
theorem read?_render_orderLines : orderLines.render = .ok orderLinesText ∧
    ∃ p, orderLines.parts = .ok p ∧ read? orderLinesText.toList = some p := by
  have text : orderLines.render.toOption = some orderLinesText := by decide +kernel
  have hs : orderLines.render = .ok orderLinesText := by
    cases h : orderLines.render <;> simp_all [Except.toOption]
  have solid : ∀ n, FilterText.IsName n.toList → IsSolid n := fun n hn => by
    simpa using isSolid_path [n] (by simp) (by simpa using hn)
  have city : IsSolid "Address/City" :=
    isSolid_path ["Address", "City"] (by simp) (by decide)
  have field : ∀ n, FilterText.pathNames (.ofEntity n) = [n] → FilterText.IsName n.toList →
      (Filter.field n).Uses IsSolid fun _ => True := by
    intro n hpath hn
    refine .member fun m hm => ?_
    rw [hpath, List.mem_singleton] at hm
    exact hm ▸ solid n hn
  have value : ∀ v, (Filter.literal v).Uses IsSolid fun _ => True := fun v =>
    .literal fun _ _ => trivial
  have call : ∀ n method v, FilterText.pathNames (.ofEntity n) = [n] → FilterText.IsName n.toList →
      ((Filter.field n).on method [.literal v]).Uses IsSolid fun _ => True := by
    intro n method v hpath hn
    refine .call fun g hg => ?_
    rcases List.mem_cons.mp hg with rfl | hg
    · exact field n hpath hn
    · exact List.mem_singleton.mp hg ▸ value v
  have product : (Expansion.ofNavigation "Product").Uses IsSolid fun _ => True :=
    .mk (solid _ (by decide)) (List.forall_mem_nil _) (List.forall_mem_nil _)
      (List.forall_mem_nil _) (List.forall_mem_nil _)
  have uses : orderLines.Uses IsSolid fun _ => True := by
    refine .mk (solid _ (by decide)) ?_ ?_ ?_ ?_
    · simpa using ⟨solid "Id" (by decide), city⟩
    · rw [List.forall_mem_singleton]
      refine .mk (solid _ (by decide)) (List.forall_mem_nil _) ?_ ?_ (List.forall_mem_nil _)
      · simpa using product
      · rw [List.forall_mem_singleton]
        exact call "Note" "contains" _ (by decide +kernel) (by decide)
    · simp only [List.forall_mem_cons]
      exact ⟨.binary (field "Name" (by decide +kernel) (by decide)) (value _),
        call "Code" "in" _ (by decide +kernel) (by decide), List.forall_mem_nil _⟩
    · simpa using ⟨solid "Date" (by decide), solid "Id" (by decide)⟩
  exact ⟨hs, read?_render uses hs⟩

/-- Expansions with one text are made of the same parts. -/
theorem parts_eq_of_render_eq {content content' : String → Prop} {e e' : Expansion} {s : String}
    (u : e.Uses IsSolid content) (u' : e'.Uses IsSolid content') (hs : e.render = .ok s)
    (hs' : e'.render = .ok s) : e.parts = e'.parts := by
  obtain ⟨p, hparts, hsays⟩ := exists_says_render u hs
  obtain ⟨p', hparts', hsays'⟩ := exists_says_render u' hs'
  have hread := hsays.reads _ (Nat.le_refl _)
  rw [hsays'.reads _ (Nat.le_refl _)] at hread
  rw [hparts, hparts', Option.some.inj hread]

end ExpansionText
end OData
