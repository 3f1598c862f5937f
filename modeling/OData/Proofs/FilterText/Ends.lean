import OData.Proofs.Text.Balance
import OData.Proofs.Url.Expansions

/-! # Where filter text ends

The text of a filter stands in parentheses between other clauses, and these stand among the
options of an expansion.  Nobody who reads such a text knows how long a filter in it is.  What
shows is the first parenthesis that closes more than was opened, or the first comma or
semicolon outside parentheses and strings.  Filter text has neither, so it ends where it was
written to end, whatever follows (`ShowsItsEnd`).
-/
namespace OData
namespace Filter

open Text ExpansionText

/-- The longest front of a text that closes only what is open and has no separator outside,
from a place on where `n` is open, and the rest. -/
def expressionFrom : Nest → List Char → List Char × List Char
  | _, [] => ([], [])
  | n, c :: s =>
    match Nest.pass separators n c with
    | none => ([], c :: s)
    | some m => (expressionFrom m s).map (c :: ·) id

/-- The expression at the front of a text, and the rest. -/
def splitExpression (s : List Char) : List Char × List Char := expressionFrom .outside s

/-- Option texts between semicolons, one of which has the name and the value given, fall apart
at these semicolons. -/
def IsOneOption (name value : String) : Prop :=
  ∀ before after : List (List Char), (∀ o ∈ before ++ after, Closed [';'] o) →
    cutOutside? ';' ([';'].intercalate (before ++ (label name ++ value.toList) :: after)) =
      some (before ++ (label name ++ value.toList) :: after)

/-- A text that shows where it ends: at the end or in front of a closing parenthesis or a
separator, as one of several clauses, and as one of several options, alone or among clauses. -/
structure ShowsItsEnd (s : String) : Prop where
  expression : ∀ rest, (∀ c ∈ rest.head?, c ∈ ')' :: separators) →
    splitExpression (s.toList ++ rest) = (s.toList, rest)
  clause : ∀ before after : List String, (∀ t ∈ before ++ after, Closed [] t.toList) →
    readClauses? (some (combineFilters (before ++ s :: after)).toList) =
      some (before ++ s :: after)
  option : ∀ name ∈ optionNames, IsOneOption name s
  filterOption : ∀ before after : List String, (∀ t ∈ before ++ after, Closed [] t.toList) →
    IsOneOption "$filter" (combineFilters (before ++ s :: after))

variable {n m : Nest} {s : List Char}

/-- Text without a separator outside is the front of the expression. -/
theorem expressionFrom_append (h : Nest.through separators n s = some m) (rest : List Char) :
    expressionFrom n (s ++ rest) = (expressionFrom m rest).map (s ++ ·) id := by
  induction s generalizing n with
  | nil =>
    obtain rfl : n = m := Option.some.inj h
    rfl
  | cons c s ih =>
    rw [Nest.through_cons] at h
    obtain ⟨k, hpass, h⟩ := Option.bind_eq_some_iff.mp h
    rw [List.cons_append, expressionFrom, hpass]
    dsimp only
    rw [ih h]
    rfl

theorem splitExpression_append (h : Closed separators s) {rest : List Char}
    (hrest : ∀ c ∈ rest.head?, c ∈ ')' :: separators) :
    splitExpression (s ++ rest) = (s, rest) := by
  have hend : expressionFrom .outside rest = ([], rest) := by
    cases rest with
    | nil => rfl
    | cons c rest =>
      have hnone : Nest.pass separators .outside c = none :=
        Nest.pass_eq_none_iff.mpr ⟨rfl, hrest c rfl⟩
      rw [expressionFrom, hnone]
  rw [splitExpression, expressionFrom_append h, hend]
  simp

/-- What holds of an element and of all around it. -/
theorem forall_mem_between {α : Type} {P : α → Prop} {a : α} {before after : List α} (ha : P a)
    (h : ∀ x ∈ before ++ after, P x) : ∀ x ∈ before ++ a :: after, P x := by
  rw [List.forall_mem_append] at h ⊢
  exact ⟨h.1, List.forall_mem_cons.mpr ⟨ha, h.2⟩⟩

theorem isOneOption {name value : String} (hname : name ∈ optionNames)
    (h : Closed [';'] value.toList) : IsOneOption name value := by
  have labels : ∀ name ∈ optionNames, Closed [';'] (label name) := by decide
  intro before after others
  exact cutOutside?_intercalate (by simp)
    (forall_mem_between ((labels name hname).append h) others)

theorem showsItsEnd_of_closed {s : String} (h : Closed separators s.toList) : ShowsItsEnd s := by
  have hclosed : Closed [] s.toList := h.mono (List.nil_subset _)
  refine ⟨?expression, ?clause, ?option, ?filterOption⟩
  case expression => exact fun rest => splitExpression_append h
  case clause =>
    intro before after others
    have hread := readClauses?_combined (forall_mem_between hclosed others)
    have hne : (before ++ s :: after).isEmpty = false := by simp
    rwa [combined, hne] at hread
  case option =>
    exact fun name hname => isOneOption hname (h.mono (by decide))
  case filterOption =>
    intro before after others
    exact isOneOption (by decide) (closed_combineFilters (forall_mem_between hclosed others))

/-- **Filter text is lexically closed.**  The quotes and the parentheses of a filter's text
pair up, and its commas and semicolons stand inside them, if the filter has no raw text and
its names have none of these characters.  Its values are arbitrary.  So its text shows where it
ends wherever it is put. -/
theorem compile_showsItsEnd {f : Filter} {s : String} (h : f.compile = .ok s)
    (u : f.Uses (Lacks delimiters) fun _ => True) :
    Balanced separators s.toList ∧ ShowsItsEnd s := by
  have hclosed : Closed separators s.toList := closed_compile (fun _ hn => hn) h u
  exact ⟨hclosed.balanced, showsItsEnd_of_closed hclosed⟩

/-- Some property is in a list with a list in it, and some element has a captured text in its
name; the texts are full of what could end them. -/
def brimming : Filter :=
  .binary .and
    (.call (some (.member ⟨.entity, ["Tag"]⟩)) "in"
      [.literal (.list [.text "it's (1,2;", .list [.int 1, .text ")"]])])
    (.quantified .any ⟨.entity, ["Items"]⟩ "i"
      (some (.call (some (.member ⟨.bound "i", ["Name"]⟩)) "contains"
        [.captured ⟨0, .text "a),';"⟩])))

theorem compile_showsItsEnd_brimming :
    brimming.compile =
      .ok "Tag in ('it''s (1,2;',(1,')')) and Items/any(i: contains(i/Name,'a),'';'))" ∧
    Balanced separators
      "Tag in ('it''s (1,2;',(1,')')) and Items/any(i: contains(i/Name,'a),'';'))".toList ∧
    ShowsItsEnd "Tag in ('it''s (1,2;',(1,')')) and Items/any(i: contains(i/Name,'a),'';'))" := by
  have text : brimming.compile =
      .ok "Tag in ('it''s (1,2;',(1,')')) and Items/any(i: contains(i/Name,'a),'';'))" := by
    decide +kernel
  have uses : brimming.Uses (Lacks delimiters) fun _ => True := by
    refine .binary (.call ?_) (.quantified (by decide) (fun _ => by decide) ?_)
    · simp only [Option.toList_some, List.singleton_append, List.forall_mem_cons]
      exact ⟨.member (by decide), .literal fun _ _ => trivial, List.forall_mem_nil _⟩
    · rintro _ ⟨⟩
      refine .call ?_
      simp only [Option.toList_some, List.singleton_append, List.forall_mem_cons]
      exact ⟨.member (by decide), .captured fun _ _ => trivial, List.forall_mem_nil _⟩
  exact ⟨text, compile_showsItsEnd text uses⟩

end Filter
end OData
