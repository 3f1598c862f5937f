import OData.Proofs.FilterText.Written
import OData.Proofs.Text.Elements
import OData.Proofs.Url.Marks

/-! # Lists of literals are read back

Literals stand beside each other in three places: in the list of a membership, in a key
with several parts and among the arguments of a function.  Each is a list to a reader who
knows of commas and quotes only (`Text.elements`), and such a reader finds the literals
that were written (`lists_read_back`): whatever a string contains, it does not end its
literal and adds no element.  Names are written as they are, so this asks of them
that they hold no quotes and commas (`elements_of_names`).
-/
namespace OData

open FilterText (IsScalar)

namespace Literal

/-- The element is the literal's own text and, if that is quoted, gives back what was
quoted. -/
structure Restores (element : List Char) (v : Literal) : Prop where
  text : element = v.render.toList
  content : ∀ s ∈ v.contents, Text.unquoted element = s.toList

variable {v : Literal} {items : List Literal}

theorem restores_render (h : IsScalar v) : Restores v.render.toList v := by
  refine ⟨rfl, ?_⟩
  cases v with
  | text s =>
    rw [contents, List.forall_mem_singleton, render]
    exact Text.unquoted_quoted s
  | enumMember name =>
    rw [contents, List.forall_mem_singleton, render]
    exact Text.unquoted_quoted name
  | list _ => exact h.elim
  | _ => exact nofun

theorem whole_of_bare (h : FilterText.IsBare v) : Text.Whole v.render.toList := by
  have hlacks : Lacks ['\'', ','] v.render :=
    lacks_of_forall (FilterText.isBareChar_of_mem_render h) (by decide)
  exact Text.whole_of_plain (hlacks '\'' (by simp)) (hlacks ',' (by simp))

/-- A literal that is no list keeps its quotes and commas to itself. -/
theorem whole_render (h : IsScalar v) : Text.Whole v.render.toList := by
  cases v with
  | text s =>
    rw [render]
    exact Text.whole_quoted s
  | enumMember name =>
    rw [render]
    exact Text.whole_quoted name
  | list _ => exact h.elim
  | _ => exact whole_of_bare trivial

theorem render_ne_nil (h : IsScalar v) : v.render.toList ≠ [] := by
  intro hnil
  have hword := (FilterText.lex_render h).1
  rw [hnil] at hword
  exact absurd hword (by decide)

/-! ## Elements -/

/-- A literal behind its name, as keys and calls have it. -/
def labelled (name : String) (v : Literal) : String := name ++ "=" ++ v.render

theorem whole_labelled {name : String} (hname : Lacks ['\'', ','] name) (h : IsScalar v) :
    Text.Whole (labelled name v).toList := by
  have hplain : Lacks ['\'', ','] (name ++ "=") := lacks_append.mpr ⟨hname, by decide⟩
  rw [labelled, String.toList_append]
  refine Text.Whole.append ?_ (whole_render h)
  exact Text.whole_of_plain (hplain '\'' (by simp)) (hplain ',' (by simp))

/-- Joined texts that are whole are the elements. -/
theorem elements_map {α : Type} {f : α → String} {xs : List α}
    (h : ∀ x ∈ xs, Text.Whole (f x).toList ∧ (f x).toList ≠ []) :
    Text.elements (String.intercalate "," (xs.map f)).toList = xs.map fun x => (f x).toList := by
  have hjoined : (String.intercalate "," (xs.map f)).toList =
      [','].intercalate (xs.map fun x => (f x).toList) := by
    simp [String.toList_intercalate, Function.comp_def]
  rw [hjoined]
  refine Text.elements_intercalate fun p hp => ?_
  obtain ⟨x, hx, rfl⟩ := List.mem_map.mp hp
  exact h x hx

/-- The elements of a list of literals are its literals. -/
theorem elements_renders (h : ∀ v ∈ items, IsScalar v) :
    List.Forall₂ Restores
      (Text.elements (String.intercalate "," (items.map render)).toList) items := by
  rw [elements_map fun v hv => ⟨whole_render (h v hv), render_ne_nil (h v hv)⟩,
    List.forall₂_map_left_iff, List.forall₂_same]
  exact fun v hv => restores_render (h v hv)

/-- The elements of a list of named literals are its literals behind their names. -/
theorem elements_labelled (write : String → String) {parts : List (String × Literal)}
    (h : ∀ p ∈ parts, Lacks ['\'', ','] (write p.1) ∧ IsScalar p.2) :
    Text.elements (String.intercalate "," (parts.map fun p =>
      labelled (write p.1) p.2)).toList = parts.map fun p => (labelled (write p.1) p.2).toList :=
  elements_map fun p hp => ⟨whole_labelled (h p hp).1 (h p hp).2, by simp [labelled]⟩

theorem toList_labelled (name : String) (v : Literal) :
    (labelled name v).toList = name.toList ++ '=' :: v.render.toList := by
  simp [labelled]

end Literal

open Literal (Restores)

/-! ## Where lists stand -/

/-- The list of a membership stands in parentheses behind what is looked for. -/
theorem Filter.exists_list {scope : List String} {parent : Option BinaryOp}
    {receiver argument path : Filter} {items : List Literal} {name s : String}
    (method : Method.ofName? name = some .isIn) (has : HasItems receiver argument path items)
    (nonempty : items ≠ []) (scalars : ∀ v ∈ items, IsScalar v)
    (h : Finds (compileNode scope parent (call (some receiver) name [argument])) s) :
    ∃ looked list, Written scope none path looked ∧ s = looked ++ " in (" ++ list ++ ")" ∧
      List.Forall₂ Restores (Text.elements list.toList) items := by
  cases written_of_finds h with
  | test method' => cases method.symm.trans method'
  | map method' => cases method.symm.trans method'
  | isNullOrEmpty method' => cases method.symm.trans method'
  | noItems method' has' => exact absurd (has.unique has').2 nonempty
  | isIn method' has' nonempty' w =>
    obtain ⟨rfl, rfl⟩ := has.unique has'
    exact ⟨_, _, w, rfl, Literal.elements_renders scalars⟩

/-- The arguments of a call that are no lists are written as literals. -/
theorem FunctionCall.renderArguments_eq {arguments : List (String × Literal)}
    (h : ∀ a ∈ arguments, IsScalar a.2) : renderArguments arguments =
      String.intercalate "," (arguments.map fun a => Literal.labelled (camelCase a.1) a.2) := by
  rw [renderArguments]
  congr 1
  refine List.map_congr_left fun a ha => ?_
  have hscalar := h a ha
  rw [Literal.labelled, renderArgument.eq_def]
  split
  · next items hitems =>
    rw [hitems] at hscalar
    exact hscalar.elim
  · rfl

/-- **Lists of literals are read back.**  A reader that cuts a list at the commas outside of
quotes finds its literals, as many and in the order in which they were written, and a quoted one
gives back what was quoted.  So it is for the list of a membership, for a key with several
parts, where the name ends at the first equals sign, and for the arguments of a
function. -/
theorem lists_read_back :
    (∀ items : List Literal, (∀ v ∈ items, IsScalar v) →
      List.Forall₂ Restores
        (Text.elements (String.intercalate "," (items.map Literal.render)).toList) items) ∧
    (∀ (scope : List String) (parent : Option BinaryOp) (receiver argument path : Filter)
      (items : List Literal) (name s : String), Filter.Method.ofName? name = some .isIn →
      receiver.HasItems argument path items → items ≠ [] → (∀ v ∈ items, IsScalar v) →
      Filter.Finds (Filter.compileNode scope parent (.call (some receiver) name [argument])) s →
      ∃ looked list, Filter.Written scope none path looked ∧
        s = looked ++ " in (" ++ list ++ ")" ∧
        List.Forall₂ Restores (Text.elements list.toList) items) ∧
    (∀ parts : List (String × Literal),
      (∀ p ∈ parts, Lacks ['\'', ',', '='] p.1 ∧ IsScalar p.2) →
      List.Forall₂ (fun element p => ∃ value,
          Text.cutFirst? '=' element = some (p.1.toList, value) ∧ Restores value p.2)
        (Text.elements (EntityKey.composite parts).render.toList) parts) ∧
    ∀ arguments : List (String × Literal),
      (∀ a ∈ arguments, Lacks ['\'', ','] a.1 ∧ IsScalar a.2) →
      List.Forall₂ (fun element a => ∃ value,
          element = (camelCase a.1).toList ++ '=' :: value ∧ Restores value a.2)
        (Text.elements (FunctionCall.renderArguments arguments).toList) arguments := by
  refine ⟨fun items scalars => Literal.elements_renders scalars, ?_, ?_, ?_⟩
  · intro scope parent receiver argument path items name s method has nonempty scalars h
    exact Filter.exists_list method has nonempty scalars h
  · intro parts hparts
    have hnames : ∀ p ∈ parts, Lacks ['\'', ','] (id p.1) ∧ IsScalar p.2 := fun p hp =>
      ⟨(hparts p hp).1.mono (by decide), (hparts p hp).2⟩
    have hrender : (EntityKey.composite parts).render =
        String.intercalate "," (parts.map fun p => Literal.labelled (id p.1) p.2) := rfl
    rw [hrender, Literal.elements_labelled id hnames, List.forall₂_map_left_iff, List.forall₂_same]
    intro p hp
    obtain ⟨hname, hscalar⟩ := hparts p hp
    refine ⟨p.2.render.toList, ?_, Literal.restores_render hscalar⟩
    rw [Literal.toList_labelled]
    exact Text.cutFirst?_joint (hname '=' (by simp))
  · intro arguments harguments
    have hnames : ∀ a ∈ arguments, Lacks ['\'', ','] (camelCase a.1) ∧ IsScalar a.2 := fun a ha =>
      ⟨lacks_camelCase (by decide) (harguments a ha).1, (harguments a ha).2⟩
    rw [FunctionCall.renderArguments_eq fun a ha => (harguments a ha).2,
      Literal.elements_labelled camelCase hnames, List.forall₂_map_left_iff, List.forall₂_same]
    intro a ha
    exact ⟨a.2.render.toList, Literal.toList_labelled _ _,
      Literal.restores_render (harguments a ha).2⟩

/-- Quotes and commas in strings, next to each other and at their ends. -/
theorem lists_read_back_quotes :
    (∃ looked list, Filter.Written [] none (.field "A") looked ∧
      "A in (''',',''',''',null)" = looked ++ " in (" ++ list ++ ")" ∧
      List.Forall₂ Restores (Text.elements list.toList) [.text "',", .text "','", .null]) ∧
    List.Forall₂ (fun element p => ∃ value,
        Text.cutFirst? '=' element = some (p.1.toList, value) ∧ Restores value p.2)
      (Text.elements "Id='''=',Of=7".toList) [("Id", .text "'="), ("Of", .int 7)] ∧
    List.Forall₂ (fun element a => ∃ value,
        element = (camelCase a.1).toList ++ '=' :: value ∧ Restores value a.2)
      (Text.elements "ofKind='''',top=1".toList)
      [("Of_kind", .enumMember "'"), ("Top", .int 1)] := by
  obtain ⟨-, membership, keys, calls⟩ := lists_read_back
  refine ⟨membership [] none (.field "A") (.literal (.list [.text "',", .text "','", .null]))
    (.field "A") _ "in" _ (by decide) (.inl ⟨rfl, rfl⟩) (by simp) ?_ ⟨[], [], ?_⟩, ?_, ?_⟩
  · simp [IsScalar]
  · rfl
  · have names : Lacks ['\'', ',', '='] "Id" ∧ Lacks ['\'', ',', '='] "Of" := by decide
    exact keys [("Id", .text "'="), ("Of", .int 7)] (by simpa [IsScalar] using names)
  · have names : Lacks ['\'', ','] "Of_kind" ∧ Lacks ['\'', ','] "Top" := by decide
    exact calls [("Of_kind", .enumMember "'"), ("Top", .int 1)] (by simpa [IsScalar] using names)

/-- A comma in a name cuts it, and a quote in a name turns strings inside out. -/
theorem elements_of_names :
    Text.elements (FunctionCall.renderArguments [("a,b", .int 1)]).toList =
      ["a".toList, "b=1".toList] ∧
    Text.elements (FunctionCall.renderArguments [("o'b", .text "x,y")]).toList =
      ["o'b='x".toList, "y'".toList] := by
  decide +kernel

end OData
