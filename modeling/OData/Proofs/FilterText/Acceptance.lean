import OData.Proofs.FilterText.Written

/-! # Which filters have a text

A filter has a text just if each node that counts is sound (`exists_compile_iff`).
Whether a node is sound depends on the node, on the kinds of its operands and on the
variables bound around it (`Sound`).  `Occurs` tells which nodes count and what is
bound there.  A quantifier binds its variable in its predicate alone, so neither its
own path nor what stands beside it sees the variable.  What is looked for in an empty
list does not count: the answer is known without it.
-/
namespace OData
namespace Filter

/-! ## Nodes that count -/

/-- The call looks for the operand in an empty list. -/
def LooksInVain (target : Option Filter) (name : String) (arguments : List Filter)
    (operand : Filter) : Prop :=
  lowercased name = "in" ∧ ∃ receiver argument, target = some receiver ∧
    arguments = [argument] ∧ HasItems receiver argument operand []

/-- Where the variables of the first scope are bound, the second filter is a node of
the first one that counts, and around it the variables of the second scope are
bound. -/
inductive Occurs : List String → Filter → List String → Filter → Prop
  | self {scope f} : Occurs scope f scope f
  | left {scope op left right scope' g} (h : Occurs scope left scope' g) :
      Occurs scope (.binary op left right) scope' g
  | right {scope op left right scope' g} (h : Occurs scope right scope' g) :
      Occurs scope (.binary op left right) scope' g
  | negated {scope operand scope' g} (h : Occurs scope operand scope' g) :
      Occurs scope (.not operand) scope' g
  | predicate {scope q collection name predicate scope' g}
      (h : Occurs (name :: scope) predicate scope' g) :
      Occurs scope (.quantified q collection name (some predicate)) scope' g
  | operand {scope target name arguments operand scope' g}
      (among : operand ∈ target.toList ++ arguments)
      (counts : ¬ LooksInVain target name arguments operand)
      (h : Occurs scope operand scope' g) : Occurs scope (.call target name arguments) scope' g

/-! ## Sound nodes -/

/-- The path names a property of the entity, or starts at a variable that is bound. -/
def Rooted (scope : List String) (path : MemberPath) : Prop :=
  match path.root with
  | .entity => path.segments ≠ []
  | .bound name => name ∈ scope

/-- A node that stands for a string: a property, or a call that makes a string. -/
def IsStringSource : Filter → Prop
  | member _ => True
  | call _ name _ => lowercased name ∈ ["tolower", "toupper", "trim"]
  | _ => False

/-- A call of a method that filter text has, on operands that the method takes. -/
inductive Callable : Option Filter → String → List Filter → Prop
  | test {name receiver argument}
      (method : lowercased name ∈ ["contains", "startswith", "endswith"])
      (source : IsStringSource receiver) : Callable (some receiver) name [argument]
  | map {target name arguments operand}
      (method : lowercased name ∈ ["tolower", "toupper", "trim"])
      (single : HasOperand target arguments operand) (source : IsStringSource operand) :
      Callable target name arguments
  | isNullOrEmpty {target name arguments operand} (method : lowercased name = "isnullorempty")
      (single : HasOperand target arguments operand) : Callable target name arguments
  | isIn {name receiver argument path items} (method : lowercased name = "in")
      (has : HasItems receiver argument path items) : Callable (some receiver) name [argument]

/-- What a node needs to have a text, where the variables of `scope` are bound. -/
def Sound (scope : List String) : Filter → Prop
  | member path => Rooted scope path
  | quantified _ collection name predicate =>
    Rooted scope collection ∧ (predicate.isSome = true → name ≠ "")
  | call target name arguments => Callable target name arguments
  | _ => True

variable {scope scope' : List String} {parent : Option BinaryOp} {name method s : String}
  {target : Option Filter} {arguments : List Filter} {f g : Filter} {path : MemberPath}

/-! ## Induction over filters -/

/-- To prove something of all filters, prove it of each from what is directly below. -/
@[elab_as_elim]
theorem inductionOn {motive : Filter → Prop} (f : Filter)
    (binary : ∀ op left right, motive left → motive right → motive (.binary op left right))
    (not : ∀ operand, motive operand → motive (.not operand))
    (member : ∀ path, motive (.member path)) (literal : ∀ value, motive (.literal value))
    (captured : ∀ c, motive (.captured c))
    (call : ∀ target name arguments, (∀ g ∈ target.toList ++ arguments, motive g) →
      motive (.call target name arguments))
    (quantified : ∀ q collection name predicate, (∀ p, predicate = some p → motive p) →
      motive (.quantified q collection name predicate))
    (raw : ∀ text, motive (.raw text)) : motive f :=
  -- The other motives are about the operand in front and about the arguments.
  @Filter.rec motive (fun target => ∀ g, target = some g → motive g)
    (fun arguments => ∀ g ∈ arguments, motive g) binary not member literal captured
    (fun target name arguments ht ha => call target name arguments fun g hg =>
      (List.mem_append.mp hg).elim (fun h => ht g (Option.mem_toList.mp h)) (ha g))
    quantified raw nofun (fun _ hp _ hg => Option.some.inj hg ▸ hp)
    nofun (fun _ _ hg hgs => List.forall_mem_cons.mpr ⟨hg, hgs⟩) f

/-! ## Methods by name -/

theorem ofName?_test_iff : (∃ t, Method.ofName? name = some (.test t)) ↔
    lowercased name ∈ ["contains", "startswith", "endswith"] := by
  rw [Method.ofName?]
  split <;> simp_all

theorem ofName?_map_iff : (∃ m, Method.ofName? name = some (.map m)) ↔
    lowercased name ∈ ["tolower", "toupper", "trim"] := by
  rw [Method.ofName?]
  split <;> simp_all

theorem ofName?_isNullOrEmpty_iff :
    Method.ofName? name = some .isNullOrEmpty ↔ lowercased name = "isnullorempty" := by
  rw [Method.ofName?]
  split <;> simp_all

theorem ofName?_isIn_iff : Method.ofName? name = some .isIn ↔ lowercased name = "in" := by
  rw [Method.ofName?]
  split <;> simp_all

theorem receiverFault?_eq_none_iff : receiverFault? method f = none ↔ IsStringSource f := by
  cases f with
  | member path => simp [receiverFault?, IsStringSource]
  | call target name arguments =>
    rw [IsStringSource, ← ofName?_map_iff, receiverFault?]
    split <;> simp_all
  | _ => simp [receiverFault?, IsStringSource]

theorem exists_compilePath_iff : (∃ s, compilePath scope path = .ok s) ↔ Rooted scope path := by
  rw [compilePath, Rooted]
  cases path.root with
  | entity => cases h : path.segments <;> simp
  | bound name => by_cases h : name ∈ scope <;> simp [h]

/-! ## Operands -/

theorem HasOperand.eq_of_mem {operand : Filter} (h : HasOperand target arguments operand)
    (hg : g ∈ target.toList ++ arguments) : g = operand := by
  rcases h with ⟨rfl, rfl⟩ | ⟨rfl, rfl⟩ <;> simpa using hg

/-- An operand of a membership is what is looked for, or it is a list. -/
theorem HasItems.eq_or_list {receiver argument path : Filter} {items : List Literal}
    (h : HasItems receiver argument path items) (hg : g ∈ (some receiver).toList ++ [argument]) :
    g = path ∨ g.constantItems? = some items := by
  have hg : g = receiver ∨ g = argument := by simpa using hg
  rcases h with ⟨hitems, rfl⟩ | ⟨-, hitems, rfl⟩ <;> rcases hg with rfl | rfl
  · exact .inl rfl
  · exact .inr hitems
  · exact .inr hitems
  · exact .inl rfl

theorem HasItems.mem {receiver argument path : Filter} {items : List Literal}
    (h : HasItems receiver argument path items) : path ∈ (some receiver).toList ++ [argument] := by
  rcases h with ⟨-, rfl⟩ | ⟨-, -, rfl⟩ <;> simp

/-- Only a membership looks for something in vain. -/
theorem not_looksInVain (h : lowercased name ≠ "in") : ¬ LooksInVain target name arguments g :=
  fun hvain => h hvain.1

theorem HasItems.not_looksInVain {receiver argument path : Filter} {items : List Literal}
    (h : HasItems receiver argument path items) (nonempty : items ≠ []) :
    ¬ LooksInVain (some receiver) name [argument] path := by
  rintro ⟨-, receiver', argument', hr, ha, h'⟩
  obtain rfl := Option.some.inj hr
  obtain rfl := List.singleton_inj.mp ha
  exact nonempty (h.unique h').2

/-! ## What is written by the rules is found -/

section
variable {α β : Type} {m : Compiler α} {k : α → Compiler β} {a : α} {b : β}

/-- The computation finds `a`, whatever captures were noted before. -/
def Yields (m : Compiler α) (a : α) : Prop := ∀ log, ∃ log', m.run.run log = (.ok a, log')

theorem yields_pure (a : α) : Yields (pure a) a := fun log => ⟨log, rfl⟩

theorem Yields.bind (h : Yields m a) (h' : Yields (k a) b) : Yields (m >>= k) b := by
  intro log
  obtain ⟨log', hm⟩ := h log
  obtain ⟨log'', hk⟩ := h' log'
  refine ⟨log'', ?_⟩
  rw [ExceptT.run_bind, StateT.run_bind, hm]
  exact hk

theorem yields_fetch (c : Capture) : Yields (fetch c) c.value := fun _ => ⟨_, rfl⟩

theorem yields_lift {x : Except Unsupported α} (h : x = .ok a) :
    Yields (liftM x : Compiler α) a := by
  rintro log
  subst h
  exact ⟨log, rfl⟩

theorem yields_fetchIfCaptured (f : Filter) : Yields (fetchIfCaptured f) () := by
  cases f <;> exact fun log => ⟨_, rfl⟩

theorem yields_checkReceiver (h : receiverFault? method f = none) :
    Yields (checkReceiver method f) () := by
  rw [checkReceiver, h]
  exact yields_pure ()

end

/-- What a membership finds when its path is not among the captures fetched before. -/
theorem yields_path {path : Filter} {k : String → Compiler String} {a t : String}
    (h : Yields (compileNode scope none path) a) (hk : Yields (k a) t) :
    Yields (match path with
      | captured c => do
        let a ← pure c.value.render
        k a
      | _ => do
        let a ← compileNode scope none path
        k a) t := by
  split
  · next c =>
    obtain ⟨log', hlog⟩ := h []
    obtain rfl : c.value.render = a := Except.ok.inj (Prod.mk.inj hlog).1
    exact (yields_pure _).bind hk
  · exact h.bind hk

/-- Every text that is written by the rules is found. -/
theorem yields_of_written (w : Written scope parent f s) :
    Yields (compileNode scope parent f) s := by
  induction w with
  | binary _ _ ihl ihr =>
    rw [compileNode]
    exact ihl.bind (ihr.bind (yields_pure _))
  | not _ ih =>
    rw [compileNode]
    exact ih.bind (yields_pure _)
  | member h =>
    rw [compileNode]
    exact yields_lift h
  | literal =>
    rw [compileNode]
    exact yields_pure _
  | @captured scope parent c =>
    rw [compileNode]
    exact (yields_fetch c).bind (yields_pure _)
  | raw =>
    rw [compileNode]
    exact yields_pure _
  | nonempty h =>
    rw [compileNode]
    exact (yields_lift h).bind (yields_pure _)
  | quantified h named _ ih =>
    rw [compileNode]
    simp only [named]
    exact (yields_lift h).bind (ih.bind (yields_pure _))
  | test method fault _ _ ihr iha =>
    rw [compileNode, method]
    exact (yields_checkReceiver fault).bind (ihr.bind (iha.bind (yields_pure _)))
  | map method single fault _ ih =>
    rcases single with ⟨rfl, rfl⟩ | ⟨rfl, rfl⟩
    · rw [compileNode, method]
      exact (yields_checkReceiver fault).bind (ih.bind (yields_pure _))
    · rw [compileNode, method]
      exact (yields_checkReceiver fault).bind (ih.bind (yields_pure _))
  | isNullOrEmpty method single _ ih =>
    rcases single with ⟨rfl, rfl⟩ | ⟨rfl, rfl⟩
    · rw [compileNode, method]
      exact ih.bind (yields_pure _)
    · rw [compileNode, method]
      exact ih.bind (yields_pure _)
  | noItems method has =>
    rw [compileNode, method]
    refine (yields_fetchIfCaptured _).bind ((yields_fetchIfCaptured _).bind ?_)
    rcases has with ⟨hitems, rfl⟩ | ⟨hnone, hitems, rfl⟩
    · simp only [hitems]
      exact yields_pure _
    · simp only [hnone, hitems]
      exact yields_pure _
  | isIn method has nonempty _ ih =>
    rw [compileNode, method]
    refine (yields_fetchIfCaptured _).bind ((yields_fetchIfCaptured _).bind ?_)
    rcases has with ⟨hitems, rfl⟩ | ⟨hnone, hitems, rfl⟩
    · simp only [hitems, List.isEmpty_iff, nonempty, if_false]
      exact yields_path ih (yields_pure _)
    · simp only [hnone, hitems, List.isEmpty_iff, nonempty, if_false]
      exact yields_path ih (yields_pure _)

/-- The compiler finds a text just if the rules write one. -/
theorem exists_compile_iff_written : (∃ s, compile f = .ok s) ↔ ∃ s, Written [] none f s := by
  constructor
  · rintro ⟨s, hs⟩
    exact ⟨s, written_of_finds ⟨[], f.compileLogged.2, Prod.ext hs rfl⟩⟩
  · rintro ⟨s, w⟩
    obtain ⟨log, hlog⟩ := yields_of_written w []
    exact ⟨s, congrArg Prod.fst hlog⟩

/-! ## Sound filters and no others have a text -/

/-- A list is a constant, so nothing below it counts. -/
theorem sound_of_constantItems? {items : List Literal} (list : f.constantItems? = some items)
    (h : Occurs scope f scope' g) : Sound scope' g := by
  cases f with
  | literal value =>
    cases h
    trivial
  | captured c =>
    cases h
    trivial
  | _ => cases list

/-- In a filter with a text every node that counts is sound. -/
theorem sound_of_written (w : Written scope parent f s) (h : Occurs scope f scope' g) :
    Sound scope' g := by
  induction w with
  | binary _ _ ihl ihr =>
    cases h with
    | self => trivial
    | left h => exact ihl h
    | right h => exact ihr h
  | not _ ih =>
    cases h with
    | self => trivial
    | negated h => exact ih h
  | member hpath =>
    cases h
    exact exists_compilePath_iff.mp ⟨_, hpath⟩
  | literal =>
    cases h
    trivial
  | captured =>
    cases h
    trivial
  | raw =>
    cases h
    trivial
  | nonempty hpath =>
    cases h
    exact ⟨exists_compilePath_iff.mp ⟨_, hpath⟩, nofun⟩
  | quantified hpath named _ ih =>
    cases h with
    | self => exact ⟨exists_compilePath_iff.mp ⟨_, hpath⟩, fun _ => by simpa using named⟩
    | predicate h => exact ih h
  | test method fault _ _ ihr iha =>
    cases h with
    | self => exact .test (ofName?_test_iff.mp ⟨_, method⟩) (receiverFault?_eq_none_iff.mp fault)
    | operand among _ h =>
      rcases List.mem_cons.mp among with rfl | among
      · exact ihr h
      · obtain rfl := List.mem_singleton.mp among
        exact iha h
  | map method single fault _ ih =>
    cases h with
    | self =>
      exact .map (ofName?_map_iff.mp ⟨_, method⟩) single (receiverFault?_eq_none_iff.mp fault)
    | operand among _ h =>
      obtain rfl := single.eq_of_mem among
      exact ih h
  | isNullOrEmpty method single _ ih =>
    cases h with
    | self => exact .isNullOrEmpty (ofName?_isNullOrEmpty_iff.mp method) single
    | operand among _ h =>
      obtain rfl := single.eq_of_mem among
      exact ih h
  | noItems method has =>
    cases h with
    | self => exact .isIn (ofName?_isIn_iff.mp method) has
    | operand among counts h =>
      rcases has.eq_or_list among with rfl | list
      · exact absurd ⟨ofName?_isIn_iff.mp method, _, _, rfl, rfl, has⟩ counts
      · exact sound_of_constantItems? list h
  | isIn method has _ _ ih =>
    cases h with
    | self => exact .isIn (ofName?_isIn_iff.mp method) has
    | operand among _ h =>
      rcases has.eq_or_list among with rfl | list
      · exact ih h
      · exact sound_of_constantItems? list h

/-- If every node that counts is sound, the filter has a text. -/
theorem exists_written (f : Filter) (scope : List String) (parent : Option BinaryOp)
    (h : ∀ scope' g, Occurs scope f scope' g → Sound scope' g) :
    ∃ s, Written scope parent f s := by
  induction f using inductionOn generalizing scope parent with
  | binary op left right ihl ihr =>
    obtain ⟨a, wl⟩ := ihl scope (some op) fun _ _ hg => h _ _ (.left hg)
    obtain ⟨b, wr⟩ := ihr scope (some op) fun _ _ hg => h _ _ (.right hg)
    exact ⟨_, .binary wl wr⟩
  | not operand ih =>
    obtain ⟨a, w⟩ := ih scope none fun _ _ hg => h _ _ (.negated hg)
    exact ⟨_, .not w⟩
  | member path =>
    obtain ⟨a, hpath⟩ := exists_compilePath_iff.mpr (h _ _ .self)
    exact ⟨_, .member hpath⟩
  | literal value => exact ⟨_, .literal⟩
  | captured c => exact ⟨_, .captured⟩
  | raw text => exact ⟨_, .raw⟩
  | quantified q collection name predicate ih =>
    obtain ⟨hrooted, hname⟩ := h _ _ .self
    obtain ⟨a, hpath⟩ := exists_compilePath_iff.mpr hrooted
    cases predicate with
    | none => exact ⟨_, .nonempty hpath⟩
    | some p =>
      obtain ⟨b, w⟩ := ih p rfl (name :: scope) none fun _ _ hg => h _ _ (.predicate hg)
      exact ⟨_, .quantified hpath (by simpa using hname rfl) w⟩
  | call target name arguments ih =>
    have written : ∀ g ∈ target.toList ++ arguments, ¬ LooksInVain target name arguments g →
        ∃ s, Written scope none g s := fun g hg counts =>
      ih g hg scope none fun _ _ hocc => h _ _ (.operand hg counts hocc)
    have hcall : Callable target name arguments := h _ _ .self
    cases hcall with
    | @test _ receiver argument method source =>
      obtain ⟨t, ht⟩ := ofName?_test_iff.mpr method
      have counts : lowercased name ≠ "in" := fun he => by simp [he] at method
      obtain ⟨a, wr⟩ := written receiver (by simp) (not_looksInVain counts)
      obtain ⟨b, wa⟩ := written argument (by simp) (not_looksInVain counts)
      exact ⟨_, .test ht (receiverFault?_eq_none_iff.mpr source) wr wa⟩
    | @map _ _ _ operand method single source =>
      obtain ⟨m, hm⟩ := ofName?_map_iff.mpr method
      obtain ⟨a, w⟩ := written operand single.mem
        (not_looksInVain fun he => by simp [he] at method)
      exact ⟨_, .map hm single (receiverFault?_eq_none_iff.mpr source) w⟩
    | @isNullOrEmpty _ _ _ operand method single =>
      obtain ⟨a, w⟩ := written operand single.mem
        (not_looksInVain fun he => by simp [he] at method)
      exact ⟨_, .isNullOrEmpty (ofName?_isNullOrEmpty_iff.mpr method) single w⟩
    | @isIn _ receiver argument path items method has =>
      have hname := ofName?_isIn_iff.mpr method
      by_cases hitems : items = []
      · subst hitems
        exact ⟨_, .noItems hname has⟩
      · obtain ⟨a, w⟩ := written path has.mem (has.not_looksInVain hitems)
        exact ⟨_, .isIn hname has hitems w⟩

/-- **A filter has a text just if every node that counts is sound.** -/
theorem exists_compile_iff (f : Filter) :
    (∃ s, compile f = .ok s) ↔ ∀ scope g, Occurs [] f scope g → Sound scope g := by
  rw [exists_compile_iff_written]
  constructor
  · rintro ⟨s, w⟩ scope g h
    exact sound_of_written w h
  · exact exists_written f [] none

end Filter
end OData
