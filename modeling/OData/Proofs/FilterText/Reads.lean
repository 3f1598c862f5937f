import OData.Proofs.FilterText.Reader

/-! # Tokens that read as an expression

The rules by which larger texts read as larger expressions.  `Stands` is for texts
that hold together whatever stands around them: words, calls and whatever is in
parentheses.  `Reads` is for texts that hold together only if the operators around
them bind weaker; `reads_binary` has the one rule for those, and `settle_join` the
reason for it.
-/
namespace OData
namespace FilterText

/-! ## Waiting operators -/

/-- A text whose operators bind at least as tight as `bound` may follow: the
operators that wait bind weaker, or are connectives of the same kind. -/
def Admits (pending : Pending) (bound : Nat) : Prop :=
  ∀ x ∈ pending, level x.2 ≤ bound ∧ (level x.2 = bound → x.2.isConnective = true)

theorem admits_nil (bound : Nat) : Admits [] bound := fun _ hx => by cases hx

variable {pending : Pending} {bound q : Nat} {op : BinaryOp}

theorem eq_nil_of_admits_zero (h : Admits pending 0) : pending = [] := by
  cases pending with
  | nil => rfl
  | cons x pending =>
    have hx := (h x (List.mem_cons_self ..)).1
    have hp := level_pos x.2
    omega

theorem Admits.mono {bound' : Nat} (h : Admits pending bound) (hb : bound ≤ bound') :
    Admits pending bound' := by
  intro x hx
  obtain ⟨h1, h2⟩ := h x hx
  exact ⟨Nat.le_trans h1 hb, fun he => h2 (by omega)⟩

theorem Admits.settle {bound' : Nat} (h : Admits pending bound) (e : Expr) :
    Admits (settle bound' pending e).1 bound := by
  induction pending generalizing e with
  | nil => exact h
  | cons x pending ih =>
    rw [FilterText.settle]
    split
    · exact ih (fun y hy => h y (List.mem_cons_of_mem _ hy)) _
    · exact h

theorem settle_zero (pending : Pending) (e : Expr) : settle 0 pending e = ([], whole pending e) := by
  induction pending generalizing e with
  | nil => rfl
  | cons x pending ih =>
    have hrest : settle 0 (x :: pending) e = settle 0 pending (.join x.2 x.1 e) := by
      rw [settle, if_pos (Nat.zero_le _)]
    rw [whole, hrest]
    exact ih _

/-- An operator may complete what waits in front of it before or after it gets its
own right operand. -/
theorem settle_join (h : Admits pending (level op)) (hq : q ≤ level op) (x y : Expr) :
    settle q (settle (level op) pending x).1 (.join op (settle (level op) pending x).2 y) =
      settle q pending (.join op x y) := by
  induction pending generalizing x with
  | nil => rfl
  | cons p pending ih =>
    obtain ⟨left, o⟩ := p
    obtain ⟨hle, hconnective⟩ := h (left, o) (List.mem_cons_self ..)
    have hrest : Admits pending (level op) := fun z hz => h z (List.mem_cons_of_mem _ hz)
    dsimp only at hle hconnective
    by_cases hlevel : level op ≤ level o
    · -- The operator that waits is a connective, and this is the same one.
      have hc := hconnective (by omega)
      obtain rfl : op = o := eq_of_level_eq (by omega) hc
      rw [settle, if_pos hlevel, ih hrest, Expr.join_assoc hc, settle, if_pos hq]
    · rw [settle, if_neg hlevel]

/-! ## Runs -/

theorem run_append (σ : State) (ts us : List Token) :
    run σ (ts ++ us) = (run σ ts).bind fun τ => run τ us := by
  rw [run, List.foldlM_append]
  rfl

theorem run_cons (σ : State) (t : Token) (ts : List Token) :
    run σ (t :: ts) = (step σ t).bind fun τ => run τ ts := rfl

@[simp] theorem run_nil (σ : State) : run σ [] = some σ := rfl

/-- The same state inside more open parentheses. -/
def State.within (σ : State) (base : List Frame) : State := { σ with stack := σ.stack ++ base }

theorem stepWord_within {σ τ : State} {w : List Char} (base : List Frame)
    (h : stepWord σ w = some τ) : stepWord (σ.within base) w = some (τ.within base) := by
  obtain ⟨stack, pending, spot⟩ := σ
  cases spot with
  | wanted n =>
    simp only [stepWord, State.within] at h ⊢
    grind
  | given n e =>
    simp only [stepWord, State.within] at h ⊢
    split at h
    · grind
    · obtain ⟨op, hop, rfl⟩ := Option.map_eq_some_iff.mp h
      rw [if_neg (by assumption), hop]
      rfl
  | listed => cases h

theorem leave_within {frame : Frame} {stack : List Frame} {es : List Expr} {τ : State}
    (base : List Frame) (h : State.leave frame stack es = some τ) :
    State.leave frame (stack ++ base) es = some (τ.within base) := by
  obtain ⟨e, he, rfl⟩ := Option.map_eq_some_iff.mp h
  rw [State.leave, he]
  rfl

/-- What the reader does depends only on the innermost open parenthesis. -/
theorem step_within {σ τ : State} {t : Token} (base : List Frame) (h : step σ t = some τ) :
    step (σ.within base) t = some (τ.within base) := by
  obtain ⟨stack, pending, spot⟩ := σ
  -- A token that needs an open parenthesis uses the first frame of the stack.
  cases t with
  | word w => exact stepWord_within base h
  | head w =>
    cases spot with
    | wanted n =>
      obtain rfl := Option.some.inj h
      rfl
    | given => cases h
    | listed => cases h
  | binder x =>
    match spot, stack with
    | .wanted 0, frame :: stack =>
      simp only [step] at h
      split at h
      · next hopener hbinder harguments =>
        obtain rfl := Option.some.inj h
        simp [step, State.within, hopener, hbinder, harguments]
      · cases h
    | .wanted (_ + 1), _ => simp [step] at h
    | .wanted 0, [] => simp [step] at h
    | .given .., _ => simp [step] at h
    | .listed .., _ => simp [step] at h
  | opening =>
    cases spot with
    | wanted n =>
      obtain rfl := Option.some.inj h
      rfl
    | given => cases h
    | listed n e =>
      obtain rfl := Option.some.inj h
      rfl
  | closing =>
    match spot, stack with
    | .wanted 0, frame :: stack =>
      simp only [step] at h
      split at h
      · next harguments =>
        simpa [step, State.within, harguments] using leave_within base h
      · cases h
    | .given n e, frame :: stack => exact leave_within base h
    | .wanted (_ + 1), _ => simp [step] at h
    | .wanted 0, [] => simp [step] at h
    | .given .., [] => simp [step] at h
    | .listed .., _ => simp [step] at h
  | comma =>
    match spot, stack with
    | .given n e, frame :: stack =>
      obtain rfl := Option.some.inj h
      rfl
    | .given .., [] => simp [step] at h
    | .wanted _, _ => simp [step] at h
    | .listed .., _ => simp [step] at h

theorem run_within {σ τ : State} {ts : List Token} (base : List Frame) (h : run σ ts = some τ) :
    run (σ.within base) ts = some (τ.within base) := by
  induction ts generalizing σ with
  | nil =>
    obtain rfl : σ = τ := Option.some.inj h
    rfl
  | cons t ts ih =>
    rw [run_cons] at h ⊢
    obtain ⟨ρ, hρ, h⟩ := Option.bind_eq_some_iff.mp h
    rw [step_within base hρ]
    exact ih h

/-! ## Steps -/

section Steps

variable (stack : List Frame) (pending : Pending) (n : Nat) (e : Expr)

theorem step_not : step ⟨stack, pending, .wanted n⟩ (.word "not".toList) =
    some ⟨stack, pending, .wanted (n + 1)⟩ := rfl

theorem step_leaf {w : List Char} (h : w ∉ operators) :
    step ⟨stack, pending, .wanted n⟩ (.word w) =
      some ⟨stack, pending, .given n (.leaf (String.ofList w))⟩ := by
  have hnot : w ≠ "not".toList := by
    rintro rfl
    exact h (by decide)
  dsimp only [step, stepWord]
  rw [if_neg hnot, if_neg (by simpa using h)]

theorem step_in : step ⟨stack, pending, .given n e⟩ (.word "in".toList) =
    some ⟨stack, pending, .listed n e⟩ := rfl

theorem step_operator (op : BinaryOp) :
    step ⟨stack, pending, .given n e⟩ (.word op.symbol.toList) =
      some ⟨stack, ((settle (level op) pending (e.negated n)).2, op) ::
        (settle (level op) pending (e.negated n)).1, .wanted 0⟩ := by
  have hin : op.symbol.toList ≠ "in".toList := by cases op <;> decide
  have hsymbol : BinaryOp.ofSymbol? op.symbol = some op := by cases op <;> decide
  dsimp only [step, stepWord]
  rw [if_neg hin, String.ofList_toList, hsymbol]
  rfl

theorem step_head (w : List Char) : step ⟨stack, pending, .wanted n⟩ (.head w) =
    some ⟨⟨.ofHead w, none, [], pending, n⟩ :: stack, [], .wanted 0⟩ := rfl

theorem step_opening : step ⟨stack, pending, .wanted n⟩ .opening =
    some ⟨⟨.group, none, [], pending, n⟩ :: stack, [], .wanted 0⟩ := rfl

theorem step_opening_items : step ⟨stack, pending, .listed n e⟩ .opening =
    some ⟨⟨.items e, none, [], pending, n⟩ :: stack, [], .wanted 0⟩ := rfl

theorem step_comma (frame : Frame) : step ⟨frame :: stack, pending, .given n e⟩ .comma =
    some ⟨{ frame with arguments := frame.arguments ++ [whole pending (e.negated n)] } :: stack,
      [], .wanted 0⟩ := rfl

theorem step_closing (frame : Frame) : step ⟨frame :: stack, pending, .given n e⟩ .closing =
    State.leave frame stack (frame.arguments ++ [whole pending (e.negated n)]) := rfl

end Steps

/-! ## Reading -/

/-- The tokens read as an operand wherever one may stand. -/
def Stands (ts : List Token) (e : Expr) : Prop :=
  ∀ stack pending n, run ⟨stack, pending, .wanted n⟩ ts = some ⟨stack, pending, .given n e⟩

/-- The tokens read as an expression wherever the operators that wait admit it.
What is then complete settles like the expression itself under every operator that
binds no tighter than its own. -/
def Reads (bound : Nat) (ts : List Token) (e : Expr) : Prop :=
  ∀ stack pending, Admits pending bound → ∃ pending' n e',
    run ⟨stack, pending, .wanted 0⟩ ts = some ⟨stack, pending', .given n e'⟩ ∧
      ∀ q ≤ bound, settle q pending' (e'.negated n) = settle q pending e

variable {ts us : List Token} {e a b : Expr} {w : List Char} {name path : String}

theorem Stands.reads (h : Stands ts e) : Reads primary ts e := fun stack pending _ =>
  ⟨pending, 0, e, h stack pending 0, fun _ _ => rfl⟩

/-- Directly behind a parenthesis everything is admitted. -/
theorem Reads.inside (h : Reads bound ts e) (stack : List Frame) : ∃ pending n e',
    run ⟨stack, [], .wanted 0⟩ ts = some ⟨stack, pending, .given n e'⟩ ∧
      whole pending (e'.negated n) = e := by
  obtain ⟨pending, n, e', hrun, hsettle⟩ := h stack [] (admits_nil bound)
  exact ⟨pending, n, e', hrun, by rw [whole, hsettle 0 (Nat.zero_le _)]; rfl⟩

theorem stands_word (h : w ∉ operators) : Stands [.word w] (.leaf (String.ofList w)) := by
  intro stack pending n
  rw [run_cons, step_leaf _ _ _ h]
  rfl

/-! ### Parentheses -/

theorem Reads.stands_group (h : Reads bound ts e) : Stands (.opening :: (ts ++ [.closing])) e := by
  intro stack pending n
  obtain ⟨pending', m, e', hrun, hwhole⟩ := h.inside (⟨.group, none, [], pending, n⟩ :: stack)
  rw [run_cons, step_opening, Option.bind_some, run_append, hrun, Option.bind_some, run_cons,
    step_closing, hwhole]
  rfl

theorem reads_not (h : Reads bound ts e) :
    Reads primary (.word "not".toList :: .opening :: (ts ++ [.closing])) (.not e) := by
  intro stack pending _
  refine ⟨pending, 1, e, ?_, fun _ _ => rfl⟩
  rw [run_cons, step_not]
  exact h.stands_group stack pending 1

/-- Expressions between commas. -/
theorem run_arguments {args : List (List Token × Expr)} (hne : args ≠ [])
    (h : ∀ x ∈ args, ∃ bound, Reads bound x.1 x.2) (frame : Frame) (stack : List Frame) :
    run ⟨frame :: stack, [], .wanted 0⟩ ([.comma].intercalate (args.map Prod.fst) ++ [.closing]) =
      State.leave frame stack (frame.arguments ++ args.map Prod.snd) := by
  induction args generalizing frame with
  | nil => exact absurd rfl hne
  | cons x args ih =>
    obtain ⟨bound, hx⟩ := h x (List.mem_cons_self ..)
    obtain ⟨pending, n, e, hrun, hwhole⟩ := hx.inside (frame :: stack)
    cases args with
    | nil =>
      rw [List.map_singleton, List.intercalate_singleton, run_append, hrun, Option.bind_some,
        run_cons, step_closing, hwhole]
      simp
    | cons y args =>
      -- The comma adds the first expression to the arguments of the frame.
      have hrest := ih (by simp) (fun z hz => h z (List.mem_cons_of_mem _ hz))
        { frame with arguments := frame.arguments ++ [x.2] }
      rw [List.map_cons, List.map_cons, List.intercalate_cons_cons, List.append_assoc,
        List.append_assoc, run_append, hrun, Option.bind_some, List.singleton_append, run_cons,
        step_comma, hwhole, Option.bind_some, ← List.map_cons, hrest]
      simp [State.leave]

theorem stands_call {args : List (List Token × Expr)} (hw : Opener.ofHead w = .call name)
    (hne : args ≠ []) (h : ∀ x ∈ args, ∃ bound, Reads bound x.1 x.2) :
    Stands (.head w :: ([.comma].intercalate (args.map Prod.fst) ++ [.closing]))
      (.call name (args.map Prod.snd)) := by
  intro stack pending n
  rw [run_cons, step_head, Option.bind_some, run_arguments hne h, hw]
  rfl

theorem Stands.isIn {args : List (List Token × Expr)} (hs : Stands ts e) (hne : args ≠ [])
    (h : ∀ x ∈ args, ∃ bound, Reads bound x.1 x.2) :
    Stands (ts ++ .word "in".toList ::
        .opening :: ([.comma].intercalate (args.map Prod.fst) ++ [.closing]))
      (.isIn e (args.map Prod.snd)) := by
  intro stack pending n
  rw [run_append, hs, Option.bind_some, run_cons, step_in, Option.bind_some, run_cons,
    step_opening_items, Option.bind_some, run_arguments hne h]
  obtain ⟨x, args, rfl⟩ := List.exists_cons_of_ne_nil hne
  rfl

theorem stands_quantified {q : Quantifier} {x : List Char}
    (hw : Opener.ofHead w = .quantifier q path) (h : Reads bound ts e) :
    Stands (.head w :: .binder x :: (ts ++ [.closing]))
      (.quantified q path (some (String.ofList x, e))) := by
  intro stack pending n
  obtain ⟨pending', m, e', hrun, hwhole⟩ :=
    h.inside (⟨.quantifier q path, some (String.ofList x), [], pending, n⟩ :: stack)
  have hbinder : step ⟨⟨.quantifier q path, none, [], pending, n⟩ :: stack, [], .wanted 0⟩
      (.binder x) = some ⟨⟨.quantifier q path, some (String.ofList x), [], pending, n⟩ :: stack,
        [], .wanted 0⟩ := rfl
  rw [run_cons, step_head, Option.bind_some, hw, run_cons, hbinder, Option.bind_some, run_append,
    hrun, Option.bind_some, run_cons, step_closing, hwhole]
  rfl

theorem stands_quantified_empty {q : Quantifier} (hw : Opener.ofHead w = .quantifier q path) :
    Stands [.head w, .closing] (.quantified q path none) := by
  intro stack pending n
  rw [run_cons, step_head, Option.bind_some, hw]
  rfl

/-! ### Operators -/

/-- An operator between two texts.  Those of equal precedence join only where the
operator is a connective; a comparison takes no comparison as its operand. -/
theorem reads_binary {bound' : Nat} (ha : Reads bound ts a) (hb : Reads bound' us b)
    (hleft : level op ≤ bound) (hright : level op ≤ bound')
    (hequal : level op = bound' → op.isConnective = true) :
    Reads (level op) (ts ++ .word op.symbol.toList :: us) (.join op a b) := by
  intro stack pending hpending
  obtain ⟨pending₁, n, a', hrun, hsettle⟩ := ha stack pending (hpending.mono hleft)
  have hleftmost := hsettle (level op) hleft
  -- Behind the operator, the right operand has it and what still waits in front of it.
  have hadmits : Admits (((settle (level op) pending a).2, op) ::
      (settle (level op) pending a).1) bound' := by
    intro x hx
    rcases List.mem_cons.mp hx with rfl | hx
    · exact ⟨hright, hequal⟩
    · exact (hpending.settle a).mono hright x hx
  obtain ⟨pending₂, m, b', hrun', hsettle'⟩ := hb stack _ hadmits
  refine ⟨pending₂, m, b', ?_, fun q hq => ?_⟩
  · rw [run_append, hrun, Option.bind_some, run_cons, step_operator, hleftmost]
    exact hrun'
  · rw [hsettle' q (Nat.le_trans hq hright), settle, if_pos hq, settle_join hpending hq]

/-! ### Whole texts -/

theorem read?_of_reads {text : List Char} (hlex : lex text = some ts) (h : Reads bound ts e) :
    read? text = some e := by
  obtain ⟨pending, n, e', hrun, hwhole⟩ := h.inside []
  simp [read?, hlex, start, hrun, hwhole]

/-- A grammatical text reads the same inside parentheses. -/
theorem reads_of_read? {text : List Char} (h : read? text = some e) :
    ∃ ts, lex text = some ts ∧ Reads 0 ts e := by
  rw [read?] at h
  obtain ⟨ts, hlex, h⟩ := Option.bind_eq_some_iff.mp h
  obtain ⟨σ, hrun, h⟩ := Option.bind_eq_some_iff.mp h
  split at h
  · next pending n e' =>
    obtain rfl := Option.some.inj h
    refine ⟨ts, hlex, fun stack pending' hadmits => ⟨pending, n, e', ?_, fun q hq => ?_⟩⟩
    · rw [eq_nil_of_admits_zero hadmits]
      exact run_within stack hrun
    · obtain rfl : q = 0 := by omega
      rw [eq_nil_of_admits_zero hadmits, settle_zero]
      rfl
  · cases h

end FilterText
end OData
