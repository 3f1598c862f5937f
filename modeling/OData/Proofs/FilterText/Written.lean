import OData.Filter.Compile

/-! # Filters that have a text

`Written` describes the texts of filters by one rule for each way in which a node
can have one.  Every text that the compiler finds is written by these rules
(`written_of_finds`), so a proof about filter text goes through the rules and not
through the compiler.
-/
namespace OData
namespace Filter

/-! ## What a computation finds -/

variable {α β : Type}

/-- The computation finds `a`, after it noted some captures. -/
def Finds (m : Compiler α) (a : α) : Prop := ∃ log log', m.run.run log = (.ok a, log')

theorem finds_pure {a b : α} (h : Finds (pure a) b) : a = b := by
  obtain ⟨log, log', h⟩ := h
  exact Except.ok.inj (Prod.mk.inj h).1

theorem not_finds_throw {u : Unsupported} {a : α} : ¬ Finds (throw u) a := by
  rintro ⟨log, log', h⟩
  cases (Prod.mk.inj h).1

theorem finds_bind {m : Compiler α} {k : α → Compiler β} {b : β} (h : Finds (m >>= k) b) :
    ∃ a, Finds m a ∧ Finds (k a) b := by
  obtain ⟨log, log'', h⟩ := h
  rw [ExceptT.run_bind, StateT.run_bind] at h
  rcases hm : m.run.run log with ⟨r, log'⟩
  cases r with
  | ok a =>
    rw [hm] at h
    exact ⟨a, ⟨log, log', hm⟩, log', log'', h⟩
  | error u =>
    rw [hm] at h
    cases (Prod.mk.inj h).1

theorem finds_fetch {c : Capture} {v : Literal} (h : Finds (fetch c) v) : v = c.value := by
  obtain ⟨log, log', h⟩ := h
  exact (Except.ok.inj (Prod.mk.inj h).1).symm

theorem finds_lift {x : Except Unsupported α} {a : α} (h : Finds (liftM x : Compiler α) a) :
    x = .ok a := by
  obtain ⟨log, log', h⟩ := h
  cases x with
  | error u => cases (Prod.mk.inj h).1
  | ok b => exact congrArg Except.ok (Except.ok.inj (Prod.mk.inj h).1)

theorem finds_checkReceiver {method : String} {f : Filter} {u : Unit}
    (h : Finds (checkReceiver method f) u) : receiverFault? method f = none := by
  rw [checkReceiver] at h
  split at h
  · exact absurd h not_finds_throw
  · assumption

/-- A captured path is not fetched once more, but its text is the same. -/
theorem finds_path {scope : List String} {path : Filter} {k : String → Compiler String}
    {s : String} (h : Finds (match path with
      | captured c => do
        let a ← pure c.value.render
        k a
      | _ => do
        let a ← compileNode scope none path
        k a) s) :
    ∃ a, Finds (compileNode scope none path) a ∧ Finds (k a) s := by
  split at h
  · next c =>
    obtain ⟨a, ha, h⟩ := finds_bind h
    obtain rfl := finds_pure ha
    exact ⟨_, ⟨[], [c.slot], rfl⟩, h⟩
  · exact finds_bind h

/-! ## Rules -/

/-- A call has one operand, be it in front or as its argument. -/
def HasOperand (target : Option Filter) (arguments : List Filter) (operand : Filter) : Prop :=
  target = some operand ∧ arguments = [] ∨ target = none ∧ arguments = [operand]

theorem HasOperand.mem {target : Option Filter} {arguments : List Filter} {operand : Filter}
    (h : HasOperand target arguments operand) : operand ∈ target.toList ++ arguments := by
  rcases h with ⟨rfl, rfl⟩ | ⟨rfl, rfl⟩ <;> simp

/-- The items of a membership, and the node whose value is looked for among them.
The items are those of the argument if it is a list. -/
def HasItems (receiver argument path : Filter) (items : List Literal) : Prop :=
  argument.constantItems? = some items ∧ path = receiver ∨
    argument.constantItems? = none ∧ receiver.constantItems? = some items ∧ path = argument

theorem HasItems.unique {receiver argument path path' : Filter} {items items' : List Literal}
    (h : HasItems receiver argument path items) (h' : HasItems receiver argument path' items') :
    path = path' ∧ items = items' := by
  rcases h with ⟨h1, rfl⟩ | ⟨h1, h2, rfl⟩ <;> rcases h' with ⟨h1', rfl⟩ | ⟨h1', h2', rfl⟩ <;>
    simp_all

/-- The text of two operands and an operator. -/
def binaryText (parent : Option BinaryOp) (op : BinaryOp) (left right : String) : String :=
  if op = .or ∧ parent = some .and then "(" ++ (left ++ " " ++ op.symbol ++ " " ++ right) ++ ")"
  else left ++ " " ++ op.symbol ++ " " ++ right

/-- The filter has the text `s` under the operator `parent`, where the variables of
`scope` are bound. -/
inductive Written : List String → Option BinaryOp → Filter → String → Prop
  | binary {scope parent op left right a b} (l : Written scope (some op) left a)
      (r : Written scope (some op) right b) :
      Written scope parent (.binary op left right) (binaryText parent op a b)
  | not {scope parent operand s} (w : Written scope none operand s) :
      Written scope parent (.not operand) ("not (" ++ s ++ ")")
  | member {scope parent path s} (h : compilePath scope path = .ok s) :
      Written scope parent (.member path) s
  | literal {scope parent value} : Written scope parent (.literal value) value.render
  | captured {scope parent c} : Written scope parent (.captured c) c.value.render
  | raw {scope parent text} : Written scope parent (.raw text)
      (if parent.any BinaryOp.isConnective then "(" ++ text ++ ")" else text)
  | nonempty {scope parent q collection name s} (h : compilePath scope collection = .ok s) :
      Written scope parent (.quantified q collection name none) (s ++ "/" ++ q.word ++ "()")
  | quantified {scope parent q collection name predicate s inner}
      (h : compilePath scope collection = .ok s) (named : name.isEmpty = false)
      (w : Written (name :: scope) none predicate inner) :
      Written scope parent (.quantified q collection name (some predicate))
        (s ++ "/" ++ q.word ++ "(" ++ name ++ ": " ++ inner ++ ")")
  | test {scope parent name t receiver argument a b} (method : Method.ofName? name = some (.test t))
      (fault : receiverFault? t.word receiver = none) (r : Written scope none receiver a)
      (w : Written scope none argument b) :
      Written scope parent (.call (some receiver) name [argument])
        (t.word ++ "(" ++ a ++ "," ++ b ++ ")")
  | map {scope parent target name arguments m operand s}
      (method : Method.ofName? name = some (.map m)) (single : HasOperand target arguments operand)
      (fault : receiverFault? m.word operand = none) (w : Written scope none operand s) :
      Written scope parent (.call target name arguments) (m.word ++ "(" ++ s ++ ")")
  | isNullOrEmpty {scope parent target name arguments operand s}
      (method : Method.ofName? name = some .isNullOrEmpty)
      (single : HasOperand target arguments operand) (w : Written scope none operand s) :
      Written scope parent (.call target name arguments)
        ("(" ++ s ++ " eq null or " ++ s ++ " eq '')")
  | noItems {scope parent name receiver argument path}
      (method : Method.ofName? name = some .isIn) (has : HasItems receiver argument path []) :
      Written scope parent (.call (some receiver) name [argument]) "false"
  | isIn {scope parent name receiver argument path items s}
      (method : Method.ofName? name = some .isIn) (has : HasItems receiver argument path items)
      (nonempty : items ≠ []) (w : Written scope none path s) :
      Written scope parent (.call (some receiver) name [argument])
        (compileNode.membership s items)

/-- Every text that the compiler finds is written by the rules. -/
theorem written_of_finds {scope : List String} {parent : Option BinaryOp} {f : Filter} {s : String}
    (h : Finds (compileNode scope parent f) s) : Written scope parent f s := by
  -- A branch of the compiler that reports an unsupported node finds no text.
  fun_induction compileNode scope parent f generalizing s with
  | case1 scope parent op left right ihl ihr =>
    obtain ⟨a, ha, h⟩ := finds_bind h
    obtain ⟨b, hb, h⟩ := finds_bind h
    obtain rfl := finds_pure h
    exact .binary (ihl ha) (ihr hb)
  | case2 scope parent operand ih =>
    obtain ⟨a, ha, h⟩ := finds_bind h
    obtain rfl := finds_pure h
    exact .not (ih ha)
  | case3 scope parent path => exact .member (finds_lift h)
  | case4 scope parent value =>
    obtain rfl := finds_pure h
    exact .literal
  | case5 scope parent c =>
    obtain ⟨v, hv, h⟩ := finds_bind h
    obtain rfl := finds_fetch hv
    obtain rfl := finds_pure h
    exact .captured
  | case6 scope parent text =>
    obtain rfl := finds_pure h
    exact .raw
  | case7 scope parent q collection name predicate ih =>
    obtain ⟨path, hpath, h⟩ := finds_bind h
    have hpath := finds_lift hpath
    cases predicate with
    | none =>
      obtain rfl := finds_pure h
      exact .nonempty hpath
    | some p =>
      cases hname : name.isEmpty with
      | true =>
        simp only [hname, if_true] at h
        obtain ⟨_, h, _⟩ := finds_bind h
        exact absurd h not_finds_throw
      | false =>
        simp only [hname] at h
        obtain ⟨inner, hinner, h⟩ := finds_bind h
        obtain rfl := finds_pure h
        exact .quantified hpath hname (ih hinner)
  | case8 scope parent target name arguments method => exact absurd h not_finds_throw
  | case9 scope parent target name arguments method => exact absurd h not_finds_throw
  | case10 scope parent name arguments t method => exact absurd h not_finds_throw
  | case11 scope parent name t method receiver argument ihr iha =>
    obtain ⟨_, hfault, h⟩ := finds_bind h
    obtain ⟨a, ha, h⟩ := finds_bind h
    obtain ⟨b, hb, h⟩ := finds_bind h
    obtain rfl := finds_pure h
    exact .test method (finds_checkReceiver hfault) (ihr ha) (iha hb)
  | case12 scope parent name t method target arguments => exact absurd h not_finds_throw
  | case13 scope parent name m method receiver ih =>
    obtain ⟨_, hfault, h⟩ := finds_bind h
    obtain ⟨a, ha, h⟩ := finds_bind h
    obtain rfl := finds_pure h
    exact .map method (.inl ⟨rfl, rfl⟩) (finds_checkReceiver hfault) (ih ha)
  | case14 scope parent name m method receiver ih =>
    obtain ⟨_, hfault, h⟩ := finds_bind h
    obtain ⟨a, ha, h⟩ := finds_bind h
    obtain rfl := finds_pure h
    exact .map method (.inr ⟨rfl, rfl⟩) (finds_checkReceiver hfault) (ih ha)
  | case15 scope parent target name arguments m method => exact absurd h not_finds_throw
  | case16 scope parent name method operand ih =>
    obtain ⟨a, ha, h⟩ := finds_bind h
    obtain rfl := finds_pure h
    exact .isNullOrEmpty method (.inl ⟨rfl, rfl⟩) (ih ha)
  | case17 scope parent name method operand ih =>
    obtain ⟨a, ha, h⟩ := finds_bind h
    obtain rfl := finds_pure h
    exact .isNullOrEmpty method (.inr ⟨rfl, rfl⟩) (ih ha)
  | case18 scope parent target name arguments method => exact absurd h not_finds_throw
  | case19 scope parent name method receiver argument ihr iha =>
    -- Either operand may be the path; what follows is the same for both.
    have membership : ∀ (path : Filter) (items : List Literal),
        HasItems receiver argument path items →
        (∀ {s}, Finds (compileNode scope none path) s → Written scope none path s) →
        Finds (if items.isEmpty = true then pure "false" else match path with
          | captured c => do
            let a ← pure c.value.render
            pure (compileNode.membership a items)
          | _ => do
            let a ← compileNode scope none path
            pure (compileNode.membership a items)) s →
        Written scope parent (.call (some receiver) name [argument]) s := by
      intro path items has ih h
      cases items with
      | nil =>
        obtain rfl := finds_pure h
        exact .noItems method has
      | cons v items =>
        obtain ⟨a, ha, h⟩ := finds_path h
        obtain rfl := finds_pure h
        exact .isIn method has (by simp) (ih ha)
    obtain ⟨_, _, h⟩ := finds_bind h
    obtain ⟨_, _, h⟩ := finds_bind h
    split at h
    · next items hitems =>
      exact membership receiver items (.inl ⟨hitems, rfl⟩) ihr h
    · next items hargument hitems =>
      exact membership argument items (.inr ⟨hargument, hitems, rfl⟩) iha h
    · exact absurd h not_finds_throw
  | case20 scope parent target name arguments method => exact absurd h not_finds_throw

end Filter
end OData
