import OData.Proofs.FilterText.Structure

/-! # Operators among operands

The compiler groups a disjunction under a conjunction, and raw text under a
connective.  An operator among the operands of a comparison, of `isNullOrEmpty` or
of `in` it leaves as it is.  Such an operand is read back as a whole where it binds
tight enough by itself (`read_compile_grouped`), and then the text also means what
the filter means, whatever the leaves stand for.

Where it does not, there are two filters with one text (`compile_regroup`), so no
reader gives back both.  A comparison then takes the nearer end of its operand
(`read_compile_split_left`, `read_compile_split_right`).  In `(A or B) eq false` the two
readings differ in truth (`disjunct_takes_comparison`).
-/
namespace OData
namespace FilterText

open OData.Filter

/-! ## Meanings -/

/-- What the parts of filters stand for.  A value may depend on those of variables:
then `V` is a type of functions. -/
structure Interpretation (V : Type) where
  leaf : String → V
  comparison : BinaryOp → V → V → V
  chain : BinaryOp → List V → V
  not : V → V
  isIn : V → List V → V
  call : String → List V → V
  quantified : Quantifier → String → Option (String × V) → V
  /-- Operands of a connective may be joined first, as long as they stay in order. -/
  chain_flatten : ∀ op xs ys zs, chain op (xs ++ chain op ys :: zs) = chain op (xs ++ ys ++ zs)

namespace Interpretation

variable {V : Type} (I : Interpretation V)

/-- What an operator makes of two values. -/
def join (op : BinaryOp) (left right : V) : V :=
  if op.isConnective then I.chain op [left, right] else I.comparison op left right

mutual

/-- What a text stands for that says this. -/
def value : Expr → V
  | .leaf text => I.leaf text
  | .comparison op left right => I.comparison op (value left) (value right)
  | .chain op operands => I.chain op (values operands)
  | .not operand => I.not (value operand)
  | .isIn subject items => I.isIn (value subject) (values items)
  | .call name arguments => I.call name (values arguments)
  | .quantified q path none => I.quantified q path none
  | .quantified q path (some (x, predicate)) => I.quantified q path (some (x, value predicate))

def values : List Expr → List V
  | [] => []
  | e :: es => value e :: values es

end

theorem values_eq_map (es : List Expr) : I.values es = es.map I.value := by
  induction es with
  | nil => rfl
  | cons e es ih => rw [values, ih, List.map_cons]

/-- The value of one of several literals. -/
def membership (subject : V) (items : List Literal) : V :=
  if items.isEmpty then I.leaf "false" else I.isIn subject (items.map fun v => I.leaf v.render)

/-- What a filter stands for, node by node. -/
def meaning : Filter → V
  | .binary op left right => I.join op (meaning left) (meaning right)
  | .not operand => I.not (meaning operand)
  | .member path => I.leaf (pathText path)
  | .literal value => I.leaf value.render
  | .captured c => I.leaf c.value.render
  | .raw text => ((read? text.toList).map I.value).getD (I.leaf text)
  | .quantified q collection name predicate =>
    match predicate with
    | none => I.quantified q (pathText collection) none
    | some p => I.quantified q (pathText collection) (some (name, meaning p))
  | .call target name arguments =>
    match Method.ofName? name with
    | some (.test t) =>
      match target, arguments with
      | some receiver, [argument] => I.call t.word [meaning receiver, meaning argument]
      | _, _ => I.leaf name
    | some (.map m) =>
      match target, arguments with
      | some operand, [] | none, [operand] => I.call m.word [meaning operand]
      | _, _ => I.leaf name
    | some .isNullOrEmpty =>
      match target, arguments with
      | some operand, [] | none, [operand] =>
        I.join .or (I.join .eq (meaning operand) (I.leaf "null"))
          (I.join .eq (meaning operand) (I.leaf "''"))
      | _, _ => I.leaf name
    | some .isIn =>
      match target, arguments with
      | some receiver, [argument] =>
        match constantItems? argument, constantItems? receiver with
        | some items, _ => I.membership (meaning receiver) items
        | none, some items => I.membership (meaning argument) items
        | none, none => I.leaf name
      | _, _ => I.leaf name
    | _ => I.leaf name
termination_by structural f => f

/-! ### The meaning of what is read -/

/-- A chain means the same, however its operands are written. -/
theorem value_eq_chain_operands (op : BinaryOp) (e : Expr) (xs zs : List V) :
    I.chain op (xs ++ I.value e :: zs) =
      I.chain op (xs ++ (e.operands op).map I.value ++ zs) := by
  cases e with
  | chain op' es =>
    by_cases hop : op' = op
    · subst hop
      rw [Expr.operands, if_pos rfl, value, values_eq_map, I.chain_flatten]
    · simp [Expr.operands, hop]
  | _ => simp [Expr.operands]

theorem value_join (op : BinaryOp) (a b : Expr) :
    I.value (.join op a b) = I.join op (I.value a) (I.value b) := by
  rw [Expr.join, join]
  split
  · have hleft := I.value_eq_chain_operands op a [] [I.value b]
    have hright := I.value_eq_chain_operands op b ((a.operands op).map I.value) []
    simp only [List.nil_append, List.append_nil] at hleft hright
    rw [value, values_eq_map, List.map_append, hleft, hright]
  · rw [value]

theorem value_membership (subject : Expr) (items : List Literal) :
    I.value (FilterText.membership subject items) = I.membership (I.value subject) items := by
  rw [FilterText.membership, membership]
  split
  · rw [value]
  · simp [value, values_eq_map, Function.comp_def]

/-- What is read off a filter means what the filter means. -/
theorem value_reading (f : Filter) : I.value (reading f) = I.meaning f := by
  -- Calls of no method, or of the wrong shape, are leaves on both sides.
  fun_induction reading f with
  | case1 op left right ihl ihr => rw [meaning, value_join, ihl, ihr]
  | case2 operand ih => rw [meaning, value, ih]
  | case3 path => rw [meaning, value]
  | case4 v => rw [meaning, value]
  | case5 c => rw [meaning, value]
  | case6 text => rw [meaning]; cases read? text.toList <;> simp [value]
  | case7 q collection name => rw [meaning, value]
  | case8 q collection name p ih => rw [meaning, value, ih]
  | case9 name t method receiver argument ihr iha =>
    simp only [meaning, method, value, values, ihr, iha]
  | case11 name m method operand ih => simp only [meaning, method, value, values, ih]
  | case12 name m method operand ih => simp only [meaning, method, value, values, ih]
  | case14 name method operand ih => simp only [meaning, method, value_join, value, ih]
  | case15 name method operand ih => simp only [meaning, method, value_join, value, ih]
  | case17 name method receiver argument items hitems ih =>
    simp only [meaning, method, hitems, value_membership, ih]
  | case18 name method receiver argument items hitems hnone ih =>
    simp only [meaning, method, hitems, hnone, value_membership, ih]
  | case19 name method receiver argument hnone hnone' =>
    simp only [meaning, method, hnone, hnone', value]
  | _ =>
    rw [value]
    unfold meaning
    grind

end Interpretation

/-! ## Operands that stay grouped -/

/-- **Operators that bind tight enough stay grouped.**  If every operand of a
comparison, of `isNullOrEmpty` and of `in` binds as tight as its place asks for, then
the text of a filter reads as the filter: each of its binary nodes is read as a whole,
as the operand that it is.  So it means the same under every interpretation. -/
theorem read_compile_grouped {f : Filter} {s : String} (h : Grouped f) (hs : compile f = .ok s) :
    read? s.toList = some (reading f) ∧
      ∀ (V : Type) (I : Interpretation V), (read? s.toList).map I.value = some (I.meaning f) := by
  have hread := read?_of_grouped h hs
  refine ⟨hread, fun V I => ?_⟩
  rw [hread, Option.map_some, I.value_reading]

/-- A comparison as the operand of a comparison and of `isNullOrEmpty`. -/
def nestedComparisons : Filter :=
  .binary .and (.binary .eq (.compare "A" .gt (.int 1)) (Filter.field "B"))
    (.isNullOrEmpty (.compare "C" .lt (.int 2)))

/-- Comparisons that bind tight enough are read back as operands. -/
theorem read_compile_grouped_nested :
    compile nestedComparisons = .ok "A gt 1 eq B and (C lt 2 eq null or C lt 2 eq '')" ∧
      read? "A gt 1 eq B and (C lt 2 eq null or C lt 2 eq '')".toList =
        some (reading nestedComparisons) := by
  have text : (compile nestedComparisons).toOption =
      some "A gt 1 eq B and (C lt 2 eq null or C lt 2 eq '')" := by decide +kernel
  have hs : compile nestedComparisons =
      .ok "A gt 1 eq B and (C lt 2 eq null or C lt 2 eq '')" := by
    cases h : compile nestedComparisons <;> simp_all [Except.toOption]
  have field : ∀ name, IsPlain (.ofEntity name) → Grouped (Filter.field name) :=
    fun name h => .member h
  have left : Grouped (.binary .eq (.compare "A" .gt (.int 1)) (Filter.field "B")) := by
    refine .binary (.binary (field "A" ?_) (.literal trivial) ?_) (field "B" ?_) ?_
    all_goals decide +kernel
  have right : Grouped (.isNullOrEmpty (.compare "C" .lt (.int 2))) := by
    refine .call (by decide +kernel) (fun g hg => ?_) (fun _ g hg => ?_)
    · obtain rfl := List.mem_singleton.mp hg
      exact .binary (field "C" (by decide +kernel)) (.literal trivial) (by decide +kernel)
    · obtain rfl := List.mem_singleton.mp hg
      decide
  exact ⟨hs, (read_compile_grouped (.binary left right (by decide +kernel)) hs).1⟩

/-! ## Operands that do not -/

variable {scope : List String} {op op' : BinaryOp}

/-- The text of a compact node does not depend on what stands above it. -/
theorem compileNode_of_isCompact {f : Filter} (h : IsCompact f) (parent parent' : Option BinaryOp) :
    compileNode scope parent f = compileNode scope parent' f := by
  cases f with
  | binary => exact h.elim
  | not => exact h.elim
  | raw => exact h.elim
  | _ =>
    unfold compileNode
    rfl

/-- **Two filters with one text.**  Two operators get no parentheses, whichever of them
is an operand of the other, unless they are a conjunction and a disjunction. -/
theorem compile_regroup (a c : Filter) {b : Filter} (hb : IsCompact b)
    (h : op = .and → op' ≠ .or) (h' : op = .or → op' ≠ .and) :
    compile (.binary op (.binary op' a b) c) = compile (.binary op' a (.binary op b c)) := by
  have hleft : ¬ (op' = .or ∧ some op = some .and) := by
    rintro ⟨ho, ha⟩
    exact h (Option.some.inj ha) ho
  have hright : ¬ (op = .or ∧ some op' = some .and) := by
    rintro ⟨ho, ha⟩
    exact h' ho (Option.some.inj ha)
  have hnode : compileNode [] none (.binary op (.binary op' a b) c) =
      compileNode [] none (.binary op' a (.binary op b c)) := by
    simp only [compileNode, hleft, hright, if_false, bind_assoc, pure_bind,
      compileNode_of_isCompact hb (some op') (some op), String.append_assoc,
      reduceCtorEq, and_false]
  rw [compile, compile, compileLogged, compileLogged, hnode]

/-- How two operators are grouped shows in what they say, unless they are the same
connective. -/
theorem join_regroup_ne (h : op = op' → op.isConnective = false) (a b c : Expr) :
    Expr.join op (.join op' a b) c ≠ .join op' a (.join op b c) := by
  intro heq
  by_cases hop : op = op'
  · subst hop
    -- The left operand would be a part of itself.
    simp only [Expr.join, h rfl, Bool.false_eq_true, if_false, Expr.comparison.injEq] at heq
    have hsize := congrArg sizeOf heq.2.1
    simp only [Expr.comparison.sizeOf_spec] at hsize
    omega
  · simp only [Expr.join] at heq
    split at heq <;> split at heq <;> simp_all

section
variable {a b c : Filter} {s : String} (ha : Grouped a) (hb : Grouped b) (hc : Grouped c)
  (compact : IsCompact b) (comparison : op.isConnective = false)

include comparison in
theorem boundOf_comparison (parent : Option BinaryOp) (left right : Filter) :
    boundOf parent (.binary op left right) = level op := by
  have hor : op ≠ .or := by
    rintro rfl
    cases comparison
  simp [boundOf, hor]

include comparison in
theorem ne_connective_of_comparison : op ≠ .and ∧ op ≠ .or := by
  constructor <;> (rintro rfl; cases comparison)

include ha hb hc compact comparison

/-- **An operand in front that binds weaker than the comparison is split.**  The
comparison takes its right end. -/
theorem read_compile_split_left (weaker : level op' < level op) (binds : Binds op b c)
    (left : level op' ≤ boundOf (some op') a)
    (hs : compile (.binary op (.binary op' a b) c) = .ok s) :
    read? s.toList = some (.join op' (reading a) (.join op (reading b) (reading c))) ∧
      read? s.toList ≠ some (reading (.binary op (.binary op' a b) c)) := by
  obtain ⟨hand, hor⟩ := ne_connective_of_comparison comparison
  have hbinds : Binds op' a (.binary op b c) := by
    rw [Binds, boundOf_comparison comparison]
    exact ⟨left, Nat.le_of_lt weaker, fun heq => by omega⟩
  have same : compile (.binary op (.binary op' a b) c) = compile (.binary op' a (.binary op b c)) :=
    compile_regroup a c compact (fun h => absurd h hand) fun h => absurd h hor
  have hread := read?_of_grouped (.binary ha (.binary hb hc binds) hbinds) (same.symm.trans hs)
  rw [reading, reading] at hread
  rw [hread, reading, reading]
  refine ⟨rfl, fun heq => ?_⟩
  exact join_regroup_ne (fun _ => comparison) _ _ _ (Option.some.inj heq).symm

/-- **An operand behind that does not bind tighter than the comparison is split.**  The
comparison takes its left end. -/
theorem read_compile_split_right (weaker : level op' ≤ level op) (binds : Binds op a b)
    (right : level op' ≤ boundOf (some op') c ∧
      (level op' = boundOf (some op') c → op'.isConnective = true))
    (hs : compile (.binary op a (.binary op' b c)) = .ok s) :
    read? s.toList = some (.join op' (.join op (reading a) (reading b)) (reading c)) ∧
      read? s.toList ≠ some (reading (.binary op a (.binary op' b c))) := by
  obtain ⟨hand, hor⟩ := ne_connective_of_comparison comparison
  have hbinds : Binds op' (.binary op a b) c := by
    rw [Binds, boundOf_comparison comparison]
    exact ⟨weaker, right⟩
  have same : compile (.binary op' (.binary op a b) c) = compile (.binary op a (.binary op' b c)) :=
    compile_regroup a c compact (fun _ => hor) fun _ => hand
  have hread := read?_of_grouped (.binary (.binary ha hb binds) hc hbinds) (same.trans hs)
  rw [reading, reading] at hread
  rw [hread, reading, reading]
  refine ⟨rfl, fun heq => ?_⟩
  exact join_regroup_ne (fun h => h ▸ comparison) _ _ _ (Option.some.inj heq)

end

/-- Truth values, where `A` is true. -/
def truthOfA : Interpretation Bool where
  leaf text := text == "A"
  comparison op left right := if op = .eq then left == right else left != right
  chain op values := if op = .or then values.any id else values.all id
  not value := !value
  isIn subject items := items.contains subject
  call _ _ := false
  quantified _ _ _ := false
  chain_flatten op xs ys zs := by
    split
    · simp only [List.any_append, List.any_cons, id, Bool.or_assoc]
    · simp only [List.all_append, List.all_cons, id, Bool.and_assoc]

/-- A disjunction in front of a comparison. -/
def comparedDisjunction : Filter :=
  .binary .eq (.binary .or (Filter.field "A") (Filter.field "B")) (.literal (.bool false))

/-- The comparison takes the last disjunct for its operand.  The text is true where the
filter is false. -/
theorem disjunct_takes_comparison :
    compile comparedDisjunction = .ok "A or B eq false" ∧
      read? "A or B eq false".toList =
        some (.chain .or [.leaf "A", .comparison .eq (.leaf "B") (.leaf "false")]) ∧
      reading comparedDisjunction =
        .comparison .eq (.chain .or [.leaf "A", .leaf "B"]) (.leaf "false") ∧
      (read? "A or B eq false".toList).map truthOfA.value = some true ∧
      truthOfA.meaning comparedDisjunction = false := by
  have text : (compile comparedDisjunction).toOption = some "A or B eq false" := by
    decide +kernel
  have hs : compile comparedDisjunction = .ok "A or B eq false" := by
    cases h : compile comparedDisjunction <;> simp_all [Except.toOption]
  have hread : read? "A or B eq false".toList =
      some (.chain .or [.leaf "A", .comparison .eq (.leaf "B") (.leaf "false")]) := by rfl
  refine ⟨hs, hread, by rfl, ?_, by rfl⟩
  rw [hread]
  rfl

end FilterText
end OData
