import OData.Proofs.FilterText.Tokens
import OData.Text.Split

/-! # Reading filter text

Filter text is read from left to right.  Inside a pair of parentheses the reader
keeps the operators that still wait for their right operands, each with its left
one.  An operator that binds no tighter than such an operator completes it first;
`settle` does this.  Outside it keeps one frame for every parenthesis that is open.

`or` binds weakest, then `and`, then the comparisons, of which `eq` and `ne` bind
weaker than the others.  Connectives of one kind in a row make one chain, so it
does not show in a reading how they were grouped.

`Reads` is what the theorems about filter text are put together from.  It says of
some tokens that they read as an expression wherever an operand may stand.
-/
namespace OData
namespace FilterText

/-! ## Expressions -/

/-- What filter text says. -/
inductive Expr where
  /-- A property or a literal, as its text. -/
  | leaf (text : String)
  | comparison (op : BinaryOp) (left right : Expr)
  /-- Operands that a connective joins. -/
  | chain (op : BinaryOp) (operands : List Expr)
  | not (operand : Expr)
  | isIn (subject : Expr) (items : List Expr)
  | call (name : String) (arguments : List Expr)
  | quantified (quantifier : Quantifier) (path : String) (predicate : Option (String × Expr))

namespace Expr

/-- The operands of a chain, or the expression alone. -/
def operands (op : BinaryOp) : Expr → List Expr
  | chain op' es => if op' = op then es else [chain op' es]
  | e => [e]

/-- Two expressions with an operator between them. -/
def join (op : BinaryOp) (left right : Expr) : Expr :=
  if op.isConnective then chain op (left.operands op ++ right.operands op)
  else comparison op left right

theorem join_assoc {op : BinaryOp} (h : op.isConnective = true) (a b c : Expr) :
    join op (join op a b) c = join op a (join op b c) := by
  simp [join, h, operands]

/-- As many negations of an expression. -/
def negated : Nat → Expr → Expr
  | 0, e => e
  | n + 1, e => not (negated n e)

end Expr

/-! ## Precedence -/

/-- How tight an operator binds. -/
def level : BinaryOp → Nat
  | .or => 1
  | .and => 2
  | .eq | .ne => 3
  | .gt | .ge | .lt | .le => 4

/-- Tighter than any operator binds. -/
def primary : Nat := 5

theorem level_pos (op : BinaryOp) : 0 < level op := by cases op <;> decide

theorem level_lt_primary (op : BinaryOp) : level op < primary := by cases op <;> decide

/-- Connectives differ in how tight they bind, from each other and from the rest. -/
theorem eq_of_level_eq {a b : BinaryOp} (h : level a = level b) (hb : b.isConnective = true) :
    a = b := by
  cases a <;> cases b <;> simp_all [level, BinaryOp.isConnective]

/-- Operators that wait for their right operands, the last one first. -/
abbrev Pending := List (Expr × BinaryOp)

/-- Completes the operators that bind at least as tight as `bound`. -/
def settle (bound : Nat) : Pending → Expr → Pending × Expr
  | [], e => ([], e)
  | (left, op) :: rest, e =>
    if bound ≤ level op then settle bound rest (.join op left e) else ((left, op) :: rest, e)

/-- Completes all operators. -/
def whole (pending : Pending) (e : Expr) : Expr := (settle 0 pending e).2

/-! ## The reader -/

/-- What a parenthesis opens. -/
inductive Opener where
  | group
  | call (name : String)
  | quantifier (quantifier : Quantifier) (path : String)
  | items (subject : Expr)

/-- A word in front of a parenthesis calls a function, unless its last segment is a
quantifier. -/
def Opener.ofHead (w : List Char) : Opener :=
  match Text.cutLast? '/' w with
  | some (path, last) =>
    if last = "any".toList then .quantifier .any (String.ofList path)
    else if last = "all".toList then .quantifier .all (String.ofList path)
    else .call (String.ofList w)
  | none => .call (String.ofList w)

/-- What the parentheses come to, from the variable bound in them and the
expressions between their commas. -/
def Opener.complete? : Opener → Option String → List Expr → Option Expr
  | .group, none, [e] => some e
  | .call name, none, es => some (.call name es)
  | .quantifier q path, none, [] => some (.quantified q path none)
  | .quantifier q path, some x, [e] => some (.quantified q path (some (x, e)))
  | .items subject, none, e :: es => some (.isIn subject (e :: es))
  | _, _, _ => none

/-- A parenthesis that is open. -/
structure Frame where
  opener : Opener
  binder : Option String
  /-- What stands in front of the last comma. -/
  arguments : List Expr
  /-- The operators in front of the parenthesis. -/
  pending : Pending
  /-- The negations directly in front of it. -/
  nots : Nat

/-- What the reader expects. -/
inductive Spot where
  /-- An operand, behind some negations. -/
  | wanted (nots : Nat)
  /-- An operator, behind an operand. -/
  | given (nots : Nat) (e : Expr)
  /-- The list of items behind `in`. -/
  | listed (nots : Nat) (subject : Expr)

structure State where
  stack : List Frame
  pending : Pending
  spot : Spot

namespace State

/-- Behind an opened parenthesis. -/
def enter (σ : State) (opener : Opener) (nots : Nat) : State :=
  ⟨⟨opener, none, [], σ.pending, nots⟩ :: σ.stack, [], .wanted 0⟩

/-- Behind a closed parenthesis with the expressions given in it. -/
def leave (frame : Frame) (stack : List Frame) (es : List Expr) : Option State :=
  (frame.opener.complete? frame.binder es).map fun e =>
    ⟨stack, frame.pending, .given frame.nots e⟩

end State

/-- What a word does. -/
def stepWord (σ : State) (w : List Char) : Option State :=
  match σ.spot with
  | .wanted n =>
    if w = "not".toList then some { σ with spot := .wanted (n + 1) }
    else if operators.contains w then none
    else some { σ with spot := .given n (.leaf (String.ofList w)) }
  | .given n e =>
    if w = "in".toList then some { σ with spot := .listed n e }
    else (BinaryOp.ofSymbol? (String.ofList w)).map fun op =>
      -- What binds as tight in front is complete, and is the left operand.
      let (pending, left) := settle (level op) σ.pending (e.negated n)
      ⟨σ.stack, (left, op) :: pending, .wanted 0⟩
  | .listed .. => none

/-- What a token does. -/
def step (σ : State) (t : Token) : Option State :=
  match t, σ.spot, σ.stack with
  | .word w, _, _ => stepWord σ w
  | .head w, .wanted n, _ => some (σ.enter (.ofHead w) n)
  | .opening, .wanted n, _ => some (σ.enter .group n)
  | .opening, .listed n e, _ => some (σ.enter (.items e) n)
  | .binder x, .wanted 0, frame :: stack =>
    match frame.opener, frame.binder, frame.arguments, σ.pending with
    | .quantifier .., none, [], [] =>
      some { σ with stack := { frame with binder := some (String.ofList x) } :: stack }
    | _, _, _, _ => none
  | .comma, .given n e, frame :: stack =>
    some ⟨{ frame with arguments := frame.arguments ++ [whole σ.pending (e.negated n)] } :: stack,
      [], .wanted 0⟩
  | .closing, .given n e, frame :: stack =>
    State.leave frame stack (frame.arguments ++ [whole σ.pending (e.negated n)])
  -- Parentheses with nothing in them.
  | .closing, .wanted 0, frame :: stack =>
    match frame.arguments, σ.pending with
    | [], [] => State.leave frame stack []
    | _, _ => none
  | _, _, _ => none

/-- What some tokens do. -/
def run (σ : State) (ts : List Token) : Option State := ts.foldlM step σ

/-- Nothing read so far. -/
def start : State := ⟨[], [], .wanted 0⟩

/-- What a text says, if it is grammatical. -/
def read? (text : List Char) : Option Expr := do
  match ← run start (← lex text) with
  | ⟨[], pending, .given n e⟩ => some (whole pending (e.negated n))
  | _ => none

end FilterText
end OData
