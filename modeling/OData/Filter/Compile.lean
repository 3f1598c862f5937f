import OData.Failure
import OData.Filter
import OData.Text.Casing

/-! # Filter text

`Filter.compile` writes a filter the way a service reads it, or says which node
has no text.  A disjunction directly under a conjunction stands in parentheses,
and so does raw text directly under a connective.  Names of methods are matched
whatever the case of their ASCII letters.

Compiling fetches the captured values.  `Filter.compileLogged` also tells which
ones, in the order in which they were fetched.
-/
namespace OData
namespace Filter

/-! ## Methods -/

/-- A method that tests a string against another one. -/
inductive StringTest where
  | contains | startsWith | endsWith
  deriving DecidableEq, Repr

def StringTest.word : StringTest → String
  | contains => "contains"
  | startsWith => "startswith"
  | endsWith => "endswith"

/-- A method that makes a string of a string. -/
inductive StringMap where
  | toLower | toUpper | trim
  deriving DecidableEq, Repr

def StringMap.word : StringMap → String
  | toLower => "tolower"
  | toUpper => "toupper"
  | trim => "trim"

/-- The methods that filter text can express.  A quantifier is none: it has a
node of its own. -/
inductive Method where
  | test (t : StringTest)
  | map (m : StringMap)
  | isNullOrEmpty
  | isIn
  | quantifier
  deriving DecidableEq, Repr

/-- The method with the name given. -/
def Method.ofName? (name : String) : Option Method :=
  match lowercased name with
  | "contains" => some (.test .contains)
  | "startswith" => some (.test .startsWith)
  | "endswith" => some (.test .endsWith)
  | "tolower" => some (.map .toLower)
  | "toupper" => some (.map .toUpper)
  | "trim" => some (.map .trim)
  | "isnullorempty" => some .isNullOrEmpty
  | "in" => some .isIn
  | "any" | "all" => some .quantifier
  | _ => none

/-! ## What has no text -/

/-- Why a filter has no text. -/
inductive Unsupported where
  | emptyPath
  | unbound (name : String)
  | noReceiver (test : StringTest)
  | argumentCount (test : StringTest) (count : Nat)
  | operandCount (map : StringMap)
  | nullOrEmptyOperands
  | membershipShape
  | receiver (method kind : String)
  | quantifierCall (name : String)
  | unknownMethod (name : String)
  | unnamedVariable (quantifier : Quantifier)
  deriving DecidableEq, Repr

namespace Unsupported

/-- The kind of the node that has no text. -/
def kind : Unsupported → String
  | emptyPath | unbound _ => "member"
  | unnamedVariable _ => "quantifier"
  | _ => "method"

/-- What is wrong with it. -/
def detail : Unsupported → String
  | emptyPath => "empty member path"
  | unbound name =>
    s!"'{name}' is not bound by an enclosing any/all; " ++
      "capture outside values with Filter::captured"
  | noReceiver t => s!"{t.word} requires a receiver"
  | argumentCount t n => s!"{t.word} takes exactly one argument, got {n}"
  | operandCount m => s!"{m.word} takes a single string operand"
  | nullOrEmptyOperands => "isNullOrEmpty takes a single operand"
  | membershipShape => "in requires a member path and a constant collection"
  | receiver method kind =>
    s!"{method} receiver must be a string property or string method, got {kind}"
  | quantifierCall name => s!"{name} must be expressed as a quantifier node"
  | unknownMethod name => name
  | unnamedVariable q => s!"{q.word} with a predicate needs a lambda variable"

def toFailure (u : Unsupported) : Failure := .unsupported u.kind u.detail

end Unsupported

/-! ## Compiling -/

/-- A computation that may find no text and that notes the captures it fetches,
also those it fetched before it failed. -/
abbrev Compiler := ExceptT Unsupported (StateM (List Nat))

/-- The value of a capture, which is fetched by this. -/
def fetch (c : Capture) : Compiler Literal := do
  modify (· ++ [c.slot])
  return c.value

/-- Fetches the value of a node that is a capture. -/
def fetchIfCaptured : Filter → Compiler Unit
  | captured c => do let _ ← fetch c
  | _ => pure ()

/-- The value of a node that is a literal or a capture. -/
def constant? : Filter → Option Literal
  | literal v => some v
  | captured c => some c.value
  | _ => none

/-- The items of a node that is a literal list or a captured one. -/
def constantItems? (f : Filter) : Option (List Literal) := f.constant?.bind Literal.items?

/-- The text of a member path where the variables of `scope` are bound. -/
def compilePath (scope : List String) (path : MemberPath) : Except Unsupported String :=
  let segments := String.intercalate "/" path.segments
  match path.root with
  | .entity => if path.segments.isEmpty then .error .emptyPath else .ok segments
  | .bound name =>
    if name ∉ scope then .error (.unbound name)
    else .ok (if path.segments.isEmpty then name else name ++ "/" ++ segments)

/-- What keeps a node from being the receiver of a string method: it has to be a
property or a call that makes a string. -/
def receiverFault? (method : String) : Filter → Option Unsupported
  | member _ => none
  | f@(call _ name _) =>
    match Method.ofName? name with
    | some (.map _) => none
    | _ => some (.receiver method f.kind)
  | f => some (.receiver method f.kind)

/-- Fails for a node that cannot be the receiver of a string method. -/
def checkReceiver (method : String) (f : Filter) : Compiler Unit :=
  match receiverFault? method f with
  | some fault => throw fault
  | none => pure ()

/-- The text of a node under the operator `parent`, where the variables of
`scope` are bound. -/
def compileNode (scope : List String) (parent : Option BinaryOp) : Filter → Compiler String
  | binary op left right => do
    let left ← compileNode scope (some op) left
    let right ← compileNode scope (some op) right
    let joined := left ++ " " ++ op.symbol ++ " " ++ right
    return if op = .or ∧ parent = some .and then "(" ++ joined ++ ")" else joined
  | not operand => do
    return "not (" ++ (← compileNode scope none operand) ++ ")"
  | member path => compilePath scope path
  | literal value => return value.render
  | captured c => do
    return (← fetch c).render
  | raw text =>
    return if parent.any BinaryOp.isConnective then "(" ++ text ++ ")" else text
  | quantified q collection name predicate => do
    let path ← compilePath scope collection
    match predicate with
    | none => return path ++ "/" ++ q.word ++ "()"
    | some p =>
      if name.isEmpty then throw (.unnamedVariable q)
      let inner ← compileNode (name :: scope) none p
      return path ++ "/" ++ q.word ++ "(" ++ name ++ ": " ++ inner ++ ")"
  | call target name arguments =>
    match Method.ofName? name with
    | none => throw (.unknownMethod name)
    | some .quantifier => throw (.quantifierCall name)
    | some (.test t) =>
      match target, arguments with
      | none, _ => throw (.noReceiver t)
      | some receiver, [argument] => do
        checkReceiver t.word receiver
        let receiver ← compileNode scope none receiver
        let argument ← compileNode scope none argument
        return t.word ++ "(" ++ receiver ++ "," ++ argument ++ ")"
      | some _, arguments => throw (.argumentCount t arguments.length)
    | some (.map m) =>
      match target, arguments with
      | some receiver, [] | none, [receiver] => do
        checkReceiver m.word receiver
        return m.word ++ "(" ++ (← compileNode scope none receiver) ++ ")"
      | _, _ => throw (.operandCount m)
    | some .isNullOrEmpty =>
      match target, arguments with
      | some operand, [] | none, [operand] => do
        let operand ← compileNode scope none operand
        return "(" ++ operand ++ " eq null or " ++ operand ++ " eq '')"
      | _, _ => throw .nullOrEmptyOperands
    | some .isIn =>
      match target, arguments with
      | some receiver, [argument] => do
        fetchIfCaptured receiver
        fetchIfCaptured argument
        match constantItems? argument, constantItems? receiver with
        | some values, _ =>
          if values.isEmpty then return "false"
          let path ← match receiver with
            | captured c => pure c.value.render
            | _ => compileNode scope none receiver
          return membership path values
        | none, some values =>
          if values.isEmpty then return "false"
          let path ← match argument with
            | captured c => pure c.value.render
            | _ => compileNode scope none argument
          return membership path values
        | none, none => throw .membershipShape
      | _, _ => throw .membershipShape
termination_by structural f => f
where
  /-- That the value of a path is one of several. -/
  membership (path : String) (values : List Literal) : String :=
    path ++ " in (" ++ String.intercalate "," (values.map Literal.render) ++ ")"

/-- The text of a filter, and the slots of the captures that were fetched for
it. -/
def compileLogged (f : Filter) : Except Unsupported String × List Nat :=
  (compileNode [] none f).run.run []

/-- The text of a filter. -/
def compile (f : Filter) : Except Unsupported String := f.compileLogged.1

end Filter
end OData
