import OData.Literal

/-! # Filters

A filter is a predicate over the entities of a set, as a tree.  Its leaves are
properties of the entity, properties of the variables that quantifiers bind,
literals, and values captured from outside.
-/
namespace OData

/-- An operator between two operands. -/
inductive BinaryOp where
  | eq | ne | gt | ge | lt | le | and | or
  deriving DecidableEq, Repr

namespace BinaryOp

def symbol : BinaryOp → String
  | eq => "eq"
  | ne => "ne"
  | gt => "gt"
  | ge => "ge"
  | lt => "lt"
  | le => "le"
  | and => "and"
  | or => "or"

/-- A connective joins predicates, the other operators compare values. -/
def isConnective : BinaryOp → Bool
  | and | or => true
  | _ => false

/-- All operators. -/
def all : List BinaryOp := [eq, ne, gt, ge, lt, le, and, or]

/-- The operator with the symbol given. -/
def ofSymbol? (s : String) : Option BinaryOp := all.find? fun op => op.symbol == s

end BinaryOp

/-- Where a member path starts. -/
inductive PathRoot where
  /-- At the entity that the filter is about. -/
  | entity
  /-- At a variable bound by a quantifier. -/
  | bound (name : String)
  deriving DecidableEq, Repr

/-- A path through properties, such as `Address/City`. -/
structure MemberPath where
  root : PathRoot
  segments : List String
  deriving DecidableEq, Repr

namespace MemberPath

/-- The segments of a path between slashes; empty ones are dropped. -/
def segmentsOf (path : String) : List String :=
  ((path.toList.splitOn '/').filter fun s => !s.isEmpty).map String.ofList

/-- A path of the entity. -/
def ofEntity (path : String) : MemberPath := ⟨.entity, segmentsOf path⟩

/-- A path of a bound variable; the empty one is the variable itself. -/
def ofBound (name path : String) : MemberPath := ⟨.bound name, segmentsOf path⟩

end MemberPath

/-- Whether some element of a collection or every one satisfies a predicate. -/
inductive Quantifier where
  | any | all
  deriving DecidableEq, Repr

/-- The word of a quantifier. -/
def Quantifier.word : Quantifier → String
  | any => "any"
  | all => "all"

/-- A value from outside the filter, fetched when the filter is compiled.  The
slot tells the captures of one filter apart. -/
structure Capture where
  slot : Nat
  value : Literal
  deriving Repr

/-- A predicate, or a part of one. -/
inductive Filter where
  | binary (op : BinaryOp) (left right : Filter)
  | not (operand : Filter)
  | member (path : MemberPath)
  | literal (value : Literal)
  | captured (capture : Capture)
  /-- A method call, with the value it is called on if there is one. -/
  | call (target : Option Filter) (method : String) (arguments : List Filter)
  /-- A predicate about the elements of a collection, each under the name given;
  without predicate, that the collection has elements. -/
  | quantified (quantifier : Quantifier) (collection : MemberPath) (name : String)
    (predicate : Option Filter)
  /-- Filter text as it is. -/
  | raw (text : String)
  deriving Repr, Inhabited

namespace Filter

/-- The kind of a node in one word. -/
def kind : Filter → String
  | binary .. => "binary"
  | not _ => "not"
  | member _ => "member"
  | literal _ => "literal"
  | captured _ => "captured"
  | call .. => "method"
  | quantified .. => "quantifier"
  | raw _ => "raw"

/-! ## Building filters -/

/-- A property of the entity. -/
def field (path : String) : Filter := member (.ofEntity path)

/-- A property of a bound variable. -/
def ofBound (name path : String) : Filter := member (.ofBound name path)

/-- A property of the entity beside a value. -/
def compare (path : String) (op : BinaryOp) (value : Literal) : Filter :=
  binary op (field path) (literal value)

def isNull (path : String) : Filter := compare path .eq .null

def isNotNull (path : String) : Filter := compare path .ne .null

/-- A method call on this value. -/
def on (f : Filter) (method : String) (arguments : List Filter) : Filter :=
  call (some f) method arguments

def contains (path : String) (value : Literal) : Filter :=
  (field path).on "contains" [literal value]

def startsWith (path : String) (value : Literal) : Filter :=
  (field path).on "startswith" [literal value]

def endsWith (path : String) (value : Literal) : Filter :=
  (field path).on "endswith" [literal value]

def toLower (f : Filter) : Filter := f.on "tolower" []

def toUpper (f : Filter) : Filter := f.on "toupper" []

def trim (f : Filter) : Filter := f.on "trim" []

def isNullOrEmpty (f : Filter) : Filter := call none "isNullOrEmpty" [f]

/-- The property has one of the values. -/
def isIn (path : String) (values : List Literal) : Filter :=
  (field path).on "in" [literal (.list values)]

/-- Some element, under the name given, satisfies the predicate. -/
def any (collection : MemberPath) (name : String) (predicate : Filter) : Filter :=
  quantified .any collection name (some predicate)

/-- Every element, under the name given, satisfies the predicate. -/
def all (collection : MemberPath) (name : String) (predicate : Filter) : Filter :=
  quantified .all collection name (some predicate)

/-- The collection has an element. -/
def hasAny (collection : MemberPath) : Filter := quantified .any collection "" none

end Filter
end OData
