import OData.Literal
import OData.Text.Casing

/-! # Function calls

A function is called in the path of a resource, with named arguments in
parentheses.  Names of parameters are written in camel case.
-/
namespace OData

/-- The camel case of a name: underscores and hyphens go, the first letter is in
lower case and a letter behind a dropped character in upper case. -/
def camelCase (name : String) : String :=
  String.ofList (go false [] name.toList)
where
  /-- `raised` tells that the next letter stands behind a dropped character, and
  `out` is what has been written. -/
  go (raised : Bool) (out : List Char) : List Char → List Char
    | [] => out
    | c :: rest =>
      if c = '_' ∨ c = '-' then go (!out.isEmpty) out rest
      else if out.isEmpty then go false (Text.lower c) rest
      else if raised then go false (out ++ Text.upper c) rest
      else go false (out ++ [c]) rest

/-- A call of a function with arguments by name. -/
structure FunctionCall where
  name : String
  arguments : List (String × Literal)
  deriving Repr

namespace FunctionCall

/-- An argument; the items of a list stand between brackets. -/
def renderArgument : Literal → String
  | .list items => "[" ++ String.intercalate "," (items.map Literal.renderElement) ++ "]"
  | v => v.render

/-- The arguments without the parentheses around them. -/
def renderArguments (arguments : List (String × Literal)) : String :=
  String.intercalate "," (arguments.map fun a => camelCase a.1 ++ "=" ++ renderArgument a.2)

/-- The call as a path segment. -/
def render (f : FunctionCall) : String := f.name ++ "(" ++ renderArguments f.arguments ++ ")"

end FunctionCall
end OData
