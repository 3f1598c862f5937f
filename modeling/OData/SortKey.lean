import OData.Text.Blank
import OData.Text.Casing
import OData.Text.Split

/-! # Sort keys

Entities are ordered by properties, each in ascending or descending order.  A
sort key is read from a text such as `Name desc`.
-/
namespace OData

/-- A property to order by. -/
structure SortKey where
  property : String
  descending : Bool
  deriving DecidableEq, Repr

namespace SortKey

def ascendingBy (property : String) : SortKey := ⟨property, false⟩

def descendingBy (property : String) : SortKey := ⟨property, true⟩

/-- The sort key of a text: a property, which the last space may part from the
word `asc` or `desc` in any case.  Other texts are a property as a whole. -/
def ofText (text : String) : SortKey :=
  let clause := Text.trim text.toList
  match Text.cutLast? ' ' clause with
  | some (property, direction) =>
    if Text.asciiLower direction = ['d', 'e', 's', 'c'] then
      descendingBy (String.ofList (Text.trim property))
    else if Text.asciiLower direction = ['a', 's', 'c'] then
      ascendingBy (String.ofList (Text.trim property))
    else ascendingBy (String.ofList clause)
  | none => ascendingBy (String.ofList clause)

/-- The text of a sort key. -/
def toText (k : SortKey) : String := if k.descending then k.property ++ " desc" else k.property

/-- The texts of several sort keys in one. -/
def render (keys : List SortKey) : String := String.intercalate "," (keys.map toText)

end SortKey
end OData
