import OData.Filter.Compile
import OData.SortKey

/-! # Expansions

An expansion asks for the entities behind a navigation property along with an
entity.  It can carry options of its own, expansions among them.
-/
namespace OData

/-- A navigation property to expand, with options for the entities behind it. -/
inductive Expansion where
  | mk (navigation : String) (select : List String) (expand : List Expansion)
    (filters : List Filter) (orderBy : List SortKey) (top skip : Option Nat)
  deriving Repr

/-- Several filter texts as one: all of them hold. -/
def combineFilters (clauses : List String) : String :=
  String.intercalate " and " (clauses.map fun c => "(" ++ c ++ ")")

/-- An option with its name, if it has a value. -/
def namedOption (name : String) (present : Bool) (value : String) : List String :=
  if present then [name ++ "=" ++ value] else []

namespace Expansion

/-- The expansion of a navigation property without options. -/
def ofNavigation (navigation : String) : Expansion := mk navigation [] [] [] [] none none

mutual

/-- The text of an expansion.  Of several filters without a text the first is
reported, and one of a nested expansion before those of this one. -/
def render : Expansion → Except Filter.Unsupported String
  | mk navigation select expand filters orderBy top skip => do
    let nested ← renderAll expand
    let clauses ← filters.mapM Filter.compile
    let options :=
      namedOption "$select" (!select.isEmpty) (String.intercalate "," select) ++
      namedOption "$expand" (!nested.isEmpty) (String.intercalate "," nested) ++
      namedOption "$filter" (!clauses.isEmpty) (combineFilters clauses) ++
      namedOption "$orderby" (!orderBy.isEmpty) (SortKey.render orderBy) ++
      namedOption "$top" top.isSome (toString (top.getD 0)) ++
      namedOption "$skip" skip.isSome (toString (skip.getD 0))
    return if options.isEmpty then navigation
      else navigation ++ "(" ++ String.intercalate ";" options ++ ")"
termination_by structural e => e

/-- The texts of several expansions. -/
def renderAll : List Expansion → Except Filter.Unsupported (List String)
  | [] => return []
  | e :: es => do
    let text ← render e
    return text :: (← renderAll es)
termination_by structural es => es

end

theorem renderAll_eq_mapM (es : List Expansion) : renderAll es = es.mapM render := by
  induction es with
  | nil => rfl
  | cons e es ih => simp [renderAll, ih]

end Expansion
end OData
