import OData.Json.Reader
import OData.Shape

/-! # Pages

A service answers a query with a page of records, which may tell how many there
are in all and where the next page is.
-/
namespace OData

/-- A page of records. -/
structure Page where
  records : List Json
  count : Option Nat
  nextLink : Option String
  deriving DecidableEq, Repr

namespace Page

/-- The page without records. -/
def empty : Page := ⟨[], none, none⟩

/-- The member of a body under `name`, null or read by `f`; `none` if it is
neither. -/
def optionalMember {α : Type} (body : Json) (name : String) (f : Json → Option α) :
    Option (Option α) :=
  match body.member? name with
  | none | some .null => some none
  | some j => (f j).map some

/-- The page of a body.  A body without a list of values is a single record. -/
def ofBody? (body : Json) : Option Page :=
  match (body.member? "value").bind Json.items? with
  | some records => do
    let count ← optionalMember body "@odata.count" (Json.natBelow? UInt64.size)
    let nextLink ← optionalMember body "@odata.nextLink" Json.text?
    return ⟨records, count, nextLink⟩
  | none => some ⟨[body], none, none⟩

/-- The body that a page stands for. -/
def toJson (p : Page) : Json :=
  Json.ofMembers <|
    [("value", Json.array p.records)] ++
    (p.count.map fun n => ("@odata.count", Json.int n)).toList ++
    (p.nextLink.map fun l => ("@odata.nextLink", Json.text l)).toList

end Page

/-- What came of asking for a page. -/
inductive PageResult where
  | success (status : Nat) (page : Page)
  | refused (status : Nat) (error : String)
  deriving DecidableEq, Repr

namespace PageResult

def isSuccess : PageResult → Bool
  | success .. => true
  | refused .. => false

def status : PageResult → Nat
  | success status _ | refused status _ => status

def page? : PageResult → Option Page
  | success _ page => some page
  | refused .. => none

def error? : PageResult → Option String
  | success .. => none
  | refused _ error => some error

def records? (r : PageResult) : Option (List Json) := r.page?.map Page.records

def count? (r : PageResult) : Option Nat := r.page?.bind Page.count

/-- Where the next page is, if there is one. -/
def nextLink? (r : PageResult) : Option String := r.page?.bind Page.nextLink

def hasMore (r : PageResult) : Bool := r.nextLink?.isSome

/-- The records of the page, each read by a shape. -/
def readRecords? (r : PageResult) (shape : Shape) : Option (List Json) :=
  (r.records?.getD []).mapM shape.read?

end PageResult
end OData
