import OData.Failure
import OData.Operation

/-! # Batches

A batch sends many operations in one request.  Operations in a change set succeed
or fail together.
-/
namespace OData

/-- An operation of its own, or a change set. -/
inductive BatchItem where
  | operation (op : Operation)
  | changeset (operations : List Operation)

/-- The operations of an item. -/
def BatchItem.operations : BatchItem → List Operation
  | operation op => [op]
  | changeset ops => ops

/-- Operations and change sets in the order in which they are sent. -/
structure Batch where
  items : List BatchItem

namespace Batch

/-- The operations in the order in which they are sent. -/
def operations (b : Batch) : List Operation := b.items.flatMap BatchItem.operations

/-- The batch of the operations given, each on its own. -/
def ofOperations (ops : List Operation) : Batch := ⟨ops.map .operation⟩

/-- The number of operations. -/
def size (b : Batch) : Nat := b.operations.length

/-- Whether there is no operation to send. -/
def isEmpty (b : Batch) : Bool := b.operations.isEmpty

/-- The first text of a list that stood there before. -/
def firstRepeated? (seen : List String) : List String → Option String
  | [] => none
  | s :: rest => if s ∈ seen then some s else firstRepeated? (s :: seen) rest

/-- The first id that an earlier operation has already. -/
def repeatedId? (b : Batch) : Option String :=
  firstRepeated? [] (b.operations.map Operation.id)

end Batch
end OData
