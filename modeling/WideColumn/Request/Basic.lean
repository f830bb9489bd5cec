import WideColumn.Expression

/-!
# Query Requests

A query as a store takes it: against one index, with the conditions sorted into
those that the index answers and those that only filter.

The key condition asks for one value of the partition key and may narrow the
sort key. It is no condition of its own kind: `toCondition` says which one it
is, and rows are selected by that.

## Main definitions

* `KeyCondition`: What the index answers.
* `QueryRequest`: A query against one index.
-/

namespace WideColumn

/-- One value of the partition key, and possibly a filter on the sort key. -/
structure KeyCondition where
  partition : String
  value : Value
  sort : Option (String × Filter)

namespace KeyCondition

/-- The key condition as a condition. -/
def toCondition (key : KeyCondition) : Condition :=
  let partition := Condition.comparison key.partition .equal key.value
  match key.sort with
  | none => partition
  | some (attr, filter) => partition.both (filter.toCondition attr)

end KeyCondition

/-- A query against one index of a table. -/
structure QueryRequest where
  table : String
  /-- The secondary index, or nothing for the table itself. -/
  index : Option String
  key : KeyCondition
  /-- What the rows must satisfy beyond the key condition. -/
  filter : Option Condition
  projection : Option (List String)
  forward : Bool
  consistent : Bool
  /-- How many rows the store may evaluate for a page. -/
  limit : Option Nat
  /-- The key to resume after. -/
  startKey : Option Item

end WideColumn
