import WideColumn.Request.Basic
import WideColumn.Selection

/-!
# Compiling Expressions

From an expression and an index to the request that asks the index for it.

The filters on the keys of the index make the key condition. All other filters
and the predicates together make the filter, so that no condition is lost and
none is asked for twice. A selection of no attributes has done its work when the
index was chosen, and projects nothing away.

## Main definitions

* `residualConditions`: What the index does not answer.
* `compile`: The request of an expression against an index.
-/

namespace WideColumn

/-- The conditions of an expression that are not on the keys of an index: the
    filters in their order, and the predicates after them. -/
def residualConditions (keys : IndexKeys) (e : Expression) : List Condition :=
  (e.filters.filter fun f => !keys.attrs.contains f.1).map (fun f => f.2.toCondition f.1) ++
    e.predicates

/-- The request that asks an index for an expression. There is none without one
    value of the partition key. -/
def compile (table : String) (index : TableIndex) (e : Expression) :
    Except NoViableIndexes QueryRequest :=
  match e.filterOn index.keys.partition with
  | some (.equal value) =>
    .ok {
      table := table
      index := if index.isPrimary then none else some index.name
      key := {
        partition := index.keys.partition
        value := value
        sort := index.keys.sort.bind fun sort => (e.filterOn sort).map fun f => (sort, f) }
      filter := Condition.all? (residualConditions index.keys e)
      projection := e.selected.filter fun attrs => !attrs.isEmpty
      forward := e.order.all (·.ascending)
      consistent := e.consistent
      limit := none
      startKey := none }
  | _ => .error ⟨[⟨index.name, [.missingPartitionEquality index.keys.partition]⟩]⟩

end WideColumn
