import WideColumn.Format.Condition
import WideColumn.Format.Catalog
import WideColumn.Request.Basic

/-!
# The Format of Requests

Key conditions and query requests as documents.

## Main definitions

* `KeyCondition.write`, `KeyCondition.read?`: Key conditions.
* `QueryRequest.write`, `QueryRequest.read?`: Requests.
-/

namespace WideColumn

open Document

namespace KeyCondition

/-- The form of a key condition. -/
def write (key : KeyCondition) : Json :=
  .object [("partition_key", .string key.partition),
    ("partition_value", key.value.write),
    ("sort", .ofOption (fun s => .array [.string s.1, s.2.write]) key.sort)]

/-- The key condition of a form. -/
def read? (d : Document) : Option KeyCondition := do
  let [partition, value, sort] ←
    d.fields? ["partition_key", "partition_value", "sort"] | none
  return {
    partition := ← required string? partition
    value := ← required Value.read? value
    sort := ← optional (pair? string? Filter.read?) sort }

end KeyCondition

namespace QueryRequest

/-- The form of a request. -/
def write (request : QueryRequest) : Json :=
  .object [("table_name", .string request.table),
    ("index_name", .ofOption .string request.index),
    ("key_condition", request.key.write),
    ("filter", .ofOption Condition.write request.filter),
    ("projection", .ofOption .ofStrings request.projection),
    ("scan_forward", .bool request.forward),
    ("consistent_read", .bool request.consistent),
    ("limit", .ofOption .ofNat request.limit),
    ("exclusive_start_key", .ofOption Item.write request.startKey)]

/-- The request of a form. -/
def read? (d : Document) : Option QueryRequest := do
  let [table, index, key, filter, projection, forward, consistent, limit, start] ←
    d.fields? ["table_name", "index_name", "key_condition", "filter", "projection",
      "scan_forward", "consistent_read", "limit", "exclusive_start_key"] | none
  return {
    table := ← required string? table
    index := ← optional string? index
    key := ← required KeyCondition.read? key
    filter := ← optional Condition.read? filter
    projection := ← optional strings? projection
    forward := ← required bool? forward
    consistent := ← required bool? consistent
    limit := ← optional (nat? UInt32.size) limit
    startKey := ← optional Item.read? start }

end QueryRequest

end WideColumn
