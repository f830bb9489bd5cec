import WideColumn.Store.Scan
import WideColumn.Store.Error

/-!
# The Memory Store

A store that keeps its tables in memory.

Within a table an item is identified by the values of the table's key
attributes, compared by structure. Writing an item replaces the one with the
same key where it stands, or adds it behind all others. Nothing else is kept in
order: indexes are scans, and the counts that a table is described with are
taken when it is described.

The store can be made slow and made to throttle, so that what depends on it can
be tried under both. Latency is only kept here. It is for whoever runs the calls
to let it pass, which is why a call that counts does so when it is answered.

A page is sorted, and the sort may panic on rows whose order is no preorder. What
may become of a request is `MayAnswer`. `runQuery` is the answer where the sort does
not panic, and `panics` is the test for whether it may.

## Main definitions

* `Table`: A schema and its items.
* `MemoryStore`: Tables and the behaviour of the store.
* `MemoryStore.create`, `putItem`, `load`, `getItem`: Working with items.
* `MemoryStore.describe`, `runQuery`, `execute`: Answering a client.
* `MemoryStore.panics`, `MayAnswer`: What else may become of a request.
-/

namespace WideColumn

/-- A table with its items in the order in which their keys were first put. -/
structure Table where
  schema : TableSchema
  items : List Item

/-- Put an item in place of the first one that passes the test, or behind all. -/
def placeItem (replaces : Item → Bool) (item : Item) : List Item → List Item
  | [] => [item]
  | held :: rest =>
    if replaces held then item :: rest else held :: placeItem replaces item rest

namespace Table

/-- The item has the values of a key under the table's key attributes. -/
def hasKey (table : Table) (key item : Item) : Bool :=
  table.schema.keys.attrs.all fun attr =>
    Value.sameOptional (item.get? attr) (key.get? attr)

/-- Write an item. It must carry every key attribute. -/
def put (table : Table) (item : Item) : Except StoreError Table :=
  match table.schema.keys.missingFrom? item with
  | some attr => .error (.validation (.itemLacksKey attr))
  | none => .ok { table with items := placeItem (table.hasKey item) item table.items }

/-- The item with a key, which must be complete. -/
def get (table : Table) (key : Item) : Except StoreError (Option Item) :=
  match table.schema.keys.missingFrom? key with
  | some attr => .error (.validation (.keyLacksAttribute attr))
  | none => .ok (table.items.find? (table.hasKey key))

/-- The table as one of its indexes. A consistent read cannot be served by an
    index that is partitioned on its own. -/
def view (table : Table) (request : QueryRequest) : Except StoreError IndexView :=
  match request.index with
  | none => .ok ⟨table.schema.keys, table.schema.keys, .all⟩
  | some name =>
    match table.schema.findIndex? name with
    | none => .error (.validation (.noSuchIndex table.schema.name name))
    | some index =>
      if request.consistent && index.distribution == .global then
        .error (.validation (.consistentReadOfGlobal name))
      else .ok ⟨index.keys, table.schema.keys, index.projection⟩

/-- The index that a request asks, and how many rows its page evaluates at most. -/
def target (table : Table) (pageSize : Nat) (request : QueryRequest) :
    Except StoreError (IndexView × Nat) := do
  let view ← table.view request
  match request.limit with
  | some 0 => .error (.validation .limitZero)
  | some limit => return (view, min limit pageSize)
  | none => return (view, pageSize)

end Table

/-- A store that keeps its tables in memory. -/
structure MemoryStore where
  tables : Keyed Table
  /-- How many rows a page evaluates at most. -/
  pageSize : Nat
  pageSize_pos : 0 < pageSize
  /-- How many milliseconds descriptions and pages take. -/
  latency : Option Nat
  /-- How many of the next pages are throttled. -/
  throttles : Nat
  describeCalls : Nat
  executeCalls : Nat
  /-- Some page had rows that the sort may panic on. -/
  panicked : Bool

namespace MemoryStore

/-- The page size of a store for which none is given. -/
def defaultPageSize : Nat := 100

/-- A store without tables. A page evaluates at least one row. -/
def empty (pageSize : Nat) : MemoryStore where
  tables := []
  pageSize := max pageSize 1
  pageSize_pos := Nat.lt_of_lt_of_le Nat.zero_lt_one (Nat.le_max_right pageSize 1)
  latency := none
  throttles := 0
  describeCalls := 0
  executeCalls := 0
  panicked := false

/-- The table of a name. -/
def table (store : MemoryStore) (name : String) : Except StoreError Table :=
  match store.tables.get? name with
  | some table => .ok table
  | none => .error (.tableNotFound name)

/-- Create a table without items, in place of any of that name. -/
def create (store : MemoryStore) (schema : TableSchema) : MemoryStore :=
  { store with tables := store.tables.insert schema.name ⟨schema, []⟩ }

/-- Write an item to a table. -/
def putItem (store : MemoryStore) (name : String) (item : Item) :
    Except StoreError MemoryStore := do
  let table ← store.table name
  let table ← table.put item
  return { store with tables := store.tables.insert name table }

/-- Write items up to the first that cannot be written. Those before it stay. -/
def loadItems (name : String) : List Item → MemoryStore → Except StoreError Unit × MemoryStore
  | [], store => (.ok (), store)
  | item :: rest, store =>
    match store.putItem name item with
    | .ok store => loadItems name rest store
    | .error e => (.error e, store)

/-- Write items to a table, which must exist even if there are none. -/
def load (store : MemoryStore) (name : String) (items : List Item) :
    Except StoreError Unit × MemoryStore :=
  match store.table name with
  | .ok _ => loadItems name items store
  | .error e => (.error e, store)

/-- The item of a table with a key. -/
def getItem (store : MemoryStore) (name : String) (key : Item) :
    Except StoreError (Option Item) := do
  (← store.table name).get key

/-- What a table is described as. -/
def report (store : MemoryStore) (name : String) : Except StoreError TableDescriptor := do
  let table ← store.table name
  return table.schema.describe table.items

/-- The table that a request asks, the index of it, and how many rows the page evaluates
    at most. -/
def target (store : MemoryStore) (request : QueryRequest) :
    Except StoreError (Table × IndexView × Nat) := do
  let table ← store.table request.table
  return (table, ← table.target store.pageSize request)

/-- Answer a request for a page. -/
def runQuery (store : MemoryStore) (request : QueryRequest) : Except StoreError Page := do
  let (table, view, limit) ← store.target request
  return view.scan request limit table.items

/-- The sort of the page that a request asks for may panic. -/
def panics (store : MemoryStore) (request : QueryRequest) : Bool :=
  match store.target request with
  | .ok (table, view, _) => !view.sortable request table.items
  | .error _ => false

/-- What may become of a request for a page: an answer, or nothing if the sort panics. -/
def MayAnswer (store : MemoryStore) (request : QueryRequest)
    (outcome : Option (Except StoreError Page)) : Prop :=
  match store.target request with
  | .error e => outcome = some (.error e)
  | .ok (table, view, limit) =>
    ∃ page, view.MayScan request limit table.items page ∧ outcome = page.map .ok

/-- Describe a table, and count the call. -/
def describe (store : MemoryStore) (name : String) :
    Except StoreError TableDescriptor × MemoryStore :=
  (store.report name, { store with describeCalls := store.describeCalls + 1 })

/-- The store after it was asked for a page. The call is counted, and one page less is to
    be throttled. If it was not this one, and the sort may panic on its rows, that is
    noted: whatever comes later is then said for the case that it did not. -/
def asked (store : MemoryStore) (request : QueryRequest) : MemoryStore :=
  { store with
    executeCalls := store.executeCalls + 1
    throttles := store.throttles - 1
    panicked := store.panicked || (store.throttles == 0 && store.panics request) }

/-- Answer a request for a page unless it is to be throttled. -/
def execute (store : MemoryStore) (request : QueryRequest) :
    Except StoreError Page × MemoryStore :=
  match store.throttles with
  | 0 => (store.runQuery request, store.asked request)
  | _ + 1 => (.error (.throttled s!"query on {request.table} throttled"), store.asked request)

end MemoryStore

end WideColumn
