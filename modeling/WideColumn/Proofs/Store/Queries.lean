import WideColumn.Proofs.Scan.Outcomes
import WideColumn.Proofs.Store.Writes

/-!
# Answers to Requests

Which requests a store answers with a page, and with which one.

A request is refused for three reasons: its table or its index is not there, the
index cannot be read consistently, or the page may evaluate no row. Only the last
of them is about the page. The others are about the schema of the table, and no
write changes that as long as the table is not created anew, so what can be asked
of a table can be asked of it later.

A page may still not come about, since its rows are sorted. That depends on the rows
that the request selects and on no other part of it, so it is the same for all pages
of a query.

What a store has of its own next to the tables, its page size and the pages it is
to throttle, is not touched by writes at all.

## Main definitions

* `pageRows`: How many rows a page evaluates.
* `MemoryStore.Holds`: A table is there with a schema.
* `Write.Keeps`: A call creates no table in place of another one.

## Theorems

* `target_eq_ok`: What a request asks that leads to an index.
* `runQuery_eq_ok`: It is answered with a scan.
* `mayAnswer_iff`, `mayAnswer_none_iff`: What else may become of it.
* `mayAnswer_of_sortable`: When nothing else may.
* `write_holds`, `foldl_write_holds`: Writes keep the schema of a table.
* `write_tables`, `afterWrites_tables`: Writes touch nothing but tables.
-/

namespace WideColumn

/-- How many rows a page evaluates at most, under the limit of its request if there
    is one. -/
def pageRows (limit : Option Nat) (pageSize : Nat) : Nat :=
  limit.elim pageSize (min · pageSize)

theorem pageRows_pos {limit : Option Nat} {pageSize : Nat} (hlimit : limit ≠ some 0)
    (hpage : 0 < pageSize) : 0 < pageRows limit pageSize := by
  cases limit with
  | none => exact hpage
  | some rows =>
      have hrows : 0 < rows := Nat.pos_of_ne_zero fun h => hlimit (congrArg some h)
      exact Nat.lt_min.mpr ⟨hrows, hpage⟩

namespace Table

-- The index that a request leads to knows the keys of the table.
theorem table_of_view {table : Table} {request : QueryRequest} {view : IndexView}
    (h : table.view request = .ok view) : view.table = table.schema.keys := by
  unfold Table.view at h
  cases hindex : request.index with
  | none =>
      rw [hindex, Except.ok.injEq] at h
      rw [← h]
  | some name =>
      rw [hindex] at h
      cases hfound : table.schema.findIndex? name with
      | none =>
          simp only [hfound, reduceCtorEq] at h
      | some index =>
          simp only [hfound] at h
          by_cases hconsistent : (request.consistent && index.distribution == .global) = true
          · rw [if_pos hconsistent] at h
            exact absurd h (by simp only [reduceCtorEq, not_false_eq_true])
          · rw [if_neg hconsistent, Except.ok.injEq] at h
            rw [← h]

/-- A request that leads to an index asks it, unless its page may evaluate no row. -/
theorem target_eq_ok {table : Table} {request : QueryRequest} {view : IndexView}
    (hview : table.view request = .ok view) (hlimit : request.limit ≠ some 0)
    (pageSize : Nat) :
    table.target pageSize request = .ok (view, pageRows request.limit pageSize) := by
  unfold target
  rw [hview]
  simp only [bind, Except.bind]
  cases hrequest : request.limit with
  | none => rfl
  | some rows =>
      cases rows with
      | zero => exact absurd hrequest hlimit
      | succ rows => rfl

end Table

/-- The call creates no table of the name with another schema. -/
def Write.Keeps (name : String) (schema : TableSchema) : Write → Prop
  | .create other => other.name = name → other = schema
  | _ => True

namespace MemoryStore

/-- The store has a table of the name, and it has the schema. -/
def Holds (store : MemoryStore) (name : String) (schema : TableSchema) : Prop :=
  ∃ table, store.table name = .ok table ∧ table.schema = schema

/-- A request that leads to an index of its table asks it. -/
theorem target_eq_ok {store : MemoryStore} {request : QueryRequest} {table : Table}
    {view : IndexView} (htable : store.table request.table = .ok table)
    (hview : table.view request = .ok view) (hlimit : request.limit ≠ some 0) :
    store.target request = .ok (table, view, pageRows request.limit store.pageSize) := by
  unfold target
  rw [htable]
  simp only [bind, Except.bind, Table.target_eq_ok hview hlimit store.pageSize]
  rfl

/-- It is answered with a scan of the index. -/
theorem runQuery_eq_ok {store : MemoryStore} {request : QueryRequest} {table : Table}
    {view : IndexView} (htable : store.table request.table = .ok table)
    (hview : table.view request = .ok view) (hlimit : request.limit ≠ some 0) :
    store.runQuery request =
      .ok (view.scan request (pageRows request.limit store.pageSize) table.items) := by
  unfold runQuery
  rw [target_eq_ok htable hview hlimit]
  rfl

/-- One thing that may become of a request is the answer. -/
theorem mayAnswer_runQuery (store : MemoryStore) (request : QueryRequest) :
    store.MayAnswer request (some (store.runQuery request)) := by
  unfold MayAnswer runQuery
  cases store.target request with
  | error e => rfl
  | ok admitted => exact ⟨_, IndexView.mayScan_scan, rfl⟩

section

variable {store : MemoryStore} {request : QueryRequest} {table : Table} {view : IndexView}
  {outcome : Option (Except StoreError Page)} (htable : store.table request.table = .ok table)
  (hview : table.view request = .ok view)

include htable hview

/-- What may become of a request that leads to an index is what may become of the page. -/
theorem mayAnswer_iff (hlimit : request.limit ≠ some 0) :
    store.MayAnswer request outcome ↔ ∃ page,
      view.MayScan request (pageRows request.limit store.pageSize) table.items page ∧
      outcome = page.map .ok := by
  unfold MayAnswer
  rw [target_eq_ok htable hview hlimit]

-- So it is a page or nothing.
theorem MayAnswer.page_or_none (hlimit : request.limit ≠ some 0)
    (h : store.MayAnswer request outcome) :
    outcome = none ∨ ∃ page, outcome = some (.ok page) := by
  rcases (mayAnswer_iff htable hview hlimit).mp h with ⟨page, _, rfl⟩
  cases page with
  | none => exact Or.inl rfl
  | some page => exact Or.inr ⟨page, rfl⟩

/-- It may be nothing just if the rows of the request are unsortable. -/
theorem mayAnswer_none_iff (hlimit : request.limit ≠ some 0) :
    store.MayAnswer request none ↔ view.Unsortable request table.items := by
  rw [mayAnswer_iff htable hview hlimit]
  constructor
  · rintro ⟨page, hpage, hnone⟩
    rw [eq_comm, Option.map_eq_none_iff] at hnone
    exact IndexView.mayScan_none_iff.mp (hnone ▸ hpage)
  · exact fun h => ⟨none, IndexView.mayScan_none_iff.mpr h, rfl⟩

/-- Where the rows are bound to be sorted a request is answered in one way. -/
theorem mayAnswer_of_sortable (hlimit : request.limit ≠ some 0)
    (hsortable : view.sortable request table.items = true)
    (h : store.MayAnswer request outcome) :
    outcome = some (store.runQuery request) := by
  rcases (mayAnswer_iff htable hview hlimit).mp h with ⟨page, hpage, rfl⟩
  rw [IndexView.mayScan_of_sortable hpage hsortable, runQuery_eq_ok htable hview hlimit]
  rfl

-- Whether the sort may panic does not depend on the page of the query.
theorem panics_eq_false (hsortable : view.sortable request table.items = true)
    (limit : Option Nat) (start : Option Item) :
    store.panics { request with limit := limit, startKey := start } = false := by
  by_cases hlimit : limit = some 0
  · unfold panics target Table.target
    rw [htable]
    simp only [bind, Except.bind]
    have hpage : table.view { request with limit := limit, startKey := start } = .ok view := hview
    rw [hpage, hlimit]
    rfl
  · have htarget : store.target { request with limit := limit, startKey := start } =
        .ok (table, view, pageRows limit store.pageSize) := target_eq_ok htable hview hlimit
    have hrows : view.sortable { request with limit := limit, startKey := start } table.items =
        view.sortable request table.items := rfl
    unfold panics
    rw [htarget]
    simp only [hrows, hsortable, Bool.not_true]

end

theorem putItem_holds {store written : MemoryStore} {name other : String} {item : Item}
    {schema : TableSchema} (h : store.Holds name schema)
    (hput : store.putItem other item = .ok written) : written.Holds name schema := by
  rcases putItem_eq_ok hput with ⟨table, placed, htable, hplaced, rfl⟩
  rcases h with ⟨held, hheld, hschema⟩
  rw [table_eq_ok_iff] at hheld
  by_cases hname : name = other
  · refine ⟨placed, ?_, ?_⟩
    · rw [table_eq_ok_iff, Keyed.get?_insert, if_pos hname]
    · -- The table that the item was written to is the one of the name.
      rw [hname, htable, Option.some.injEq] at hheld
      rw [(Table.put_eq_ok hplaced).2, hheld]
      exact hschema
  · refine ⟨held, ?_, hschema⟩
    rw [table_eq_ok_iff, Keyed.get?_insert, if_neg hname]
    exact hheld

theorem loadItems_holds {name other : String} {schema : TableSchema} (items : List Item)
    {store : MemoryStore} (h : store.Holds name schema) :
    (loadItems other items store).2.Holds name schema := by
  induction items generalizing store with
  | nil => exact h
  | cons item rest ih =>
      rw [loadItems]
      cases hput : store.putItem other item with
      | error e => exact h
      | ok written => exact ih (putItem_holds h hput)

/-- A write keeps the schema of a table, unless it creates the table with another
    one. -/
theorem write_holds {store : MemoryStore} {name : String} {schema : TableSchema}
    (h : store.Holds name schema) {call : Write} (hkeep : call.Keeps name schema) :
    (store.write call).Holds name schema := by
  cases call with
  | create other =>
      by_cases hname : name = other.name
      · refine ⟨⟨other, []⟩, ?_, hkeep hname.symm⟩
        rw [write, create, table_eq_ok_iff, Keyed.get?_insert, if_pos hname]
      · rcases h with ⟨held, hheld, hschema⟩
        refine ⟨held, ?_, hschema⟩
        rw [write, create, table_eq_ok_iff, Keyed.get?_insert, if_neg hname]
        exact table_eq_ok_iff.mp hheld
  | put other item =>
      rw [write]
      cases hput : store.putItem other item with
      | error e => exact h
      | ok written => exact putItem_holds h hput
  | load other items =>
      rw [write, load]
      cases store.table other with
      | error e => exact h
      | ok table => exact loadItems_holds items h

/-- So does every list of writes. -/
theorem foldl_write_holds {name : String} {schema : TableSchema} (calls : List Write)
    {store : MemoryStore} (h : store.Holds name schema)
    (hkeep : ∀ call ∈ calls, call.Keeps name schema) :
    (calls.foldl write store).Holds name schema := by
  induction calls generalizing store with
  | nil => exact h
  | cons call rest ih =>
      exact ih (write_holds h (hkeep call List.mem_cons_self))
        fun other hother => hkeep other (List.mem_cons_of_mem call hother)

theorem putItem_tables {store written : MemoryStore} {name : String} {item : Item}
    (h : store.putItem name item = .ok written) :
    ∃ tables, written = { store with tables := tables } := by
  rcases putItem_eq_ok h with ⟨_, placed, _, _, hwritten⟩
  exact ⟨store.tables.insert name placed, hwritten⟩

theorem loadItems_tables {name : String} (items : List Item) (store : MemoryStore) :
    ∃ tables, (loadItems name items store).2 = { store with tables := tables } := by
  induction items generalizing store with
  | nil => exact ⟨store.tables, rfl⟩
  | cons item rest ih =>
      rw [loadItems]
      cases hput : store.putItem name item with
      | error e => exact ⟨store.tables, rfl⟩
      | ok written =>
          rcases putItem_tables hput with ⟨tables, rfl⟩
          exact ih { store with tables := tables }

/-- A write touches nothing but tables. -/
theorem write_tables (store : MemoryStore) (call : Write) :
    ∃ tables, store.write call = { store with tables := tables } := by
  cases call with
  | create schema => exact ⟨store.tables.insert schema.name ⟨schema, []⟩, rfl⟩
  | put name item =>
      rw [write]
      cases hput : store.putItem name item with
      | error e => exact ⟨store.tables, rfl⟩
      | ok written => exact putItem_tables hput
  | load name items =>
      rw [write, load]
      cases store.table name with
      | error e => exact ⟨store.tables, rfl⟩
      | ok table => exact loadItems_tables items store

/-- What writes lead to differs from a store without tables only in its tables. -/
theorem afterWrites_tables (pageSize : Nat) (writes : List Write) :
    ∃ tables, afterWrites pageSize writes = { empty pageSize with tables := tables } := by
  -- The run lemma: the store is generalised over what the calls before have left.
  have hrun : ∀ (calls : List Write) (store : MemoryStore),
      ∃ tables, calls.foldl write store = { store with tables := tables } := by
    intro calls
    induction calls with
    | nil => exact fun store => ⟨store.tables, rfl⟩
    | cons call rest ih =>
        intro store
        rcases write_tables store call with ⟨tables, hwrite⟩
        rw [List.foldl_cons, hwrite]
        exact ih { store with tables := tables }
  exact hrun writes (empty pageSize)

section

variable (pageSize : Nat) (writes : List Write)

theorem afterWrites_throttles : (afterWrites pageSize writes).throttles = 0 := by
  rcases afterWrites_tables pageSize writes with ⟨tables, hstore⟩
  rw [hstore]
  rfl

theorem afterWrites_executeCalls : (afterWrites pageSize writes).executeCalls = 0 := by
  rcases afterWrites_tables pageSize writes with ⟨tables, hstore⟩
  rw [hstore]
  rfl

theorem afterWrites_pageSize : (afterWrites pageSize writes).pageSize = max pageSize 1 := by
  rcases afterWrites_tables pageSize writes with ⟨tables, hstore⟩
  rw [hstore]
  rfl

end

/-- The page of a store that only writes have led to, after any key and under any
    limit. -/
theorem runQuery_afterWrites {pageSize : Nat} (hpageSize : 1 ≤ pageSize) {writes : List Write}
    {request : QueryRequest} {table : Table}
    (htable : (afterWrites pageSize writes).table request.table = .ok table) {view : IndexView}
    (hview : table.view request = .ok view) {limit : Option Nat} (hlimit : limit ≠ some 0)
    (start : Option Item) :
    (afterWrites pageSize writes).runQuery { request with limit := limit, startKey := start } =
      .ok (view.scan { request with startKey := start } (pageRows limit pageSize) table.items) := by
  have hpage : (afterWrites pageSize writes).runQuery
      { request with limit := limit, startKey := start } =
      .ok (view.scan { request with limit := limit, startKey := start }
        (pageRows limit (afterWrites pageSize writes).pageSize) table.items) :=
    runQuery_eq_ok htable hview hlimit
  rw [afterWrites_pageSize, Nat.max_eq_left hpageSize] at hpage
  exact hpage

end MemoryStore

end WideColumn
