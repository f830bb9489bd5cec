import WideColumn.Proofs.Store.Finding
import WideColumn.Proofs.Store.Queries

/-!
# Ledgers

What was written to a table since it was created.

A ledger knows nothing of rows. Creating the table starts a new one, and every item that is
complete is added to its end. A list of items that is loaded counts up to the first one that is
not complete, since loading is writing one by one and stops there.

Tables follow their ledgers in look-ups: whatever key is looked for, the first row that has it
is the last item of the ledger that has it (`Table.Follows.find_eq`). Every write keeps this,
and it needs no hypothesis on the values in the keys. An item with a key that it has not itself
is found neither among the rows nor in the ledger.

## Main definitions

* `Ledger`, `ledger`: What was written to a table since it was created.
* `Table.Follows`, `MemoryStore.Follows`: Tables follow ledgers, and so do stores.
* `MemoryStore.puts`: Items that are written one by one.

## Theorems

* `putItem_cases`: What becomes of an item that is to be written.
* `load_of_covers`, `load_of_lacking`: Loading items is writing them one by one.
* `Table.put_follows`: A table that takes an item follows the ledger with the item.
* `write_follows`, `afterWrites_follows`: What every call and every list of them keeps.
-/

namespace WideColumn

/-- What was written to a table since it was created, in order. -/
structure Ledger where
  schema : TableSchema
  written : List Item

/-- The ledger with some more items, up to the first one that lacks a key attribute. -/
def Ledger.add (l : Ledger) (items : List Item) : Ledger :=
  { l with written := l.written ++ items.takeWhile l.schema.keys.covers }

/-- What a call adds to the ledger of a table, if there is the table. -/
def ledgerAfter (name : String) (ledger : Option Ledger) : Write → Option Ledger
  | .create schema => if schema.name = name then some ⟨schema, []⟩ else ledger
  | .put table item => if table = name then ledger.map (·.add [item]) else ledger
  | .load table items => if table = name then ledger.map (·.add items) else ledger

/-- The ledger of a table after a list of calls, if one of them created the table. -/
def ledger (name : String) (writes : List Write) : Option Ledger :=
  writes.foldl (ledgerAfter name) none

namespace Table

/-- The rows of a table are items of a ledger, and the first row with a key is the last item
    with it, whatever the key. -/
structure Follows (table : Table) (l : Ledger) : Prop where
  schema_eq : table.schema = l.schema
  sound : table.Sound
  written : ∀ row ∈ table.items, row ∈ l.written
  find_eq : ∀ key, table.items.find? (table.hasKey key) =
    l.written.reverse.find? (table.hasKey key)

section

variable {table placed : Table} {l : Ledger} {key item : Item}

/-- A table that takes an item follows the ledger with the item. -/
theorem put_follows (h : table.Follows l) (hput : table.put item = .ok placed) :
    placed.Follows (l.add [item]) := by
  rcases put_eq_ok hput with ⟨hcovers, hplaced⟩
  have hadd : l.add [item] = { l with written := l.written ++ [item] } := by
    rw [Ledger.add, List.takeWhile_cons_of_pos (h.schema_eq ▸ hcovers), List.takeWhile_nil]
  rw [hadd]
  refine ⟨?_, put_sound h.sound hput, fun row hrow => ?_, fun key => ?_⟩
  · rw [hplaced]
    exact h.schema_eq
  · rw [hplaced] at hrow
    rcases mem_placeItem hrow with rfl | hheld
    · exact List.mem_append_right _ List.mem_cons_self
    · exact List.mem_append_left _ (h.written row hheld)
  · have hsame : placed.hasKey key = table.hasKey key := by
      rw [hplaced]
      rfl
    rw [List.reverse_append, List.reverse_singleton, List.singleton_append, hsame]
    by_cases hkey : table.hasKey key item = true
    · rw [List.find?_cons_of_pos hkey, ← hsame, find?_put hput hkey]
    · rw [List.find?_cons_of_neg hkey, ← h.find_eq key, ← find?_put_of_not hput hkey, hsame]

end

end Table

namespace MemoryStore

/-- Items that are written to a table one by one. -/
def puts (store : MemoryStore) (name : String) (items : List Item) : MemoryStore :=
  (items.map (.put name)).foldl write store

section

variable {store written : MemoryStore} {name other : String} {table : Table} {item : Item}

/-- What becomes of an item that is to be written to a table. -/
theorem putItem_cases (htable : store.table name = .ok table) (item : Item) :
    (table.schema.keys.covers item = true ∧ ∃ placed, table.put item = .ok placed ∧
      store.putItem name item = .ok { store with tables := store.tables.insert name placed }) ∨
    (table.schema.keys.covers item = false ∧ ∃ attr ∈ table.schema.keys.attrs,
      item.contains attr = false ∧
      store.putItem name item = .error (.validation (.itemLacksKey attr))) := by
  cases hmissing : table.schema.keys.missingFrom? item with
  | none =>
      have hput : table.put item =
          .ok { table with items := placeItem (table.hasKey item) item table.items } := by
        rw [Table.put, hmissing]
      refine Or.inl ⟨IndexKeys.missingFrom?_eq_none_iff.mp hmissing, _, hput, ?_⟩
      rw [putItem, htable]
      simp only [bind, Except.bind, hput]
      rfl
  | some attr =>
      have hput : table.put item = .error (.validation (.itemLacksKey attr)) := by
        rw [Table.put, hmissing]
      have hlacks : table.schema.keys.covers item = false := by
        rw [Bool.eq_false_iff, ne_eq, ← IndexKeys.missingFrom?_eq_none_iff, hmissing]
        exact Option.some_ne_none attr
      have hattr := List.find?_some hmissing
      rw [Bool.not_eq_true'] at hattr
      refine Or.inr ⟨hlacks, attr, List.mem_of_find?_eq_some hmissing, hattr, ?_⟩
      rw [putItem, htable]
      simp only [bind, Except.bind, hput]

-- An item that is refused changes nothing.
theorem write_put_of_error {e : StoreError} (h : store.putItem name item = .error e) :
    store.write (.put name item) = store := by
  rw [write, h]

theorem write_put_of_ok (h : store.putItem name item = .ok written) :
    store.write (.put name item) = written := by
  rw [write, h]

-- No other table changes.
theorem table_putItem_of_ne (h : store.putItem other item = .ok written) (hname : name ≠ other) :
    written.table name = store.table name := by
  rcases putItem_eq_ok h with ⟨_, placed, _, _, rfl⟩
  rw [table, table, Keyed.get?_insert, if_neg hname]

-- A table that is not there takes nothing.
theorem putItem_of_error {e : StoreError} (htable : store.table name = .error e) (item : Item) :
    store.putItem name item = .error e := by
  rw [putItem, htable]
  rfl

end

section Loading

variable {store : MemoryStore} {name : String} {schema : TableSchema}

-- Complete items that come first are written one by one before the others are loaded.
theorem loadItems_append {before : List Item} (hholds : store.Holds name schema)
    (hcovers : ∀ item ∈ before, schema.keys.covers item = true) (rest : List Item) :
    loadItems name (before ++ rest) store = loadItems name rest (store.puts name before) := by
  induction before generalizing store with
  | nil => rfl
  | cons item before ih =>
      rcases hholds with ⟨table, htable, rfl⟩
      rcases putItem_cases htable item with ⟨_, placed, _, hput⟩ | ⟨hlacks, _⟩
      · have hwritten := putItem_holds ⟨table, htable, rfl⟩ hput
        have hrest := ih hwritten fun other hother =>
          hcovers other (List.mem_cons_of_mem item hother)
        rw [List.cons_append, loadItems, hput, puts, List.map_cons, List.foldl_cons,
          write_put_of_ok hput]
        exact hrest
      · exact absurd (hcovers item List.mem_cons_self) (by rw [hlacks]; exact Bool.false_ne_true)

theorem puts_holds (hholds : store.Holds name schema) (items : List Item) :
    (store.puts name items).Holds name schema := by
  refine foldl_write_holds _ hholds fun call hcall => ?_
  rcases List.mem_map.mp hcall with ⟨item, _, rfl⟩
  trivial

/-- Loading complete items is writing them one by one. -/
theorem load_of_covers (hholds : store.Holds name schema) {items : List Item}
    (hcovers : ∀ item ∈ items, schema.keys.covers item = true) :
    store.load name items = (.ok (), store.puts name items) := by
  have hload := loadItems_append hholds hcovers []
  rcases hholds with ⟨table, htable, _⟩
  rw [List.append_nil] at hload
  rw [load, htable]
  exact hload

/-- Loading stops at the first item that lacks a key attribute, and keeps those before it. -/
theorem load_of_lacking (hholds : store.Holds name schema) {before : List Item}
    (hcovers : ∀ item ∈ before, schema.keys.covers item = true) {item : Item}
    (hlacks : schema.keys.covers item = false) (rest : List Item) :
    ∃ attr ∈ schema.keys.attrs, item.contains attr = false ∧
      store.load name (before ++ item :: rest) =
        (.error (.validation (.itemLacksKey attr)), store.puts name before) := by
  have hload := loadItems_append hholds hcovers (item :: rest)
  rcases puts_holds hholds before with ⟨reached, hreached, hschema⟩
  rcases putItem_cases hreached item with ⟨hcomplete, _⟩ | ⟨_, attr, hattr, hnot, hput⟩
  · rw [hschema, hlacks] at hcomplete
    exact absurd hcomplete Bool.false_ne_true
  · refine ⟨attr, hschema ▸ hattr, hnot, ?_⟩
    rcases hholds with ⟨table, htable, _⟩
    rw [load, htable]
    refine hload.trans ?_
    rw [loadItems, hput]

/-- What loading items leaves behind: those before the first one that lacks a key attribute are
    written one by one. -/
theorem load_snd (hholds : store.Holds name schema) (items : List Item) :
    (store.load name items).2 = store.puts name (items.takeWhile schema.keys.covers) := by
  have hcovers : ∀ item ∈ items.takeWhile schema.keys.covers, schema.keys.covers item = true :=
    List.all_eq_true.mp List.all_takeWhile
  have hsplit := List.takeWhile_append_dropWhile (p := schema.keys.covers) (l := items)
  cases hrest : items.dropWhile schema.keys.covers with
  | nil =>
      rw [hrest, List.append_nil] at hsplit
      rw [hsplit] at hcovers ⊢
      rw [load_of_covers hholds hcovers]
  | cons item rest =>
      have hlacks : schema.keys.covers item = false := by
        have hfirst := List.head?_dropWhile_not schema.keys.covers items
        rw [hrest] at hfirst
        exact hfirst
      rw [hrest] at hsplit
      rcases load_of_lacking hholds hcovers hlacks rest with ⟨attr, _, _, hload⟩
      rw [hsplit] at hload
      rw [hload]

end Loading

/-- A store follows the ledger of a table, if there is one. -/
def Follows (store : MemoryStore) (name : String) : Option Ledger → Prop
  | none => store.table name = .error (.tableNotFound name)
  | some l => ∃ table, store.table name = .ok table ∧ table.Follows l

section

variable {store written : MemoryStore} {name : String} {ledger : Option Ledger}

theorem Follows.of_table_eq (h : store.Follows name ledger)
    (htable : written.table name = store.table name) : written.Follows name ledger := by
  cases ledger with
  | none => exact htable.trans h
  | some l =>
      rcases h with ⟨table, hheld, hfollows⟩
      exact ⟨table, htable.trans hheld, hfollows⟩

/-- A store that is to write an item follows the ledger. -/
theorem put_follows (h : store.Follows name ledger) (other : String) (item : Item) :
    (store.write (.put other item)).Follows name (ledgerAfter name ledger (.put other item)) := by
  rw [ledgerAfter]
  by_cases hother : other = name
  · subst hother
    rw [if_pos rfl]
    cases ledger with
    | none =>
        rw [write_put_of_error (putItem_of_error h item)]
        exact h
    | some l =>
        rcases h with ⟨table, htable, hfollows⟩
        rcases putItem_cases htable item with ⟨_, placed, hplaced, hput⟩ | ⟨hlacks, _, _, _, hput⟩
        · rw [write_put_of_ok hput]
          refine ⟨placed, ?_, Table.put_follows hfollows hplaced⟩
          rw [table_eq_ok_iff, Keyed.get?_insert, if_pos rfl]
        · have hadd : l.add [item] = l := by
            rw [Ledger.add, List.takeWhile_cons_of_neg (by
              rw [← hfollows.schema_eq, hlacks]; exact Bool.false_ne_true), List.append_nil]
          rw [write_put_of_error hput]
          exact ⟨table, htable, (congrArg table.Follows hadd).mpr hfollows⟩
  · rw [if_neg hother]
    cases hput : store.putItem other item with
    | error e =>
        rw [write_put_of_error hput]
        exact h
    | ok placed =>
        rw [write_put_of_ok hput]
        exact h.of_table_eq (table_putItem_of_ne hput (Ne.symm hother))

-- So it does after several of them.
theorem puts_follows (h : store.Follows name ledger) (other : String) (items : List Item) :
    (store.puts other items).Follows name
      ((items.map (Write.put other)).foldl (ledgerAfter name) ledger) := by
  induction items generalizing store ledger with
  | nil => exact h
  | cons item rest ih => exact ih (put_follows h other item)

end

-- Writing complete items one by one adds them to the ledger.
theorem foldl_ledgerAfter_put (name : String) (items : List Item) {l : Ledger}
    (hcovers : ∀ item ∈ items, l.schema.keys.covers item = true) :
    (items.map (Write.put name)).foldl (ledgerAfter name) (some l) =
      some { l with written := l.written ++ items } := by
  induction items generalizing l with
  | nil =>
      rw [List.append_nil]
      rfl
  | cons item rest ih =>
      have hadd : ledgerAfter name (some l) (.put name item) =
          some { l with written := l.written ++ [item] } := by
        rw [ledgerAfter, if_pos rfl, Option.map_some, Ledger.add,
          List.takeWhile_cons_of_pos (hcovers item List.mem_cons_self), List.takeWhile_nil]
      have hrest := @ih { l with written := l.written ++ [item] } fun other hother =>
        hcovers other (List.mem_cons_of_mem item hother)
      rw [List.append_assoc, List.singleton_append] at hrest
      rw [List.map_cons, List.foldl_cons, hadd]
      exact hrest

theorem foldl_ledgerAfter_put_of_ne {name other : String} (hother : other ≠ name)
    (items : List Item) (ledger : Option Ledger) :
    (items.map (Write.put other)).foldl (ledgerAfter name) ledger = ledger := by
  induction items with
  | nil => rfl
  | cons item rest ih =>
      rw [List.map_cons, List.foldl_cons, ledgerAfter, if_neg hother]
      exact ih

section

variable {store : MemoryStore} {name : String} {ledger : Option Ledger}

/-- A store that is to load items follows the ledger. -/
theorem load_follows (h : store.Follows name ledger) (other : String) (items : List Item) :
    (store.write (.load other items)).Follows name
      (ledgerAfter name ledger (.load other items)) := by
  rw [write, ledgerAfter]
  cases htable : store.table other with
  | error e =>
      have hledger : (if other = name then ledger.map (·.add items) else ledger) = ledger := by
        by_cases hother : other = name
        · rw [if_pos hother]
          cases ledger with
          | none => rfl
          | some l =>
              rcases h with ⟨table, hheld, _⟩
              rw [← hother, htable] at hheld
              cases hheld
        · rw [if_neg hother]
      rw [load, htable, hledger]
      exact h
  | ok table =>
      rw [load_snd ⟨table, htable, rfl⟩ items]
      by_cases hother : other = name
      · subst hother
        cases ledger with
        | none => cases htable.symm.trans h
        | some l =>
            have hschema : table.schema = l.schema := by
              rcases h with ⟨held, hheld, hfollows⟩
              rw [Except.ok.inj (htable.symm.trans hheld)]
              exact hfollows.schema_eq
            have hfollows := puts_follows h other (items.takeWhile l.schema.keys.covers)
            rw [foldl_ledgerAfter_put other _ (List.all_eq_true.mp List.all_takeWhile)] at hfollows
            rw [if_pos rfl, hschema]
            exact hfollows
      · have hfollows := puts_follows h other (items.takeWhile table.schema.keys.covers)
        rw [foldl_ledgerAfter_put_of_ne hother] at hfollows
        rw [if_neg hother]
        exact hfollows

/-- Every call leaves a store that follows what the call adds to the ledger. -/
theorem write_follows (h : store.Follows name ledger) (call : Write) :
    (store.write call).Follows name (ledgerAfter name ledger call) := by
  cases call with
  | create schema =>
      rw [ledgerAfter]
      by_cases hname : schema.name = name
      · rw [if_pos hname]
        refine ⟨⟨schema, []⟩, ?_, rfl, ⟨?_, List.Pairwise.nil⟩, ?_, fun _ => rfl⟩
        · rw [table_eq_ok_iff, write, create, Keyed.get?_insert, if_pos hname.symm]
        · exact fun _ hitem => absurd hitem List.not_mem_nil
        · exact fun _ hitem => absurd hitem List.not_mem_nil
      · rw [if_neg hname]
        refine h.of_table_eq ?_
        rw [write, create, table, table, Keyed.get?_insert, if_neg (Ne.symm hname)]
  | put other item => exact put_follows h other item
  | load other items => exact load_follows h other items

/-- After any calls a store follows the ledgers of its tables. -/
theorem afterWrites_follows (pageSize : Nat) (writes : List Write) (name : String) :
    (afterWrites pageSize writes).Follows name (WideColumn.ledger name writes) := by
  -- The run lemma: store and ledger are generalised over what the calls before have left.
  have hrun : ∀ (calls : List Write) (store : MemoryStore) (ledger : Option Ledger),
      store.Follows name ledger →
      (calls.foldl write store).Follows name (calls.foldl (ledgerAfter name) ledger) := by
    intro calls
    induction calls with
    | nil => exact fun _ _ h => h
    | cons call rest ih => exact fun store ledger h => ih _ _ (write_follows h call)
  exact hrun writes (empty pageSize) none rfl

end

end MemoryStore

end WideColumn
