import WideColumn.Proofs.Keyed
import WideColumn.Proofs.Value.Same
import WideColumn.Store.Memory

/-!
# Tables After Writes

What holds of every table that a store can come to have.

A store starts without tables and changes by creating a table, writing an item
or loading items. Some of these calls fail, and a load that fails has written
part of its items, so `MemoryStore.write` says what a call leaves behind and not
whether it succeeded. A table is reachable if some list of writes ends in it.

Two facts survive every write and carry all that is said of scans: the items are
complete, each of them having every key attribute of the table, and no two of
them share a key. The second one needs no hypothesis on the values. Where a key
attribute holds what is no number an item has not even its own key, so writing it
twice stores it twice, and two such rows still do not share a key.

## Main definitions

* `Write`: A call that changes the tables of a store.
* `MemoryStore.write`, `MemoryStore.afterWrites`: What writes leave behind.
* `Table.Sound`: Complete items with keys of their own.
* `TableSchema.views`: The indexes of a table as scans see them.

## Theorems

* `hasKey_comm`, `hasKey_trans`: Having the key of an item.
* `Sound.eq_of_hasKey`: A key belongs to one item of a sound table.
* `put_sound`: Writing an item keeps a table sound.
* `putItem_eq_ok`: What becomes of a store that takes an item.
* `write_sound`, `afterWrites_sound`: So does every call, and every list of them.
-/

namespace WideColumn

/-- A call that changes the tables of a store. -/
inductive Write where
  | create (schema : TableSchema)
  | put (table : String) (item : Item)
  | load (table : String) (items : List Item)

namespace MemoryStore

/-- What a call leaves behind, whether it succeeds or not. -/
def write (store : MemoryStore) : Write → MemoryStore
  | .create schema => store.create schema
  | .put name item =>
    match store.putItem name item with
    | .ok written => written
    | .error _ => store
  | .load name items => (store.load name items).2

/-- What a list of calls leaves behind in a store that starts without tables. -/
def afterWrites (pageSize : Nat) (writes : List Write) : MemoryStore :=
  writes.foldl write (empty pageSize)

end MemoryStore

/-- A secondary index as scans see it. -/
def IndexSchema.view (table : IndexKeys) (index : IndexSchema) : IndexView :=
  ⟨index.keys, table, index.projection⟩

/-- The indexes of a table as scans see them: the table itself, and then the
    secondary indexes in the order of the schema. -/
def TableSchema.views (schema : TableSchema) : List IndexView :=
  ⟨schema.keys, schema.keys, .all⟩ :: schema.indexes.map (·.view schema.keys)

theorem TableSchema.table_of_mem_views {schema : TableSchema} {view : IndexView}
    (h : view ∈ schema.views) : view.table = schema.keys := by
  rcases List.mem_cons.mp h with rfl | h
  · rfl
  · rcases List.mem_map.mp h with ⟨index, _, rfl⟩
    rfl

theorem IndexKeys.covers_iff {keys : IndexKeys} {item : Item} :
    keys.covers item = true ↔ ∀ attr ∈ keys.attrs, item.contains attr = true := by
  rw [covers, List.all_eq_true]

theorem IndexKeys.missingFrom?_eq_none_iff {keys : IndexKeys} {item : Item} :
    keys.missingFrom? item = none ↔ keys.covers item = true := by
  rw [missingFrom?, List.find?_eq_none, covers_iff]
  simp only [Bool.not_eq_true', Bool.not_eq_false]

namespace Table

theorem hasKey_iff {table : Table} {key item : Item} :
    table.hasKey key item = true ↔ ∀ attr ∈ table.schema.keys.attrs,
      Value.sameOptional (item.get? attr) (key.get? attr) = true := by
  rw [hasKey, List.all_eq_true]

theorem hasKey_comm (table : Table) (a b : Item) : table.hasKey a b = table.hasKey b a := by
  unfold hasKey
  congr 1
  funext attr
  exact Value.sameOptional_comm _ _

theorem hasKey_trans {table : Table} {a b c : Item} (hab : table.hasKey a b = true)
    (hbc : table.hasKey b c = true) : table.hasKey a c = true := by
  rw [hasKey_iff] at *
  intro attr hattr
  exact Value.sameOptional_trans (hbc attr hattr) (hab attr hattr)

/-- Every item has the key attributes of the table, and no two items share the
    values of all of them. -/
structure Sound (table : Table) : Prop where
  complete : ∀ item ∈ table.items, table.schema.keys.covers item = true
  distinct : table.items.Pairwise fun a b => ¬ table.hasKey a b = true

/-- A key belongs to one item of a sound table. -/
theorem Sound.eq_of_hasKey {table : Table} (hs : table.Sound) {a b : Item}
    (ha : a ∈ table.items) (hb : b ∈ table.items) (h : table.hasKey a b = true) : a = b := by
  have hdistinct := hs.distinct
  revert ha hb hdistinct
  generalize table.items = held
  induction held with
  | nil => intro ha; exact absurd ha List.not_mem_nil
  | cons head rest ih =>
      intro ha hb hdistinct
      rw [List.pairwise_cons] at hdistinct
      rcases List.mem_cons.mp ha with rfl | harest
      · rcases List.mem_cons.mp hb with rfl | hbrest
        · rfl
        · exact absurd h (hdistinct.1 b hbrest)
      · rcases List.mem_cons.mp hb with rfl | hbrest
        · rw [hasKey_comm] at h
          exact absurd h (hdistinct.1 a harest)
        · exact ih harest hbrest hdistinct.2

end Table

theorem mem_placeItem {replaces : Item → Bool} {item other : Item} {held : List Item}
    (h : other ∈ placeItem replaces item held) : other = item ∨ other ∈ held := by
  induction held with
  | nil => exact Or.inl (List.mem_singleton.mp h)
  | cons head rest ih =>
      rw [placeItem] at h
      by_cases hhead : replaces head = true
      · rw [if_pos hhead] at h
        rcases List.mem_cons.mp h with rfl | hrest
        · exact Or.inl rfl
        · exact Or.inr (List.mem_cons_of_mem head hrest)
      · rw [if_neg hhead] at h
        rcases List.mem_cons.mp h with rfl | hrest
        · exact Or.inr List.mem_cons_self
        · exact (ih hrest).imp_right (List.mem_cons_of_mem head)

-- What is not replaced stays.
theorem mem_placeItem_of_not_replaced {replaces : Item → Bool} {item other : Item}
    {held : List Item} (hother : other ∈ held) (h : ¬ replaces other = true) :
    other ∈ placeItem replaces item held := by
  induction held with
  | nil => exact absurd hother List.not_mem_nil
  | cons head rest ih =>
      rw [placeItem]
      by_cases hhead : replaces head = true
      · rw [if_pos hhead]
        rcases List.mem_cons.mp hother with rfl | hrest
        · exact absurd hhead h
        · exact List.mem_cons_of_mem item hrest
      · rw [if_neg hhead]
        rcases List.mem_cons.mp hother with rfl | hrest
        · exact List.mem_cons_self
        · exact List.mem_cons_of_mem head (ih hrest)

-- Placing an item keeps keys distinct. The item replaces the one row that has its key,
-- if there is one, since a second such row would share it.
theorem placeItem_distinct (table : Table) (item : Item) (held : List Item)
    (h : held.Pairwise fun a b => ¬ table.hasKey a b = true) :
    (placeItem (table.hasKey item) item held).Pairwise fun a b => ¬ table.hasKey a b = true := by
  induction held with
  | nil => exact List.pairwise_singleton _ item
  | cons head rest ih =>
      rw [List.pairwise_cons] at h
      rw [placeItem]
      by_cases hhead : table.hasKey item head = true
      · rw [if_pos hhead, List.pairwise_cons]
        refine ⟨fun b hb hitem => h.1 b hb ?_, h.2⟩
        rw [Table.hasKey_comm] at hhead
        exact Table.hasKey_trans hhead hitem
      · rw [if_neg hhead, List.pairwise_cons]
        refine ⟨fun b hb => ?_, ih h.2⟩
        rcases mem_placeItem hb with rfl | hrest
        · rw [Table.hasKey_comm]
          exact hhead
        · exact h.1 b hrest

/-- Writing an item that is complete: what becomes of the table. -/
theorem Table.put_eq_ok {table written : Table} {item : Item} (h : table.put item = .ok written) :
    table.schema.keys.covers item = true ∧
      written = { table with items := placeItem (table.hasKey item) item table.items } := by
  unfold Table.put at h
  cases hmissing : table.schema.keys.missingFrom? item with
  | some attr => rw [hmissing] at h; exact absurd h (by simp only [reduceCtorEq, not_false_eq_true])
  | none =>
      rw [hmissing] at h
      exact ⟨IndexKeys.missingFrom?_eq_none_iff.mp hmissing, (Except.ok.inj h).symm⟩

/-- Writing an item keeps a table sound. -/
theorem Table.put_sound {table written : Table} {item : Item} (hs : table.Sound)
    (h : table.put item = .ok written) : written.Sound := by
  rcases Table.put_eq_ok h with ⟨hcovers, rfl⟩
  refine ⟨fun other hother => ?_, placeItem_distinct table item table.items hs.distinct⟩
  rcases mem_placeItem hother with rfl | hheld
  · exact hcovers
  · exact hs.complete other hheld

namespace MemoryStore

/-- Every table of the store is sound. -/
def Sound (store : MemoryStore) : Prop :=
  ∀ name table, store.tables.get? name = some table → table.Sound

theorem create_sound {store : MemoryStore} (hs : store.Sound) (schema : TableSchema) :
    (store.create schema).Sound := by
  intro name table htable
  rw [create, Keyed.get?_insert] at htable
  by_cases hname : name = schema.name
  · rw [if_pos hname, Option.some.injEq] at htable
    rw [← htable]
    exact ⟨fun _ hitem => absurd hitem List.not_mem_nil, List.Pairwise.nil⟩
  · rw [if_neg hname] at htable
    exact hs name table htable

theorem table_eq_ok_iff {store : MemoryStore} {name : String} {table : Table} :
    store.table name = .ok table ↔ store.tables.get? name = some table := by
  unfold MemoryStore.table
  cases store.tables.get? name with
  | none => simp only [reduceCtorEq]
  | some found => simp only [Except.ok.injEq, Option.some.injEq]

/-- Writing an item that is taken: the table is there and takes it, and no other table
    changes. -/
theorem putItem_eq_ok {store written : MemoryStore} {name : String} {item : Item}
    (h : store.putItem name item = .ok written) :
    ∃ table placed, store.tables.get? name = some table ∧ table.put item = .ok placed ∧
      written = { store with tables := store.tables.insert name placed } := by
  unfold putItem at h
  simp only [bind, Except.bind] at h
  cases htable : store.table name with
  | error e => rw [htable] at h; exact absurd h (by simp only [reduceCtorEq, not_false_eq_true])
  | ok table =>
      rw [htable] at h
      cases hput : table.put item with
      | error e =>
          simp only [hput] at h
          exact absurd h (by simp only [reduceCtorEq, not_false_eq_true])
      | ok placed =>
          simp only [hput] at h
          exact ⟨table, placed, table_eq_ok_iff.mp htable, hput, (Except.ok.inj h).symm⟩

theorem putItem_sound {store written : MemoryStore} {name : String} {item : Item}
    (hs : store.Sound) (h : store.putItem name item = .ok written) : written.Sound := by
  rcases putItem_eq_ok h with ⟨table, placed, htable, hput, rfl⟩
  intro other found hfound
  rw [Keyed.get?_insert] at hfound
  by_cases hother : other = name
  · rw [if_pos hother, Option.some.injEq] at hfound
    rw [← hfound]
    exact Table.put_sound (hs name table htable) hput
  · rw [if_neg hother] at hfound
    exact hs other found hfound

theorem loadItems_sound {name : String} (items : List Item) {store : MemoryStore}
    (hs : store.Sound) : (loadItems name items store).2.Sound := by
  induction items generalizing store with
  | nil => exact hs
  | cons item rest ih =>
      rw [loadItems]
      cases hput : store.putItem name item with
      | error e => exact hs
      | ok written => exact ih (putItem_sound hs hput)

theorem write_sound {store : MemoryStore} (hs : store.Sound) (call : Write) :
    (store.write call).Sound := by
  cases call with
  | create schema => exact create_sound hs schema
  | put name item =>
      rw [write]
      cases hput : store.putItem name item with
      | error e => exact hs
      | ok written => exact putItem_sound hs hput
  | load name items =>
      rw [write, load]
      cases store.table name with
      | error e => exact hs
      | ok table => exact loadItems_sound items hs

/-- Every table that writes can lead to is sound. -/
theorem afterWrites_sound {pageSize : Nat} {writes : List Write} {name : String} {table : Table}
    (h : (afterWrites pageSize writes).table name = .ok table) : table.Sound := by
  -- The run lemma: the store is generalised over what the calls before have left.
  have hstore : ∀ (calls : List Write) (store : MemoryStore), store.Sound →
      (calls.foldl write store).Sound := by
    intro calls
    induction calls with
    | nil => exact fun _ hs => hs
    | cons call rest ih => exact fun store hs => ih (store.write call) (write_sound hs call)
  have hempty : (empty pageSize).Sound := fun _ _ hget =>
    absurd hget (by simp only [empty, Keyed.get?_nil, reduceCtorEq, not_false_eq_true])
  exact hstore writes (empty pageSize) hempty name table (table_eq_ok_iff.mp h)

end MemoryStore

/-- A film, which may have no year. -/
def film (director title : String) (year : Option Int64) : Item :=
  [("director", .string director), ("title", .string title)] ++
    year.toList.map fun y => ("year", .integer y)

/-- Films by director and title, with an index by director and year. -/
def filmSchema : TableSchema where
  name := "films"
  keys := ⟨"director", some "title"⟩
  indexes := [.colocated ⟨"director", some "title"⟩ "byYear" "year" .keysOnly]

/-- The index of films by director and year. -/
def filmsByYear : IndexView := ⟨⟨"director", some "year"⟩, ⟨"director", some "title"⟩, .keysOnly⟩

/-- Four films, of which one has no year. -/
def filmTable : Table where
  schema := filmSchema
  items := [film "a" "x" (some 1990), film "a" "y" (some 1985), film "a" "z" (some 1990),
    film "b" "w" none]

/-- Writes of the four films. One of them is written twice, and one write is to
    a table that does not exist. -/
def filmWrites : List Write :=
  [.create filmSchema, .put "films" (film "a" "x" none), .put "shows" (film "a" "x" none),
    .load "films" filmTable.items]

theorem afterWrites_filmWrites :
    (MemoryStore.afterWrites 2 filmWrites).table "films" = .ok filmTable := rfl

theorem filmsByYear_mem_views : filmsByYear ∈ filmTable.schema.views :=
  List.mem_cons_of_mem _ List.mem_cons_self

end WideColumn
