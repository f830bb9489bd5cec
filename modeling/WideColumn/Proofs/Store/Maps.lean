import Mathlib.Data.Set.Card
import WideColumn.Proofs.Store.Ledger
import WideColumn.Proofs.Value.KeyForm

/-!
# Tables as Maps

A table is the map from keys to the items that were written under them last.

The map is read off the ledger of the table (`Ledger.Latest`), and `MemoryStore.Maps` says in
which ways a store shows it: by its rows, by what is found under a key, by what a write does to
it and by the counts of a description.

Its keys are told apart by equality, and for that nothing in the keys that were written may
stand for no number. An item with such a key is never found again, so writing it twice leaves
two rows. There is no such hypothesis on the keys that are looked for: they are just not found.

## Main definitions

* `IndexKeys.keyOf`: The key of an item, by which rows are told apart.
* `Ledger.Latest`: The item that was written last under a key.
* `MemoryStore.Maps`, `MemoryStore.Lacks`: How a store shows the map of a ledger, or no table.

## Theorems

* `hasKey_iff_keyOf`: Having a key is an equality of keys.
* `Follows.latest_iff`: What is found under a key is the item written last.
* `Follows.countP_eq`: Rows are as many as keys.
* `afterWrites_maps`: What a store has after any calls.
-/

namespace WideColumn

namespace IndexKeys

/-- The values of an item under the key attributes, in key form. -/
def keyOf (keys : IndexKeys) (item : Item) : List (Option Value) :=
  keys.attrs.map fun attr => (item.get? attr).map Value.keyForm

/-- Nothing in the values of an item under the key attributes stands for no number. -/
def NumbersOnly (keys : IndexKeys) (item : Item) : Prop :=
  ∀ attr ∈ keys.attrs, ∀ v, item.get? attr = some v → v.hasNaN = false

end IndexKeys

/-- Having the key of an item is an equality of keys, unless something in the key that the item
    has stands for no number. -/
theorem Table.hasKey_iff_keyOf {table : Table} {key item : Item} :
    table.hasKey key item = true ↔ table.schema.keys.NumbersOnly item ∧
      table.schema.keys.keyOf item = table.schema.keys.keyOf key := by
  rw [hasKey_iff, IndexKeys.keyOf, IndexKeys.keyOf, List.map_inj_left]
  simp only [Value.sameOptional_iff]
  exact forall₂_and

/-- The item was written last of those with a key. -/
def Ledger.Latest (l : Ledger) (key : List (Option Value)) (item : Item) : Prop :=
  ∃ before after, l.written = before ++ item :: after ∧ l.schema.keys.keyOf item = key ∧
    ∀ other ∈ after, l.schema.keys.keyOf other ≠ key

-- The last item with a key is the first one from the end, if a test tells who has the key.
theorem Ledger.latest_iff_find? {l : Ledger} {key : List (Option Value)} {hasKey : Item → Bool}
    (hkey : ∀ item ∈ l.written, hasKey item = true ↔ l.schema.keys.keyOf item = key)
    {item : Item} : l.Latest key item ↔ l.written.reverse.find? hasKey = some item := by
  rw [List.find?_eq_some_iff_append]
  constructor
  · rintro ⟨before, after, hwritten, hitem, hafter⟩
    have hmem : ∀ other ∈ item :: after, other ∈ l.written := fun other hother =>
      hwritten ▸ List.mem_append_right before hother
    refine ⟨(hkey item (hmem item List.mem_cons_self)).mpr hitem, after.reverse, before.reverse,
      ?_, fun other hother => ?_⟩
    · rw [hwritten, List.reverse_append, List.reverse_cons, List.append_assoc,
        List.singleton_append]
    · have hother := List.mem_reverse.mp hother
      rw [Bool.not_eq_true', Bool.eq_false_iff, ne_eq,
        hkey other (hmem other (List.mem_cons_of_mem item hother))]
      exact hafter other hother
  · rintro ⟨hitem, after, before, hreverse, hafter⟩
    have hwritten : l.written = before.reverse ++ item :: after.reverse := by
      rw [← List.reverse_reverse l.written, hreverse, List.reverse_append, List.reverse_cons,
        List.append_assoc, List.singleton_append]
    have hmem : ∀ other ∈ item :: after.reverse, other ∈ l.written := fun other hother =>
      hwritten ▸ List.mem_append_right before.reverse hother
    refine ⟨before.reverse, after.reverse, hwritten,
      (hkey item (hmem item List.mem_cons_self)).mp hitem, fun other hother => ?_⟩
    have hnot := hafter other (List.mem_reverse.mp hother)
    rw [Bool.not_eq_true', Bool.eq_false_iff, ne_eq,
      hkey other (hmem other (List.mem_cons_of_mem item hother))] at hnot
    exact hnot

namespace Table.Follows

variable {table : Table} {l : Ledger} (h : table.Follows l)
  (hnumbers : ∀ item ∈ l.written, l.schema.keys.NumbersOnly item)

include h hnumbers

-- What was written has a key if its own key is that one.
theorem hasKey_iff (key : Item) : ∀ item ∈ l.written, table.hasKey key item = true ↔
    l.schema.keys.keyOf item = l.schema.keys.keyOf key := by
  intro item hitem
  rw [hasKey_iff_keyOf, h.schema_eq]
  exact and_iff_right (hnumbers item hitem)

/-- What is found under a key is the item that was written last under it. -/
theorem latest_iff (key item : Item) : table.items.find? (table.hasKey key) = some item ↔
    l.Latest (l.schema.keys.keyOf key) item := by
  rw [h.find_eq key, Ledger.latest_iff_find? (h.hasKey_iff hnumbers key)]

/-- The rows are the items that were written last under their keys. -/
theorem mem_iff (row : Item) : row ∈ table.items ↔ l.Latest (l.schema.keys.keyOf row) row := by
  rw [← h.latest_iff hnumbers]
  constructor
  · intro hrow
    have hself := (h.hasKey_iff hnumbers row row (h.written row hrow)).mpr rfl
    rcases Option.isSome_iff_exists.mp (List.find?_isSome.mpr ⟨row, hrow, hself⟩) with
      ⟨found, hfound⟩
    rw [hfound, h.sound.eq_of_hasKey hrow (List.mem_of_find?_eq_some hfound)
      (List.find?_some hfound)]
  · exact List.mem_of_find?_eq_some

theorem nodup : (table.items.map l.schema.keys.keyOf).Nodup := by
  rw [List.Nodup, List.pairwise_map]
  refine h.sound.distinct.imp_of_mem fun {a b} _ hb hab heq => hab ?_
  exact (h.hasKey_iff hnumbers a b (h.written b hb)).mpr heq.symm

/-- The rows that pass a test are as many as the keys whose last item passes it. -/
theorem countP_eq (test : Item → Bool) : table.items.countP test =
    {key | ∃ item, l.Latest key item ∧ test item = true}.ncard := by
  classical
  have hkeys : {key | ∃ item, l.Latest key item ∧ test item = true} =
      ↑((table.items.filter test).map l.schema.keys.keyOf).toFinset := by
    ext key
    rw [Set.mem_ofPred_eq, List.coe_toFinset, Set.mem_ofPred_eq, List.mem_map]
    refine exists_congr fun item => ?_
    rw [List.mem_filter, h.mem_iff hnumbers, and_right_comm]
    constructor
    · rintro ⟨hlatest, htest⟩
      obtain ⟨_, _, _, hkey, _⟩ := id hlatest
      exact ⟨⟨hkey ▸ hlatest, hkey⟩, htest⟩
    · rintro ⟨⟨hlatest, hkey⟩, htest⟩
      exact ⟨hkey ▸ hlatest, htest⟩
  have hnodup : ((table.items.filter test).map l.schema.keys.keyOf).Nodup :=
    (h.nodup hnumbers).sublist (List.filter_sublist.map l.schema.keys.keyOf)
  rw [hkeys, Set.ncard_coe_finset, List.toFinset_card_of_nodup hnodup, List.length_map,
    List.countP_eq_length_filter]

end Table.Follows

namespace MemoryStore

/-- A store has a table that is the map of a ledger, from keys to the items that were written
    last under them. -/
structure Maps (store : MemoryStore) (name : String) (l : Ledger) (rows : List Item) : Prop where
  table_eq : store.table name = .ok ⟨l.schema, rows⟩
  /-- Every row has all key attributes, no two rows have one key, and the rows are the items
      that were written last. -/
  complete : ∀ row ∈ rows, l.schema.keys.covers row = true
  distinct : (rows.map l.schema.keys.keyOf).Nodup
  mem_iff : ∀ row, row ∈ rows ↔ l.Latest (l.schema.keys.keyOf row) row
  /-- Under a complete key the item is found that was written last, or nothing. -/
  getItem_eq : ∀ key, l.schema.keys.covers key = true → ∃ found,
    store.getItem name key = .ok found ∧
    ∀ item, found = some item ↔ l.Latest (l.schema.keys.keyOf key) item
  /-- A complete item takes the place of the row with its key, or the last place if there is
      none. No other row changes, and no other table. -/
  putItem_eq : ∀ item, l.schema.keys.covers item = true → ∃ written placed,
    store.putItem name item = .ok written ∧ written.table name = .ok ⟨l.schema, placed⟩ ∧
    (∀ other, other ≠ name → written.table other = store.table other) ∧
    ((∃ before row after, rows = before ++ row :: after ∧
        l.schema.keys.keyOf row = l.schema.keys.keyOf item ∧
        placed = before ++ item :: after) ∨
      (∀ row ∈ rows, l.schema.keys.keyOf row ≠ l.schema.keys.keyOf item) ∧
        placed = rows ++ [item])
  /-- An item that lacks a key attribute is refused, and nothing changes. -/
  putItem_refuses : ∀ item, l.schema.keys.covers item = false →
    ∃ attr ∈ l.schema.keys.attrs, item.contains attr = false ∧
      store.putItem name item = .error (.validation (.itemLacksKey attr)) ∧
      store.write (.put name item) = store
  /-- Loading is writing one by one, up to the first item that is refused. -/
  load_eq : ∀ items, (∀ item ∈ items, l.schema.keys.covers item = true) →
    store.load name items = (.ok (), store.puts name items)
  load_stops : ∀ before item after, (∀ item ∈ before, l.schema.keys.covers item = true) →
    l.schema.keys.covers item = false →
    ∃ attr ∈ l.schema.keys.attrs, item.contains attr = false ∧
      store.load name (before ++ item :: after) =
        (.error (.validation (.itemLacksKey attr)), store.puts name before)
  /-- A description counts the keys, and for an index those whose item the index has. -/
  describe_eq : (store.describe name).1 = .ok {
    name := l.schema.name
    keySchema := l.schema.keys.schema
    itemCount := {key | ∃ item, l.Latest key item}.ncard
    secondaries := l.schema.indexes.map fun index => {
      name := index.name
      keySchema := index.keys.schema
      projection := index.projection
      distribution := index.distribution
      itemCount := {key | ∃ item, l.Latest key item ∧ index.keys.covers item = true}.ncard } }

/-- A store has no table of a name, and every call for it fails and changes nothing. -/
structure Lacks (store : MemoryStore) (name : String) : Prop where
  table_eq : store.table name = .error (.tableNotFound name)
  getItem_eq : ∀ key, store.getItem name key = .error (.tableNotFound name)
  putItem_eq : ∀ item, store.putItem name item = .error (.tableNotFound name) ∧
    store.write (.put name item) = store
  load_eq : ∀ items, store.load name items = (.error (.tableNotFound name), store)
  describe_eq : (store.describe name).1 = .error (.tableNotFound name)

section

variable {store : MemoryStore} {name : String} {l : Ledger} {rows : List Item}
  (htable : store.table name = .ok ⟨l.schema, rows⟩) (h : Table.Follows ⟨l.schema, rows⟩ l)
  (hnumbers : ∀ item ∈ l.written, l.schema.keys.NumbersOnly item)

include htable h hnumbers

-- What a complete item that is written does to the rows.
theorem putItem_places {item : Item} (hcovers : l.schema.keys.covers item = true) :
    ∃ written placed, store.putItem name item = .ok written ∧
      written.table name = .ok ⟨l.schema, placed⟩ ∧
      (∀ other, other ≠ name → written.table other = store.table other) ∧
      ((∃ before row after, rows = before ++ row :: after ∧
          l.schema.keys.keyOf row = l.schema.keys.keyOf item ∧
          placed = before ++ item :: after) ∨
        (∀ row ∈ rows, l.schema.keys.keyOf row ≠ l.schema.keys.keyOf item) ∧
          placed = rows ++ [item]) := by
  have hkey := h.hasKey_iff hnumbers item
  rcases putItem_cases htable item with ⟨_, placed, hplaced, hput⟩ | ⟨hlacks, _⟩
  · rcases Table.put_eq_ok hplaced with ⟨_, rfl⟩
    refine ⟨_, placeItem (Table.hasKey ⟨l.schema, rows⟩ item) item rows, hput, ?_,
      fun other hother => table_putItem_of_ne hput hother, ?_⟩
    · rw [table_eq_ok_iff, Keyed.get?_insert, if_pos rfl]
    · rcases placeItem_cases (Table.hasKey ⟨l.schema, rows⟩ item) item rows with
        ⟨before, row, after, hrows, hrow, hafter⟩ | ⟨hnone, hbehind⟩
      · have hmem : row ∈ rows := hrows ▸ List.mem_append_right _ List.mem_cons_self
        exact Or.inl ⟨before, row, after, hrows, (hkey row (h.written row hmem)).mp hrow, hafter⟩
      · exact Or.inr ⟨fun row hrow heq => hnone row hrow ((hkey row (h.written row hrow)).mpr heq),
          hbehind⟩
  · rw [hcovers] at hlacks
    exact absurd hlacks.symm Bool.false_ne_true

/-- A store with a table that follows a ledger shows its map. -/
theorem maps_of_follows : store.Maps name l rows where
  table_eq := htable
  complete := h.sound.complete
  distinct := h.nodup hnumbers
  mem_iff := h.mem_iff hnumbers
  getItem_eq := fun key hcovers => by
    refine ⟨rows.find? (Table.hasKey ⟨l.schema, rows⟩ key), ?_, h.latest_iff hnumbers key⟩
    rw [getItem, htable]
    exact Table.get_eq_ok hcovers
  putItem_eq := fun _ => putItem_places htable h hnumbers
  putItem_refuses := fun item hlacks => by
    rcases putItem_cases htable item with ⟨hcovers, _⟩ | ⟨_, attr, hattr, hnot, hput⟩
    · rw [hlacks] at hcovers
      exact absurd hcovers Bool.false_ne_true
    · exact ⟨attr, hattr, hnot, hput, write_put_of_error hput⟩
  load_eq := fun _ => load_of_covers ⟨_, htable, rfl⟩
  load_stops := fun _ _ after hcovers hlacks =>
    load_of_lacking ⟨_, htable, rfl⟩ hcovers hlacks after
  describe_eq := by
    have hall := h.countP_eq hnumbers fun _ => true
    simp only [List.countP_true, and_true] at hall
    rw [describe, report, htable, ← hall]
    simp only [← h.countP_eq hnumbers]
    rfl

end

theorem lacks_of_table {store : MemoryStore} {name : String}
    (htable : store.table name = .error (.tableNotFound name)) : store.Lacks name where
  table_eq := htable
  getItem_eq := fun key => by
    rw [getItem, htable]
    rfl
  putItem_eq := fun item =>
    ⟨putItem_of_error htable item, write_put_of_error (putItem_of_error htable item)⟩
  load_eq := fun items => by
    rw [load, htable]
  describe_eq := by
    rw [describe, report, htable]
    rfl

/-- What a store has after any calls that create tables, write items and load items. A table
    that was created is the map from keys to the items that were written to it last since then,
    if nothing in the keys of these items stands for no number. A table that was not created is
    not there. -/
theorem afterWrites_maps {pageSize : Nat} {writes : List Write} {name : String}
    (hnumbers : ∀ l, ledger name writes = some l →
      ∀ item ∈ l.written, l.schema.keys.NumbersOnly item) :
    (∀ l, ledger name writes = some l → ∃ rows, (afterWrites pageSize writes).Maps name l rows) ∧
    (ledger name writes = none → (afterWrites pageSize writes).Lacks name) := by
  have hfollows := afterWrites_follows pageSize writes name
  refine ⟨fun l hledger => ?_, fun hledger => ?_⟩
  · rw [hledger] at hfollows
    rcases hfollows with ⟨⟨schema, rows⟩, htable, h⟩
    obtain rfl : schema = l.schema := h.schema_eq
    exact ⟨rows, maps_of_follows htable h (hnumbers l hledger)⟩
  · rw [hledger] at hfollows
    exact lacks_of_table hfollows

theorem numbersOnly_film (director title : String) (year : Option Int64) :
    filmSchema.keys.NumbersOnly (film director title year) := by
  intro attr hattr v hv
  rcases List.mem_cons.mp hattr with rfl | hattr
  · rw [← Option.some.inj hv]
    rfl
  · rw [List.mem_singleton.mp hattr] at hv
    rw [← Option.some.inj hv]
    rfl

/-- The films after the second one of five writes has replaced the first one. -/
theorem afterWrites_maps_films : ∃ l,
    ledger "films" filmWrites = some l ∧ l.written.length = 5 ∧
    (∀ item ∈ l.written, l.schema.keys.NumbersOnly item) ∧
    (afterWrites 2 filmWrites).Maps "films" l filmTable.items ∧
    ledger "shows" filmWrites = none ∧
    (afterWrites 2 filmWrites).Lacks "shows" := by
  have hledger : ledger "films" filmWrites =
      some ⟨filmSchema, film "a" "x" none :: filmTable.items⟩ := rfl
  have hnumbers : ∀ item ∈ film "a" "x" none :: filmTable.items,
      filmSchema.keys.NumbersOnly item := by
    simp only [filmTable, List.forall_mem_cons, numbersOnly_film, true_and]
    exact fun _ h => absurd h List.not_mem_nil
  have hfilms : ∀ l, ledger "films" filmWrites = some l →
      ∀ item ∈ l.written, l.schema.keys.NumbersOnly item := fun l hl => by
    obtain rfl := Option.some.inj (hledger.symm.trans hl)
    exact hnumbers
  have hnone : ledger "shows" filmWrites = none := rfl
  rcases (@afterWrites_maps 2 filmWrites "films" hfilms).1 _ hledger with ⟨rows, hmaps⟩
  have hrows : rows = filmTable.items :=
    congrArg Table.items (Except.ok.inj (hmaps.table_eq.symm.trans afterWrites_filmWrites))
  have hshows : ∀ l, ledger "shows" filmWrites = some l →
      ∀ item ∈ l.written, l.schema.keys.NumbersOnly item :=
    fun l hl => absurd (hnone.symm.trans hl) nofun
  exact ⟨_, hledger, rfl, hnumbers, hrows ▸ hmaps, hnone,
    (@afterWrites_maps 2 filmWrites "shows" hshows).2 hnone⟩

end MemoryStore

end WideColumn
