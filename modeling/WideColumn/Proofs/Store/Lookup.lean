import WideColumn.Proofs.Condition.Conjunction
import WideColumn.Proofs.Scan.Pages
import WideColumn.Proofs.Store.Finding
import WideColumn.Proofs.Store.Queries
import WideColumn.Proofs.Value.Equality

/-!
# Looking Up and Asking by Key

When the query for a key returns what looking the key up finds.

A lookup goes by sameness and a query by equality, so they would agree if the two were
one. They differ where a number of the key is stored in its other form. An item with
the integer one under its key is returned by a query for the double one, and not found
by a lookup. Two items may even have the integer and the double, since neither replaces
the other, and a query for either then returns both.

There is no other difference. `query_agrees_iff` says that the two agree just if no
item has the key across the forms of numbers, whatever else is stored under it: no
number at all, lists, or what is not even the same as itself.

## Main definitions

* `QueryRequest.AsksForKey`: A query for the items with a key.
* `Table.EqualsKey`, `Table.EqualsKeyAcross`: Having a key as a query sees it.

## Theorems

* `filter_eq_toList_find?`: A test that no two elements pass selects what it finds.
* `filter_hasKey`: Looking up finds the one item that has the key.
* `holds_key_iff_equalsKey`: A query for a key selects the items that equal it.
* `hasKey_iff_equalsKey`: Equality to a key is sameness but across forms.
* `ordered_key_iff`: When the rows of a query are what looking up finds.
* `query_agrees_iff`: When a query and a lookup agree.
-/

namespace WideColumn

/-- The request asks a table for whole items with a key, and for nothing else. It may
    ask in either direction and for a consistent read. -/
structure QueryRequest.AsksForKey (request : QueryRequest) (name : String) (keys : IndexKeys)
    (key : Item) : Prop where
  table_eq : request.table = name
  index_eq : request.index = none
  partition_eq : request.key.partition = keys.partition
  value_eq : key.get? keys.partition = some request.key.value
  sort_eq : request.key.sort =
    keys.sort.bind fun sort => (key.get? sort).map fun value => (sort, .equal value)
  filter_eq : request.filter = none
  projection_eq : request.projection = none
  startKey_eq : request.startKey = none

-- A test that no two elements pass selects what it finds.
theorem filter_eq_toList_find? {α : Type} {p : α → Bool} {l : List α}
    (h : l.Pairwise fun a b => p a = true → ¬ p b = true) : l.filter p = (l.find? p).toList := by
  induction l with
  | nil => rfl
  | cons head rest ih =>
      rw [List.pairwise_cons] at h
      by_cases hhead : p head = true
      · have hrest : rest.filter p = [] := List.filter_eq_nil_iff.mpr fun b hb => h.1 b hb hhead
        rw [List.filter_cons_of_pos hhead, List.find?_cons_of_pos hhead, hrest]
        rfl
      · rw [List.filter_cons_of_neg hhead, List.find?_cons_of_neg hhead, ih h.2]

namespace Table

/-- The item has values under the key attributes that equal those of the key. -/
def EqualsKey (table : Table) (key item : Item) : Prop :=
  ∀ attr ∈ table.schema.keys.attrs, ∃ v w,
    item.get? attr = some v ∧ key.get? attr = some w ∧ v.equals w = true

/-- The item equals the key, but under some attribute one of them has an integer and
    the other one a double. -/
def EqualsKeyAcross (table : Table) (key item : Item) : Prop :=
  table.EqualsKey key item ∧ ∃ attr ∈ table.schema.keys.attrs, ∃ v w,
    item.get? attr = some v ∧ key.get? attr = some w ∧ v.crosses w = true

section

variable {table : Table} {key : Item}

/-- Looking a key up finds the one item that has it. -/
theorem filter_hasKey (hs : table.Sound) (key : Item) :
    table.items.filter (table.hasKey key) = (table.items.find? (table.hasKey key)).toList := by
  refine filter_eq_toList_find? (hs.distinct.imp fun {a b} hab ha hb => hab ?_)
  exact hasKey_trans (hasKey_comm table key a ▸ ha) hb

-- A comparison by equality holds of the items that have an equal value.
theorem holds_equal_iff {attr : String} {w : Value} {item : Item} :
    (Condition.comparison attr .equal w).holds item = true ↔
      ∃ v, item.get? attr = some v ∧ v.equals w = true := by
  rw [Condition.holds]
  cases item.get? attr with
  | none => exact iff_of_false Bool.false_ne_true (by simp only [reduceCtorEq, false_and,
      exists_false, not_false_eq_true])
  | some v => simp only [Comparator.holds, Option.some.injEq, exists_eq_left']

/-- A query for a key selects the items that equal it. -/
theorem holds_key_iff_equalsKey {name : String} {request : QueryRequest}
    (hasks : request.AsksForKey name table.schema.keys key)
    (hkey : table.schema.keys.covers key = true) (item : Item) :
    request.key.toCondition.holds item = true ↔ table.EqualsKey key item := by
  -- Under one attribute: the value of the key is the operand.
  have hattr : ∀ {attr : String} {w : Value}, key.get? attr = some w →
      ((∃ v w, item.get? attr = some v ∧ key.get? attr = some w ∧ v.equals w = true) ↔
        (Condition.comparison attr .equal w).holds item = true) := fun {attr w} hw => by
    simp only [holds_equal_iff, hw, Option.some.injEq, exists_eq_left', exists_and_left]
  rw [KeyCondition.toCondition, hasks.sort_eq, hasks.partition_eq, EqualsKey, IndexKeys.attrs,
    List.forall_mem_cons, hattr hasks.value_eq]
  cases hsort : table.schema.keys.sort with
  | none => simp only [Option.bind_none, Option.toList_none, List.not_mem_nil, false_implies,
      implies_true, and_true]
  | some sort =>
      have hcontains := IndexKeys.covers_iff.mp hkey sort (by
        rw [IndexKeys.attrs, hsort]
        exact List.mem_cons_of_mem _ List.mem_cons_self)
      rcases Option.isSome_iff_exists.mp hcontains with ⟨w, hw⟩
      simp only [Option.bind_some, hw, Option.map_some, Option.toList_some, List.mem_singleton,
        forall_eq]
      have hsame := hattr hw
      rw [hw] at hsame
      rw [Condition.holds_both, Bool.and_eq_true]
      exact and_congr_right' hsame.symm

/-- An item that equals a key has it, but across the forms of numbers. -/
theorem hasKey_iff_equalsKey (hkey : table.schema.keys.covers key = true) {item : Item}
    (hitem : table.schema.keys.covers item = true) :
    table.hasKey key item = true ↔
      table.EqualsKey key item ∧ ¬ table.EqualsKeyAcross key item := by
  rw [IndexKeys.covers_iff] at hkey hitem
  constructor
  · intro h
    rw [hasKey_iff] at h
    have hsame : ∀ attr ∈ table.schema.keys.attrs, ∀ v w, item.get? attr = some v →
        key.get? attr = some w → v.same w = true := fun attr hattr v w hv hw => by
      have hattr := h attr hattr
      rw [hv, hw] at hattr
      exact hattr
    refine ⟨fun attr hattr => ?_, fun hacross => ?_⟩
    · rcases Option.isSome_iff_exists.mp (hitem attr hattr) with ⟨v, hv⟩
      rcases Option.isSome_iff_exists.mp (hkey attr hattr) with ⟨w, hw⟩
      exact ⟨v, w, hv, hw, Value.equals_of_same (hsame attr hattr v w hv hw)⟩
    · rcases hacross.2 with ⟨attr, hattr, v, w, hv, hw, hcrosses⟩
      rw [Value.crosses_of_same (hsame attr hattr v w hv hw)] at hcrosses
      exact absurd hcrosses Bool.false_ne_true
  · rintro ⟨hequals, hacross⟩
    rw [hasKey_iff]
    intro attr hattr
    rcases hequals attr hattr with ⟨v, w, hv, hw, hvw⟩
    have hcrosses : v.crosses w = false := by
      rw [Bool.eq_false_iff]
      exact fun h => hacross ⟨hequals, attr, hattr, v, w, hv, hw, h⟩
    rw [Value.equals_eq_same hcrosses] at hvw
    rw [hv, hw]
    exact hvw

end

end Table

namespace IndexView

variable {view : IndexView} {request : QueryRequest} {items : List Item}

-- A page of whole items, none of which is filtered out, is what it evaluates.
theorem scan_items_of_whole (hall : view.projection = .all) (hfilter : request.filter = none)
    (hprojection : request.projection = none) (limit : Nat) :
    (view.scan request limit items).items = (view.remaining request items).take limit := by
  have hresult : view.result? request = some := by
    funext item
    rw [result?, hfilter, Option.all_none, if_pos rfl, present, hprojection, project, hall]
    rfl
  have hscan : (view.scan request limit items).items =
      ((view.remaining request items).take limit).filterMap (view.result? request) := rfl
  rw [hscan, hresult, List.filterMap_some]

-- Such a page is all there is of at most one row, just if the row is all that is left.
theorem scan_eq_iff_of_whole (hall : view.projection = .all) (hfilter : request.filter = none)
    (hprojection : request.projection = none) {limit : Nat} (hlimit : 1 ≤ limit)
    (row : Option Item) :
    ((view.scan request limit items).items = row.toList ∧
      (view.scan request limit items).lastKey = none) ↔
      view.remaining request items = row.toList := by
  rw [scan_items_of_whole hall hfilter hprojection]
  have hone : row.toList.length ≤ 1 := Option.length_toList_le
  rcases lastKey_cases view request hlimit items with ⟨hlt, last, _, hkey⟩ | ⟨hle, hkey⟩
  · refine iff_of_false (fun h => ?_) (fun h => ?_)
    · rw [hkey] at h
      exact absurd h.2 (by simp only [reduceCtorEq, not_false_eq_true])
    · rw [h] at hlt
      omega
  · rw [List.take_of_length_le hle, hkey]
    exact and_iff_left rfl

end IndexView

namespace Table

variable {table : Table} {key : Item} {name : String} {request : QueryRequest}

/-- The rows of a query for a key are the item that has the key, just if no item equals
    the key across the forms of numbers. -/
theorem ordered_key_iff (hs : table.Sound) (hkey : table.schema.keys.covers key = true)
    (hasks : request.AsksForKey name table.schema.keys key) :
    (IndexView.mk table.schema.keys table.schema.keys .all).ordered request table.items =
        (table.items.find? (table.hasKey key)).toList ↔
      ∀ item ∈ table.items, ¬ table.EqualsKeyAcross key item := by
  constructor
  · intro h item hitem hacross
    have hrow : item ∈ (IndexView.mk table.schema.keys table.schema.keys .all).ordered request
        table.items :=
      IndexView.mem_ordered.mpr ⟨hitem, hs.complete item hitem,
        (holds_key_iff_equalsKey hasks hkey item).mpr hacross.1⟩
    rw [h, Option.mem_toList] at hrow
    have hhas := List.find?_some hrow
    exact ((hasKey_iff_equalsKey hkey (hs.complete item hitem)).mp hhas).2 hacross
  · intro h
    have hrows : (IndexView.mk table.schema.keys table.schema.keys .all).rows request table.items =
        (table.items.find? (table.hasKey key)).toList := by
      rw [← filter_hasKey hs]
      refine List.filter_congr fun item hitem => ?_
      have hcovers := hs.complete item hitem
      rw [hcovers, Bool.true_and, Bool.eq_iff_iff, holds_key_iff_equalsKey hasks hkey,
        hasKey_iff_equalsKey hkey hcovers]
      exact (and_iff_left (h item hitem)).symm
    have hperm := IndexView.ordered_perm ⟨table.schema.keys, table.schema.keys, .all⟩ request
      table.items
    rw [hrows] at hperm
    -- There is at most one row, so there is nothing to order.
    cases hfound : table.items.find? (table.hasKey key) with
    | none => rw [hfound] at hperm; exact List.perm_nil.mp hperm
    | some item => rw [hfound] at hperm; exact List.perm_singleton.mp hperm

end Table

/-- When a query and a lookup agree. Whatever writes led to the table, looking up a key
    that is complete and asking for it both succeed. The page has the item that is found,
    or none where none is, and reports that there is no more, just if no item of the table
    equals the key across the forms of numbers. Whatever else may become of the query, it
    agrees with the lookup in every case just if that is so, since then there are too few
    rows for the sort to panic. -/
theorem MemoryStore.query_agrees_iff {pageSize : Nat} {writes : List Write} {name : String}
    {table : Table} (htable : (afterWrites pageSize writes).table name = .ok table) {key : Item}
    (hkey : table.schema.keys.covers key = true) {request : QueryRequest}
    (hasks : request.AsksForKey name table.schema.keys key) (hlimit : request.limit ≠ some 0) :
    ∃ page found, (afterWrites pageSize writes).runQuery request = .ok page ∧
      (afterWrites pageSize writes).getItem name key = .ok found ∧
      (page.items = found.toList ∧ page.lastKey = none ↔
        ∀ item ∈ table.items, ¬ table.EqualsKeyAcross key item) ∧
      ((∀ outcome, (afterWrites pageSize writes).MayAnswer request outcome →
          ∃ page, outcome = some (.ok page) ∧ page.items = found.toList ∧ page.lastKey = none) ↔
        ∀ item ∈ table.items, ¬ table.EqualsKeyAcross key item) := by
  have hview : table.view request = .ok ⟨table.schema.keys, table.schema.keys, .all⟩ := by
    rw [Table.view, hasks.index_eq]
  have hrequest : (afterWrites pageSize writes).table request.table = .ok table := by
    rw [hasks.table_eq]
    exact htable
  have hget : (afterWrites pageSize writes).getItem name key =
      .ok (table.items.find? (table.hasKey key)) := by
    rw [getItem, htable]
    exact Table.get_eq_ok hkey
  have hpage := runQuery_eq_ok hrequest hview hlimit
  have hrows := Table.ordered_key_iff (afterWrites_sound htable) hkey hasks
  have hagree : (IndexView.scan ⟨table.schema.keys, table.schema.keys, .all⟩ request
        (pageRows request.limit (afterWrites pageSize writes).pageSize) table.items).items =
          (table.items.find? (table.hasKey key)).toList ∧
      (IndexView.scan ⟨table.schema.keys, table.schema.keys, .all⟩ request
        (pageRows request.limit (afterWrites pageSize writes).pageSize) table.items).lastKey =
          none ↔ ∀ item ∈ table.items, ¬ table.EqualsKeyAcross key item := by
    rw [IndexView.scan_eq_iff_of_whole rfl hasks.filter_eq hasks.projection_eq
      (pageRows_pos hlimit (afterWrites pageSize writes).pageSize_pos), ← hrows,
      IndexView.remaining, IndexView.after, hasks.startKey_eq]
  refine ⟨_, _, hpage, hget, hagree, fun hall => ?_, fun hnone outcome houtcome => ?_⟩
  · rcases hall _ (mayAnswer_runQuery _ request) with ⟨page, heq, hitems⟩
    rw [hpage, Option.some.injEq, Except.ok.injEq] at heq
    exact hagree.mp (heq ▸ hitems)
  · -- The item that is found is the only row, if there is one.
    have hfew : (IndexView.rows ⟨table.schema.keys, table.schema.keys, .all⟩ request
        table.items).length ≤ insertedRows := by
      rw [← (IndexView.ordered_perm _ request table.items).length_eq, hrows.mpr hnone]
      exact Nat.le_trans Option.length_toList_le (by decide)
    have hanswer := mayAnswer_of_sortable hrequest hview hlimit
      (IndexView.sortable_of_length_le hfew) houtcome
    exact ⟨_, hanswer.trans (congrArg some hpage), hagree.mpr hnone⟩

/-- The film of a title, asked for by its key. -/
def oneFilm (title : String) : QueryRequest where
  table := "films"
  index := none
  key := ⟨"director", .string "a", some ("title", .equal (.string title))⟩
  filter := none
  projection := none
  forward := true
  consistent := false
  limit := none
  startKey := none

theorem asksForKey_oneFilm : (oneFilm "y").AsksForKey "films" filmTable.schema.keys
    (film "a" "y" none) :=
  ⟨rfl, rfl, rfl, rfl, rfl, rfl, rfl, rfl⟩

/-- The films have no number under a key, so asking for one finds what looking it up does. -/
theorem MemoryStore.query_agrees_iff_oneFilm :
    (afterWrites 2 filmWrites).table "films" = .ok filmTable ∧
    filmTable.schema.keys.covers (film "a" "y" none) = true ∧
    (oneFilm "y").AsksForKey "films" filmTable.schema.keys (film "a" "y" none) ∧
    (oneFilm "y").limit ≠ some 0 ∧
    ∃ page found, (afterWrites 2 filmWrites).runQuery (oneFilm "y") = .ok page ∧
      (afterWrites 2 filmWrites).getItem "films" (film "a" "y" none) = .ok found ∧
      (page.items = found.toList ∧ page.lastKey = none ↔
        ∀ item ∈ filmTable.items, ¬ filmTable.EqualsKeyAcross (film "a" "y" none) item) ∧
      ((∀ outcome, (afterWrites 2 filmWrites).MayAnswer (oneFilm "y") outcome →
          ∃ page, outcome = some (.ok page) ∧ page.items = found.toList ∧ page.lastKey = none) ↔
        ∀ item ∈ filmTable.items, ¬ filmTable.EqualsKeyAcross (film "a" "y" none) item) :=
  ⟨afterWrites_filmWrites, rfl, asksForKey_oneFilm, Option.some_ne_none 0 |>.symm,
    query_agrees_iff afterWrites_filmWrites rfl asksForKey_oneFilm
      (Option.some_ne_none 0 |>.symm)⟩

/-- A mark with a number and a unit. -/
def mark (id : Value) (unit : String) : Item := [("id", id), ("unit", .string unit)]

/-- Marks by number. -/
def markSchema : TableSchema where
  name := "marks"
  keys := ⟨"id", none⟩
  indexes := []

/-- Two marks with the number one, which the first has as an integer and the second as a
    double. -/
def twoMarks : List Write :=
  [.create markSchema, .put "marks" (mark (.integer 1) "m"),
    .put "marks" (mark (.float (Binary64.ofNat 1)) "s")]

/-- The marks with a number. -/
def marksWith (id : Value) : QueryRequest where
  table := "marks"
  index := none
  key := ⟨"id", id, none⟩
  filter := none
  projection := none
  forward := true
  consistent := false
  limit := none
  startKey := none

/-- Looking up the integer one finds the first mark, and asking for it returns both. -/
theorem MemoryStore.query_disagrees_twoMarks :
    (marksWith (.integer 1)).AsksForKey "marks" markSchema.keys [("id", .integer 1)] ∧
    (afterWrites 2 twoMarks).getItem "marks" [("id", .integer 1)] =
      .ok (some (mark (.integer 1) "m")) ∧
    (afterWrites 2 twoMarks).runQuery (marksWith (.integer 1)) =
      .ok ⟨[mark (.integer 1) "m", mark (.float (Binary64.ofNat 1)) "s"], none⟩ :=
  ⟨⟨rfl, rfl, rfl, rfl, rfl, rfl, rfl, rfl⟩, rfl, rfl⟩

end WideColumn
