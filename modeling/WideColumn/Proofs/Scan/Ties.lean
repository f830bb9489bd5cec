import WideColumn.Proofs.Scan.Rows
import WideColumn.Proofs.Store.Lookup
import WideColumn.Proofs.Value.Confused

/-!
# Rows That Share a Position

When two rows of a table stand at one place of an index.

A row is placed by the sort key of the index and by the keys of the table, and no two rows
of a table have the same key. That would keep all rows apart if having the same key and
tying under it were one. They are not, so `order_eq_iff_confuses` states exactly what is
left: two rows share a position just if their values tie under every attribute that places
them, and under some key of the table they only tie. No condition on what is stored is
needed for that, since writing keeps keys distinct whatever the values are.

Rows at one position are lost to paging. Reading resumes after the key of a row, and of two
rows that share a position neither comes after the other. Two rows that do not are never
lost: one of them comes after the other, in whichever direction the request goes.

## Main definitions

* `IndexView.Confuses`: Two items are placed alike although their keys are not the same.

## Theorems

* `order_eq_iff`: What it takes to share a position.
* `order_ne_eq_iff`: Rows that do not are not lost to one another.
* `order_eq_iff_confuses`: Which rows of a table share a position.
* `twoMarks_share_position`: Two rows that do, one of which is not reached.
-/

namespace WideColumn

theorem positionOrder_eq_iff (attrs : List String) (a b : Item) :
    positionOrder (attrs.map a.get?) (attrs.map b.get?) = .eq ↔
      ∀ attr ∈ attrs, Value.keyOrder (a.get? attr) (b.get? attr) = .eq := by
  induction attrs with
  | nil => exact iff_of_true rfl fun _ h => absurd h List.not_mem_nil
  | cons attr rest ih =>
      rw [List.map_cons, List.map_cons, positionOrder, Ordering.then_eq_eq, ih,
        List.forall_mem_cons]

namespace IndexView

/-- The items have values that tie under every attribute that places them, and under some
    key of the table the values are not the same. -/
def Confuses (view : IndexView) (a b : Item) : Prop :=
  (∀ attr ∈ view.orderAttrs,
    Value.sameOptional (a.get? attr) (b.get? attr) = true ∨ Value.ConfusedUnder attr a b) ∧
  ∃ attr ∈ view.table.attrs, Value.ConfusedUnder attr a b

/-- What it takes to share a position. -/
theorem order_eq_iff (view : IndexView) (a b : Item) :
    view.order a b = .eq ↔ ∀ attr ∈ view.orderAttrs,
      Value.sameOptional (a.get? attr) (b.get? attr) = true ∨ Value.ConfusedUnder attr a b := by
  rw [order, position, position, ← orderAttrs, positionOrder_eq_iff]
  simp only [Value.keyOrder_get?_eq_iff]

/-- Of two items that do not share a position one comes after the key of the other. -/
theorem order_ne_eq_iff (view : IndexView) (request : QueryRequest) (a b : Item) :
    view.order a b ≠ .eq ↔ view.isAfter request (view.itemKey a) b = true ∨
      view.isAfter request (view.itemKey b) a = true := by
  rw [isAfter_itemKey, isAfter_itemKey, isAfter, isAfter, ← view.order_swap a b]
  cases request.forward <;> cases view.order a b <;> decide

end IndexView

/-- Which rows of a table share a position in an index. Whatever writes led to the table,
    two different rows that the index has share a position just if they are confused, and
    if they are not, then reading that resumes after one of them does not miss the other. -/
theorem order_eq_iff_confuses {pageSize : Nat} {writes : List Write} {name : String}
    {table : Table} (htable : (MemoryStore.afterWrites pageSize writes).table name = .ok table)
    {view : IndexView} (hview : view ∈ table.schema.views) :
    (table.items.filter view.keys.covers).Pairwise fun a b =>
      (view.order a b = .eq ↔ view.Confuses a b) ∧
      ∀ request : QueryRequest, ¬ view.Confuses a b ↔
        view.isAfter request (view.itemKey a) b = true ∨
        view.isAfter request (view.itemKey b) a = true := by
  have hdistinct := (MemoryStore.afterWrites_sound htable).distinct
  refine (hdistinct.filter view.keys.covers).imp fun {a b} hapart => ?_
  have hties : view.order a b = .eq ↔ view.Confuses a b := by
    rw [IndexView.order_eq_iff, IndexView.Confuses]
    refine (and_iff_left_of_imp fun hties => ?_).symm
    -- If no key attribute had values that only tie, the rows would have the same key.
    refine Classical.byContradiction fun hnone => hapart (Table.hasKey_iff.mpr fun attr hattr => ?_)
    rw [← TableSchema.table_of_mem_views hview] at hattr
    rw [Value.sameOptional_comm]
    exact (hties attr (List.mem_append_right _ hattr)).resolve_right
      fun hconfused => hnone ⟨attr, hattr, hconfused⟩
  refine ⟨hties, fun request => ?_⟩
  rw [← hties]
  exact view.order_ne_eq_iff request a b

/-- The films that have a year, of which two have the same one. -/
theorem order_eq_iff_confuses_films :
    (MemoryStore.afterWrites 2 filmWrites).table "films" = .ok filmTable ∧
    filmsByYear ∈ filmTable.schema.views ∧
    (filmTable.items.filter filmsByYear.keys.covers).Pairwise fun a b =>
      (filmsByYear.order a b = .eq ↔ filmsByYear.Confuses a b) ∧
      ∀ request : QueryRequest, ¬ filmsByYear.Confuses a b ↔
        filmsByYear.isAfter request (filmsByYear.itemKey a) b = true ∨
        filmsByYear.isAfter request (filmsByYear.itemKey b) a = true :=
  ⟨afterWrites_filmWrites, filmsByYear_mem_views,
    order_eq_iff_confuses afterWrites_filmWrites filmsByYear_mem_views⟩

/-- The table of the two marks as scans see it. -/
def marksById : IndexView := ⟨⟨"id", none⟩, ⟨"id", none⟩, .all⟩

/-- The two marks are different rows and share a position. Read one by one, the first is
    followed by nothing. -/
theorem twoMarks_share_position :
    (MemoryStore.afterWrites 1 twoMarks).table "marks" = .ok
      ⟨markSchema, [mark (.integer 1) "m", mark (.float (Binary64.ofNat 1)) "s"]⟩ ∧
    marksById ∈ markSchema.views ∧
    marksById.keys.covers (mark (.integer 1) "m") = true ∧
    marksById.keys.covers (mark (.float (Binary64.ofNat 1)) "s") = true ∧
    marksById.order (mark (.integer 1) "m") (mark (.float (Binary64.ofNat 1)) "s") = .eq ∧
    (MemoryStore.afterWrites 1 twoMarks).runQuery (marksWith (.integer 1)) =
      .ok ⟨[mark (.integer 1) "m"], some [("id", .integer 1)]⟩ ∧
    (MemoryStore.afterWrites 1 twoMarks).runQuery
        { marksWith (.integer 1) with startKey := some [("id", .integer 1)] } =
      .ok ⟨[], none⟩ :=
  ⟨rfl, List.mem_cons_self, rfl, rfl, rfl, rfl, rfl⟩

end WideColumn
