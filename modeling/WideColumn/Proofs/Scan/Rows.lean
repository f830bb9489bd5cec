import WideColumn.Proofs.Keyed
import WideColumn.Proofs.Scan.Sorting
import WideColumn.Proofs.Value.Place

/-!
# The Order of Rows

What a scan's order of rows is, where the keys of the rows can be ordered.

Rows are compared by the values under the attributes that place them: the sort
key of the index and then the keys of the table. `placeOrder` is the same
comparison on places, which is lawful for all items. `Orderable` is the
condition under which the two agree, so a scan's order has the laws wherever
the condition holds, and no statement below depends on which items are stored.

The two directions of a request are one order read from either end. `scanOrder`
takes the direction as an argument, and nothing after it distinguishes forward
from backward scans.

A key to resume after belongs to a row and has the values that place it, so
resuming after the key is resuming after the row.

## Main definitions

* `IndexView.orderAttrs`: The attributes that place a row.
* `IndexView.Orderable`: The values under these attributes can be ordered.
* `placeOrder`: The order of items by places.
* `IndexView.scanOrder`: The order of rows in the direction of a request.

## Theorems

* `order_swap`: The order of rows is oriented, whatever they contain.
* `order_eq_placeOrder`: Orderable rows are ordered by places.
* `isAfter_iff`: The rows after another one, by the order of places.
* `isAfter_itemKey`: Resuming after the key of a row is resuming after the row.
* `ordered_perm`, `mem_ordered`: Ordering keeps the rows.
* `ordered_pairwise`: The ordered rows are a chain.
* `scan_items_of_le`: What a page returns that all rows fit in.
-/

namespace WideColumn

open Value (NumberForm place Place)

/-- The order of items by the places of their values under some attributes. -/
def placeOrder : List String → Item → Item → Ordering
  | [], _, _ => .eq
  | attr :: rest, a, b =>
    ((place (a.get? attr)).order (place (b.get? attr))).then (placeOrder rest a b)

instance placeOrder_transCmp (attrs : List String) : Std.TransCmp (placeOrder attrs) := by
  induction attrs with
  | nil => exact { eq_swap := rfl, isLE_trans := fun _ _ => rfl }
  | cons attr rest ih =>
      have hplace : Std.TransCmp Place.order := inferInstance
      have hhead : Std.TransCmp fun a b : Item =>
          (place (a.get? attr)).order (place (b.get? attr)) :=
        { eq_swap := hplace.eq_swap, isLE_trans := hplace.isLE_trans }
      exact inferInstanceAs (Std.TransCmp (compareLex
        (fun a b : Item => (place (a.get? attr)).order (place (b.get? attr)))
        (placeOrder rest)))

theorem positionOrder_swap (xs ys : List (Option Value)) :
    (positionOrder xs ys).swap = positionOrder ys xs := by
  induction xs generalizing ys with
  | nil => cases ys <;> rfl
  | cons x xs ih =>
      cases ys with
      | nil => rfl
      | cons y ys => rw [positionOrder, positionOrder, Ordering.swap_then, Value.keyOrder_swap, ih]

namespace IndexView

/-- The attributes that place a row: the sort key of the index, and the keys of
    the table. -/
def orderAttrs (view : IndexView) : List String :=
  view.keys.sort.toList ++ view.table.attrs

/-- The values under each attribute that places rows can be ordered: none is a
    list or a map, and their numbers are all integers, or all doubles that are
    numbers. -/
def Orderable (view : IndexView) (items : List Item) : Prop :=
  ∀ attr ∈ view.orderAttrs, ∃ form : NumberForm,
    ∀ item ∈ items, ∀ v, item.get? attr = some v → v.Placeable form

theorem Orderable.mono {view : IndexView} {items more : List Item} (h : view.Orderable more)
    (hsub : ∀ item ∈ items, item ∈ more) : view.Orderable items := by
  intro attr hattr
  rcases h attr hattr with ⟨form, hform⟩
  exact ⟨form, fun item hitem => hform item (hsub item hitem)⟩

/-- The order of rows in a direction. -/
def scanOrder (view : IndexView) (forward : Bool) (a b : Item) : Ordering :=
  if forward then placeOrder view.orderAttrs a b else placeOrder view.orderAttrs b a

instance (view : IndexView) (forward : Bool) : Std.TransCmp (view.scanOrder forward) := by
  cases forward with
  | false => exact inferInstanceAs (Std.TransCmp fun a b => placeOrder view.orderAttrs b a)
  | true => exact inferInstanceAs (Std.TransCmp (placeOrder view.orderAttrs))

theorem scanOrder_asymm (view : IndexView) (forward : Bool) (a b : Item)
    (hab : view.scanOrder forward a b = .lt) : ¬ view.scanOrder forward b a = .lt := by
  rw [Std.OrientedCmp.gt_of_lt hab]
  simp only [reduceCtorEq, not_false_eq_true]

-- Two items compare by place wherever their values are placeable.
theorem positionOrder_eq_placeOrder {a b : Item} (attrs : List String)
    (hform : ∀ attr ∈ attrs, ∃ form : NumberForm,
      (∀ v, a.get? attr = some v → v.Placeable form) ∧
      (∀ v, b.get? attr = some v → v.Placeable form)) :
    positionOrder (attrs.map a.get?) (attrs.map b.get?) = placeOrder attrs a b := by
  induction attrs with
  | nil => rfl
  | cons attr rest ih =>
      rcases hform attr List.mem_cons_self with ⟨form, ha, hb⟩
      rw [List.map_cons, List.map_cons, positionOrder, placeOrder,
        Value.keyOrder_eq_order_place ha hb,
        ih fun other hother => hform other (List.mem_cons_of_mem attr hother)]

/-- The order of rows is oriented, whatever they contain. -/
theorem order_swap (view : IndexView) (a b : Item) : (view.order a b).swap = view.order b a :=
  positionOrder_swap _ _

-- The key of a row has the values that place it.
theorem position_itemKey (view : IndexView) (item : Item) :
    view.position (view.itemKey item) = view.position item := by
  refine List.map_congr_left fun attr hattr => ?_
  -- Every attribute that places a row is a key attribute, so restricting keeps it.
  have hkey : view.keyAttrs.contains attr = true := by
    rw [List.contains_iff_mem, keyAttrs, IndexKeys.attrs]
    rcases List.mem_append.mp hattr with hsort | htable
    · exact List.mem_append_left _ (List.mem_cons_of_mem _ hsort)
    · exact List.mem_append_right _ htable
  rw [itemKey, Keyed.get?_restrict, if_pos hkey]

/-- Resuming after the key of a row is resuming after the row. -/
theorem isAfter_itemKey (view : IndexView) (request : QueryRequest) (start row : Item) :
    view.isAfter request (view.itemKey start) row = view.isAfter request start row := by
  rw [isAfter, isAfter, order, order, position_itemKey]

theorem directed_perm (request : QueryRequest) (sorted : List Item) :
    (directed request sorted).Perm sorted := by
  unfold directed
  cases request.forward with
  | false => exact List.Perm.refl _
  | true => exact List.reverse_perm _

theorem ordered_perm (view : IndexView) (request : QueryRequest) (items : List Item) :
    (view.ordered request items).Perm (view.rows request items) :=
  (directed_perm request _).trans (descending_perm _ _)

theorem mem_ordered {view : IndexView} {request : QueryRequest} {items : List Item} {row : Item} :
    row ∈ view.ordered request items ↔ row ∈ items ∧ view.keys.covers row = true ∧
      request.key.toCondition.holds row = true := by
  rw [(view.ordered_perm request items).mem_iff, rows, List.mem_filter, Bool.and_eq_true]

theorem length_rows_le (view : IndexView) (request : QueryRequest) (items : List Item) :
    (view.rows request items).length ≤ items.length :=
  List.length_filter_le _ _

-- None of the rows that are left is new.
theorem after_sublist (view : IndexView) (request : QueryRequest) (rows : List Item) :
    (view.after request rows).Sublist rows := by
  unfold after
  cases request.startKey with
  | none => exact List.Sublist.refl rows
  | some start => exact List.filter_sublist

theorem length_remaining_le (view : IndexView) (request : QueryRequest) (items : List Item) :
    (view.remaining request items).length ≤ items.length :=
  calc (view.remaining request items).length ≤ (view.ordered request items).length :=
        (view.after_sublist request _).length_le
    _ = (view.rows request items).length := (view.ordered_perm request items).length_eq
    _ ≤ items.length := view.length_rows_le request items

/-- A page returns one item for each row that it evaluates and that satisfies the
    filter. -/
theorem filterMap_result? (view : IndexView) (request : QueryRequest) (rows : List Item) :
    rows.filterMap (view.result? request) =
      (rows.filter fun row => request.filter.all (·.holds row)).map (view.present request) := by
  induction rows with
  | nil => rfl
  | cons row rest ih =>
      by_cases h : request.filter.all (·.holds row) = true
      · rw [List.filter_cons, if_pos h, List.map_cons, ← ih]
        exact List.filterMap_cons_some (by rw [result?, if_pos h])
      · rw [List.filter_cons, if_neg h, ← ih]
        exact List.filterMap_cons_none (by rw [result?, if_neg h])

-- A page returns those of its rows that satisfy the filter, whatever their order.
theorem pageOf_items (view : IndexView) (request : QueryRequest) (limit : Nat)
    (rows : List Item) :
    (view.pageOf request limit rows).items =
      ((rows.take limit).filter fun row => request.filter.all (·.holds row)).map
        (view.present request) :=
  view.filterMap_result? request (rows.take limit)

/-- A page that all rows fit in returns all that satisfy the filter. -/
theorem scan_items_of_le (view : IndexView) (request : QueryRequest) {items : List Item}
    {limit : Nat} (h : items.length ≤ limit) :
    (view.scan request limit items).items =
      ((view.remaining request items).filter fun row => request.filter.all (·.holds row)).map
        (view.present request) := by
  rw [scan, pageOf_items,
    List.take_of_length_le (Nat.le_trans (view.length_remaining_le request items) h)]

section

variable {view : IndexView} {items : List Item} (hord : view.Orderable items)

include hord

/-- Orderable rows are ordered by places. -/
theorem order_eq_placeOrder {a b : Item} (ha : a ∈ items) (hb : b ∈ items) :
    view.order a b = placeOrder view.orderAttrs a b := by
  refine positionOrder_eq_placeOrder view.orderAttrs fun attr hattr => ?_
  rcases hord attr hattr with ⟨form, hform⟩
  exact ⟨form, hform a ha, hform b hb⟩

-- Items that tie are the same under every attribute that places them.
theorem sameOptional_of_placeOrder_eq {a b : Item} (ha : a ∈ items) (hb : b ∈ items)
    (h : placeOrder view.orderAttrs a b = .eq) (attr : String) (hattr : attr ∈ view.orderAttrs) :
    Value.sameOptional (a.get? attr) (b.get? attr) = true := by
  -- A tie is a tie in every attribute. The list is generalised for the induction.
  have htie : ∀ attrs : List String, placeOrder attrs a b = .eq → attr ∈ attrs →
      (place (a.get? attr)).order (place (b.get? attr)) = .eq := by
    intro attrs
    induction attrs with
    | nil => intro _ hmem; exact absurd hmem List.not_mem_nil
    | cons head rest ih =>
        intro heq hmem
        rw [placeOrder, Ordering.then_eq_eq] at heq
        rcases List.mem_cons.mp hmem with rfl | hrest
        · exact heq.1
        · exact ih heq.2 hrest
  rcases hord attr hattr with ⟨form, hform⟩
  refine Value.sameOptional_of_keyOrder_eq (hform a ha) (hform b hb) ?_
  rw [Value.keyOrder_eq_order_place (hform a ha) (hform b hb)]
  exact htie view.orderAttrs h hattr

/-- The rows after another one are those that follow it in the direction of the
    request. -/
theorem isAfter_iff (request : QueryRequest) {start row : Item} (hstart : start ∈ items)
    (hrow : row ∈ items) :
    view.isAfter request start row = true ↔ view.scanOrder request.forward start row = .lt := by
  rw [isAfter, scanOrder, order_eq_placeOrder hord hrow hstart, beq_iff_eq]
  cases request.forward with
  | false => rfl
  | true =>
      have hflip : placeOrder view.orderAttrs row start = .gt ↔
          placeOrder view.orderAttrs start row = .lt := Std.OrientedCmp.gt_iff_lt
      exact hflip

/-- The ordered rows are a chain, if no two stored items tie. -/
theorem ordered_pairwise (request : QueryRequest)
    (hapart : items.Pairwise fun a b => placeOrder view.orderAttrs a b ≠ .eq) :
    (view.ordered request items).Pairwise
      fun a b => view.scanOrder request.forward a b = .lt := by
  have hsub : ∀ row ∈ view.rows request items, row ∈ items := fun row hrow =>
    (List.mem_filter.mp hrow).1
  have hrows : (view.rows request items).Pairwise fun a b =>
      ((view.order b a == .lt) = true → placeOrder view.orderAttrs b a = .lt) ∧
      (¬ (view.order b a == .lt) = true → placeOrder view.orderAttrs a b = .lt) := by
    refine List.Pairwise.imp_of_mem ?_ (hapart.filter _)
    intro a b ha hb hne
    rw [order_eq_placeOrder hord (hsub b hb) (hsub a ha), beq_iff_eq]
    refine ⟨id, fun hnlt => ?_⟩
    cases hab : placeOrder view.orderAttrs a b with
    | lt => rfl
    | eq => exact absurd hab hne
    | gt => exact absurd (Std.OrientedCmp.gt_iff_lt.mp hab) hnlt
  have hsorted := descending_pairwise (R := fun a b => placeOrder view.orderAttrs b a = .lt)
    (fun a b => view.order a b == .lt) (fun _ _ _ hab hbc => Std.TransCmp.lt_trans hbc hab)
    (view.rows request items) hrows
  unfold ordered directed scanOrder
  cases request.forward with
  | false => exact hsorted
  | true => exact List.pairwise_reverse.mpr hsorted

end

end IndexView

end WideColumn
