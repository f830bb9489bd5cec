import WideColumn.Proofs.Scan.Rows

/-!
# What May Become of a Page

When the rows of a page are bound to be sorted, and what a page has where they are not.

The sort promises something only of an order that is a preorder, or of so few rows that
they are inserted one by one. `sortable` tests for that by ranks: it counts for every row
how many are below it, and compares the counts. This is not a guess at what the sort
does. The counts compare as the rows do just if the order is a preorder on them
(`ranked_iff_transCmp`), so the test fails only where the sort is released from its
promise. For the rows of an index it fails just if there are too many of them and three of
them break the order (`sortable_eq_false_iff`).

Where it fails a page may not come about at all. If one does, the sort has kept its rows,
so a page that all rows fit in has what it should have, in some order.

## Main definitions

* `IndexView.Unsortable`: There are too many rows, and three of them break the order.

## Theorems

* `rankIn_lt`: A row that is below another one has a smaller rank.
* `ranked_iff_transCmp`: Ranks compare as the rows do just if these have a preorder.
* `MaySort.perm`: Sorting keeps the rows, however it goes.
* `sortable_eq_false_iff`: When the sort is not bound to succeed.
* `mayScan_none_iff`: When a page may not come about.
* `mayScan_of_sortable`: What comes about otherwise.
-/

namespace WideColumn

section Ranks

variable {α : Type} {order : α → α → Ordering} {rows : List α}

theorem ranked_iff : ranked order rows = true ↔ ∀ a ∈ rows, ∀ b ∈ rows,
    order a b = compare (rankIn order rows a) (rankIn order rows b) := by
  simp only [ranked, List.all_eq_true, List.mem_map, forall_exists_index, and_imp,
    forall_apply_eq_imp_iff₂, beq_iff_eq]

section

variable (hlaws : Std.TransCmp fun a b : {row // row ∈ rows} => order a.1 b.1)

include hlaws

/-- A row that is below another one has a smaller rank: what is below the row is below the
    other one, and so is the row itself. -/
theorem rankIn_lt {a b : α} (ha : a ∈ rows) (hb : b ∈ rows) (h : order a b = .lt) :
    rankIn order rows a < rankIn order rows b := by
  have hbelow : rows.filter (fun other => order other a == .lt) =
      (rows.filter fun other => order other b == .lt).filter fun other => order other a == .lt := by
    rw [List.filter_filter]
    refine List.filter_congr fun other hother => ?_
    rw [Bool.eq_iff_iff, Bool.and_eq_true, beq_iff_eq, beq_iff_eq]
    refine (and_iff_left_of_imp fun hlt => ?_).symm
    exact hlaws.lt_trans (a := ⟨other, hother⟩) (b := ⟨a, ha⟩) (c := ⟨b, hb⟩) hlt h
  have hrefl : Std.ReflCmp fun a b : {row // row ∈ rows} => order a.1 b.1 := inferInstance
  have hself : order a a = .eq := hrefl.compare_self (a := ⟨a, ha⟩)
  rw [rankIn, rankIn, List.countP_eq_length_filter, List.countP_eq_length_filter, hbelow,
    List.length_filter_lt_length_iff_exists]
  refine ⟨a, List.mem_filter.mpr ⟨ha, beq_iff_eq.mpr h⟩, ?_⟩
  rw [hself]
  exact Bool.false_ne_true

-- Rows that tie have the same rows below them.
theorem rankIn_eq {a b : α} (ha : a ∈ rows) (hb : b ∈ rows) (h : order a b = .eq) :
    rankIn order rows a = rankIn order rows b := by
  refine List.countP_congr fun other hother => ?_
  rw [beq_iff_eq, beq_iff_eq]
  have hcongr : order other a = order other b :=
    hlaws.congr_right (a := ⟨other, hother⟩) (b := ⟨a, ha⟩) (c := ⟨b, hb⟩) h
  rw [hcongr]

end

/-- The ranks of rows compare as the rows do just if the order is a preorder on them. -/
theorem ranked_iff_transCmp : ranked order rows = true ↔
    Std.TransCmp fun a b : {row // row ∈ rows} => order a.1 b.1 := by
  rw [ranked_iff]
  constructor
  · intro h
    have hranks : ∀ a b : {row // row ∈ rows},
        order a.1 b.1 = compare (rankIn order rows a.1) (rankIn order rows b.1) :=
      fun a b => h a.1 a.2 b.1 b.2
    refine { eq_swap := fun {a b} => ?_, isLE_trans := fun {a b c} hab hbc => ?_ }
    · rw [hranks a b, hranks b a]
      exact Std.OrientedCmp.eq_swap
    · rw [hranks] at hab hbc ⊢
      exact Std.TransCmp.isLE_trans hab hbc
  · intro hlaws a ha b hb
    cases hab : order a b with
    | lt => exact (Nat.compare_eq_lt.mpr (rankIn_lt hlaws ha hb hab)).symm
    | eq => exact (Nat.compare_eq_eq.mpr (rankIn_eq hlaws ha hb hab)).symm
    | gt =>
        have hba : order b a = .lt := hlaws.lt_of_gt (a := ⟨a, ha⟩) (b := ⟨b, hb⟩) hab
        exact (Nat.compare_eq_gt.mpr (rankIn_lt hlaws hb ha hba)).symm

theorem sortable_iff : sortable order rows = true ↔ rows.length ≤ insertedRows ∨
    Std.TransCmp fun a b : {row // row ∈ rows} => order a.1 b.1 := by
  rw [sortable, Bool.or_eq_true, decide_eq_true_eq, ranked_iff_transCmp]

/-- Sorting keeps the rows, however it goes. -/
theorem MaySort.perm {sorted : List α} (h : MaySort order rows (some sorted)) :
    sorted.Perm rows := by
  cases h with
  | sorted => exact descending_perm _ rows
  | unordered _ hperm => exact hperm

theorem maySort_none_iff : MaySort order rows none ↔ sortable order rows = false :=
  ⟨fun h => by cases h with | panicked hunsorted => exact hunsorted, .panicked⟩

-- A sort that is bound to succeed has one outcome.
theorem MaySort.eq_of_sortable {sorted : Option (List α)} (h : MaySort order rows sorted)
    (hsortable : sortable order rows = true) :
    sorted = some (descending (fun a b => order a b == .lt) rows) := by
  cases h with
  | sorted => rfl
  | unordered hunsorted | panicked hunsorted =>
      rw [hsortable] at hunsorted
      exact absurd hunsorted.symm Bool.false_ne_true

end Ranks

namespace IndexView

/-- There are more rows than are sorted by insertion, and three of them break the order:
    none is above the next one, and the first is above the last. -/
structure Unsortable (view : IndexView) (request : QueryRequest) (items : List Item) : Prop where
  many : insertedRows < (view.rows request items).length
  broken : ∃ a ∈ view.rows request items, ∃ b ∈ view.rows request items,
    ∃ c ∈ view.rows request items,
      view.order a b ≠ .gt ∧ view.order b c ≠ .gt ∧ view.order a c = .gt

section

variable {view : IndexView} {request : QueryRequest} {limit : Nat} {items : List Item}

-- The order of rows is oriented, so it is a preorder on rows no three of which break it.
theorem transCmp_iff {rows : List Item} :
    (Std.TransCmp fun a b : {row // row ∈ rows} => view.order a.1 b.1) ↔
      ¬ ∃ a ∈ rows, ∃ b ∈ rows, ∃ c ∈ rows,
        view.order a b ≠ .gt ∧ view.order b c ≠ .gt ∧ view.order a c = .gt := by
  constructor
  · rintro hlaws ⟨a, ha, b, hb, c, hc, hab, hbc, hac⟩
    refine Ordering.isLE_iff_ne_gt.mp ?_ hac
    exact hlaws.isLE_trans (a := ⟨a, ha⟩) (b := ⟨b, hb⟩) (c := ⟨c, hc⟩)
      (Ordering.isLE_iff_ne_gt.mpr hab) (Ordering.isLE_iff_ne_gt.mpr hbc)
  · intro hnone
    refine { eq_swap := fun {a b} => (view.order_swap b.1 a.1).symm, isLE_trans := ?_ }
    intro a b c hab hbc
    rw [Ordering.isLE_iff_ne_gt] at hab hbc ⊢
    exact fun hac => hnone ⟨a.1, a.2, b.1, b.2, c.1, c.2, hab, hbc, hac⟩

/-- When the sort of the rows is not bound to succeed. -/
theorem sortable_eq_false_iff :
    view.sortable request items = false ↔ view.Unsortable request items := by
  rw [← Bool.not_eq_true, sortable, sortable_iff, transCmp_iff, not_or, Nat.not_le,
    Classical.not_not]
  exact ⟨fun ⟨hmany, hbroken⟩ => ⟨hmany, hbroken⟩, fun h => ⟨h.many, h.broken⟩⟩

-- Few rows are bound to be sorted.
theorem sortable_of_length_le (h : (view.rows request items).length ≤ insertedRows) :
    view.sortable request items = true :=
  sortable_iff.mpr (Or.inl h)

/-- One thing that may become of a page is the scan. -/
theorem mayScan_scan : view.MayScan request limit items (some (view.scan request limit items)) :=
  ⟨_, .sorted, rfl⟩

/-- A page may not come about just if the sort is not bound to succeed. -/
theorem mayScan_none_iff :
    view.MayScan request limit items none ↔ view.Unsortable request items := by
  rw [← sortable_eq_false_iff, sortable, ← maySort_none_iff]
  refine ⟨?_, fun h => ⟨none, h, rfl⟩⟩
  rintro ⟨sorted, hsort, hnone⟩
  rw [eq_comm, Option.map_eq_none_iff] at hnone
  exact hnone ▸ hsort

/-- A page that comes about is one of the rows that the request selects, in some order. -/
theorem MayScan.exists_perm {page : Page} (h : view.MayScan request limit items (some page)) :
    ∃ rows, rows.Perm (view.rows request items) ∧
      page = view.pageOf request limit (view.after request rows) := by
  rcases h with ⟨sorted, hsort, hpage⟩
  rcases Option.map_eq_some_iff.mp hpage.symm with ⟨rows, rfl, hrows⟩
  exact ⟨_, (directed_perm request rows).trans hsort.perm, hrows.symm⟩

-- So whatever page comes about, it returns stored items as the request presents them.
theorem MayScan.items_eq_map {page : Page} (h : view.MayScan request limit items (some page)) :
    ∃ rows : List Item, (∀ row ∈ rows, row ∈ items) ∧
      page.items = rows.map (view.present request) := by
  rcases h.exists_perm with ⟨rows, hrows, rfl⟩
  refine ⟨_, fun row hrow => ?_, view.pageOf_items request limit _⟩
  have hleft := List.mem_of_mem_take (List.mem_filter.mp hrow).1
  have hselected := hrows.mem_iff.mp ((view.after_sublist request rows).mem hleft)
  exact (List.mem_filter.mp hselected).1

/-- If the sort is bound to succeed, what becomes of a page is the scan. -/
theorem mayScan_of_sortable {outcome : Option Page}
    (h : view.MayScan request limit items outcome)
    (hsortable : view.sortable request items = true) :
    outcome = some (view.scan request limit items) := by
  rcases h with ⟨sorted, hsort, rfl⟩
  rw [hsort.eq_of_sortable hsortable]
  rfl

/-- Orderable rows are bound to be sorted. -/
theorem sortable_of_orderable (hord : view.Orderable items) (request : QueryRequest) :
    view.sortable request items = true := by
  refine sortable_iff.mpr (Or.inr ?_)
  have hplaces := placeOrder_transCmp view.orderAttrs
  have horder : ∀ a b : {row // row ∈ view.rows request items},
      view.order a.1 b.1 = placeOrder view.orderAttrs a.1 b.1 := fun a b =>
    order_eq_placeOrder hord (List.mem_filter.mp a.2).1 (List.mem_filter.mp b.2).1
  simp only [horder]
  exact { eq_swap := hplaces.eq_swap, isLE_trans := hplaces.isLE_trans }

end

end IndexView

end WideColumn
