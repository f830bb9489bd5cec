import WideColumn.Proofs.Cursor.Draining
import WideColumn.Proofs.Planning.Execution

/-!
# The Order of What a Cursor Gives

An order that is asked for is kept across all pages.

Nobody orders what a cursor gives. The planner looks for an index that has the attribute of
the order as its sort key, the request carries a direction, and the store sorts the rows of
each page by the sort key and then by the key of the table. A cursor only puts the pages one
behind the other, with a limit for each that the caller may change at any time. So the order
is a fact about all four, and a page that began one row too early or too late would show in
it.

`Cursor.InOrder` is what holds at any time between two calls. The items that were given away
and those in hand are what the first rows come to, and the next page is taken from the rows
behind these. One page moves rows from the one part to the other, and how many it moves does
not matter. That the rows are a chain comes last, and from the scan alone.

## Main definitions

* `IndexKeys.Precedes`: The order by an attribute and then by a key.
* `IndexView.selected`: The rows that a request returns, in no order.
* `Cursor.InOrder`: What holds of a cursor at any time.

## Theorems

* `ordered_precedes`: The ordered rows follow each other by the sort key.
* `InOrder.give`, `InOrder.receive`: Giving an item away and receiving a page.
* `pull_inOrder`, `run_inOrder`: What a pull keeps, and what all calls keep.
* `InOrder.given`: The items given away are those of the first rows.
* `orderable_of_placeable`: Rows can be ordered if the values they are ordered by can.
* `plan_ordered`: What a plan makes of an order.
* `run_precedes`: A cursor gives the rows in the order that was asked for.
-/

namespace WideColumn

/-- `a` stands before `b` by the values under an attribute, or, where these tie, by the key. -/
def IndexKeys.Precedes (keys : IndexKeys) (attr : String) (a b : Item) : Prop :=
  Value.keyOrder (a.get? attr) (b.get? attr) = .lt ∨
    Value.keyOrder (a.get? attr) (b.get? attr) = .eq ∧
      positionOrder (keys.attrs.map a.get?) (keys.attrs.map b.get?) = .lt

namespace IndexView

/-- The rows that a request returns on all its pages together, in the order of the table. -/
def selected (view : IndexView) (request : QueryRequest) (items : List Item) : List Item :=
  (view.rows request items).filter fun row => request.filter.all (·.holds row)

-- Rows are placed by the sort key of the index and then by the key of the table.
theorem order_eq_lt_iff {view : IndexView} {attr : String} (hsort : view.keys.sort = some attr)
    (a b : Item) : view.order a b = .lt ↔ view.table.Precedes attr a b := by
  have hposition : ∀ item : Item, view.position item =
      item.get? attr :: view.table.attrs.map item.get? := fun item => by
    rw [position, hsort, Option.toList_some, List.singleton_append, List.map_cons]
  rw [order, hposition, hposition, positionOrder, Ordering.then_eq_lt, IndexKeys.Precedes]

/-- The rows follow each other by the sort key, in the direction of the request. -/
theorem ordered_precedes {view : IndexView} {items : List Item} (hord : view.Orderable items)
    (hapart : items.Pairwise fun a b => placeOrder view.orderAttrs a b ≠ .eq) {attr : String}
    (hsort : view.keys.sort = some attr) (request : QueryRequest) :
    (view.ordered request items).Pairwise fun a b =>
      if request.forward then view.table.Precedes attr a b else view.table.Precedes attr b a := by
  have hchain := ordered_pairwise hord request hapart
  refine List.Pairwise.imp_of_mem (fun {a b} ha hb hab => ?_) hchain
  have hain := (mem_ordered.mp ha).1
  have hbin := (mem_ordered.mp hb).1
  unfold scanOrder at hab
  by_cases hforward : request.forward = true
  · rw [if_pos hforward, ← order_eq_placeOrder hord hain hbin, order_eq_lt_iff hsort] at hab
    rw [if_pos hforward]
    exact hab
  · rw [if_neg hforward, ← order_eq_placeOrder hord hbin hain, order_eq_lt_iff hsort] at hab
    rw [if_neg hforward]
    exact hab

end IndexView

namespace Cursor

/-- What holds of a cursor at any time, given the items that were given away and the state of
    its source. These items and the ones in hand are what some first rows of the query come
    to, and either there are no more rows or the next page begins behind these. -/
structure InOrder (view : IndexView) (request : QueryRequest) (items : List Item)
    (store : MemoryStore) (consumed : List Item) (c : Cursor) (s : MemoryStore × List Exchange) :
    Prop where
  limit_ne : c.limit ≠ some 0
  keeps : ∀ kept, c.request = some kept → kept.unpaged = request.unpaged
  state_eq : s.1 = store.counted c.pagesFetched
  reached : ∃ n,
    consumed ++ c.page.drop c.position =
      ((view.ordered request items).take n).filterMap (view.result? request) ∧
    (c.allItemsParsed = true → (view.ordered request items).length ≤ n) ∧
    (¬ c.allItemsParsed = true → view.remaining { request with startKey := c.startKey } items =
      (view.ordered request items).drop n)

section

variable {view : IndexView} {request : QueryRequest} {items : List Item} {store : MemoryStore}
  {consumed : List Item} {c : Cursor} {s : MemoryStore × List Exchange}

-- An item that is given away moves from the page to the caller.
theorem InOrder.give (h : c.InOrder view request items store consumed s) {item : Item}
    (hitem : c.page[c.position]? = some item) :
    InOrder view request items store (consumed ++ [item]) { c with position := c.position + 1 }
      s := by
  rcases List.getElem?_eq_some_iff.mp hitem with ⟨hlt, hget⟩
  rcases h.reached with ⟨n, hgiven, hend, hnext⟩
  refine ⟨h.limit_ne, h.keeps, h.state_eq, n, ?_, hend, hnext⟩
  rw [← hgiven, List.drop_eq_getElem_cons hlt, hget, List.append_assoc]
  rfl

section

variable (hord : view.Orderable items)
  (hapart : items.Pairwise fun a b => placeOrder view.orderAttrs a b ≠ .eq)

include hord hapart

-- A page that is received has what the rows behind those before come to.
theorem InOrder.receive (h : c.InOrder view request items store consumed s)
    (hdone : c.page[c.position]? = none) (hmore : ¬ c.allItemsParsed = true) {size : Nat}
    (hsize : 1 ≤ size) (exchanges : List Exchange) :
    (c.receive (c.fetchRequest request)
        (view.scan { request with startKey := c.startKey } size items)).InOrder view request items
      store consumed (store.counted (c.pagesFetched + 1), exchanges) := by
  rcases h.reached with ⟨n, hgiven, _, hnext⟩
  have hstart := hnext hmore
  have hempty : c.page.drop c.position = [] :=
    List.drop_eq_nil_of_le (List.getElem?_eq_none_iff.mp hdone)
  rw [hempty, List.append_nil] at hgiven
  have hkept := view.resumeKey_lastKey { request with startKey := c.startKey } hsize items
  have hscan : (view.scan { request with startKey := c.startKey } size items).items =
      (((view.ordered request items).drop n).take size).filterMap (view.result? request) := by
    rw [← hstart]
    rfl
  refine ⟨h.limit_ne, fun kept hrequest => ?_, rfl, n + size, ?_, ?_⟩
  · rw [← Option.some.inj hrequest]
    rfl
  · -- The rows of the page stand behind those that were taken before.
    have hpage : (c.receive (c.fetchRequest request)
        (view.scan { request with startKey := c.startKey } size items)).page.drop 0 =
        (((view.ordered request items).drop n).take size).filterMap (view.result? request) := hscan
    rw [hgiven, List.take_add, List.filterMap_append, ← hpage]
    rfl
  · have hparsed : (c.receive (c.fetchRequest request)
        (view.scan { request with startKey := c.startKey } size items)).allItemsParsed =
        (view.scan { request with startKey := c.startKey } size items).lastKey.isNone := by
      rw [← hkept]
      exact Bool.true_and _
    have hkey : (c.receive (c.fetchRequest request)
        (view.scan { request with startKey := c.startKey } size items)).startKey =
        (view.scan { request with startKey := c.startKey } size items).lastKey := hkept
    rw [hparsed, hkey]
    rcases IndexView.page_step hord hapart request hsize hstart with
      ⟨_, key, hlast, hrest⟩ | ⟨hle, hlast⟩
    · rw [hlast]
      exact ⟨fun hnone => absurd hnone Bool.false_ne_true, fun _ => hrest⟩
    · rw [hlast]
      rw [List.length_drop] at hle
      exact ⟨fun _ => by omega, fun hsome => absurd rfl hsome⟩

variable (hsteady : store.Steady request)
  (hanswer : ∀ limit start, limit ≠ some 0 →
    store.runQuery { request with limit := limit, startKey := start } =
      .ok (view.scan { request with startKey := start } (pageRows limit store.pageSize) items))

include hsteady hanswer

/-- A pull keeps what holds of a cursor, with one more item given away if it gives one. -/
theorem pull_inOrder (h : c.InOrder view request items store consumed s) (deadline : Option Nat)
    (most : Nat) :
    (c.pull ((MemoryStore.source request).fetch deadline) most s).1.2.InOrder view request items
      store (consumed ++
        (c.pull ((MemoryStore.source request).fetch deadline) most s).1.1.item?.toList)
      (c.pull ((MemoryStore.source request).fetch deadline) most s).2 := by
  have hnothing : ∀ {c : Cursor} {s : MemoryStore × List Exchange},
      c.InOrder view request items store consumed s →
        c.InOrder view request items store (consumed ++ (none : Option Item).toList) s := by
    intro c s h
    rw [Option.toList_none, List.append_nil]
    exact h
  -- A fetch succeeds, and brings the page that the key and the limit of the cursor ask for.
  have hfetch : ∀ {c : Cursor} {s : MemoryStore × List Exchange},
      c.InOrder view request items store consumed s →
      (MemoryStore.source request).fetch deadline c s = (.ok (c.fetchRequest request,
        view.scan { request with startKey := c.startKey } (pageRows c.limit store.pageSize) items),
        (store.counted (c.pagesFetched + 1), s.2 ++ [⟨c.fetchRequest request, .ok (view.scan
          { request with startKey := c.startKey } (pageRows c.limit store.pageSize) items)⟩])) := by
    intro c s h
    have hpage := source_fetch hsteady h.keeps (hanswer c.limit c.startKey h.limit_ne)
      (n := c.pagesFetched) deadline s.2
    rw [← h.state_eq] at hpage
    exact hpage
  refine pull_induction (P := fun _ c s => c.InOrder view request items store consumed s)
    (Q := fun given c s =>
      c.InOrder view request items store (consumed ++ given.item?.toList) s)
    ?_ ?_ ?_ ?_ ?_ most c s h
  · exact fun _ _ _ _ h hitem => h.give hitem
  · exact fun _ _ _ _ h _ _ => hnothing h
  · exact fun _ _ h _ => hnothing h
  · intro _ c s e after h _ hfailed
    rw [hfetch h, Prod.mk.injEq] at hfailed
    exact absurd hfailed.1 (by simp only [reduceCtorEq, not_false_eq_true])
  · intro _ c s asked page after h hdone hneeds hbrought
    have hsize := pageRows_pos h.limit_ne store.pageSize_pos
    rw [hfetch h, Prod.mk.injEq, Except.ok.injEq, Prod.mk.injEq] at hbrought
    rcases hbrought with ⟨⟨rfl, rfl⟩, rfl⟩
    exact h.receive hord hapart hdone (next_eq_needsPage hneeds).2.1 hsize _

end

-- A cursor is exhausted when no row is left and no item is in hand.
theorem state_eq_exhausted {c : Cursor} (h : c.state = .exhausted) :
    c.page.drop c.position = [] ∧ c.allItemsParsed = true := by
  unfold state at h
  by_cases hfilled : c.position < c.page.length
  · rw [if_pos hfilled] at h
    exact absurd h (by simp only [reduceCtorEq, not_false_eq_true])
  · rw [if_neg hfilled] at h
    by_cases hparsed : c.allItemsParsed = true
    · exact ⟨List.drop_eq_nil_of_le (Nat.le_of_not_lt hfilled), hparsed⟩
    · rw [if_neg hparsed] at h
      split at h
      · exact absurd h (by simp only [reduceCtorEq, not_false_eq_true])
      · split at h <;> exact absurd h (by simp only [reduceCtorEq, not_false_eq_true])

/-- The items that were given away are what the first of the selected rows come to, and once
    the cursor is exhausted these are all of them. -/
theorem InOrder.given (h : c.InOrder view request items store consumed s) :
    ∃ rows rest, consumed = rows.map (view.present request) ∧
      rows ++ rest = (view.ordered request items).filter
        (fun row => request.filter.all (·.holds row)) ∧
      (c.state = .exhausted → rest = []) := by
  rcases h.reached with ⟨n, hgiven, hend, _⟩
  rw [IndexView.filterMap_result?] at hgiven
  let passes : Item → Bool := fun row => request.filter.all (·.holds row)
  let ordered := view.ordered request items
  let reached := (ordered.take n).filter passes
  -- The rows are the first of those that were reached, as many as items were given.
  refine ⟨reached.take consumed.length,
    reached.drop consumed.length ++ (ordered.drop n).filter passes, ?_, ?_, fun hstate => ?_⟩
  · rw [List.map_take, ← hgiven, List.take_left']
    rfl
  · rw [← List.append_assoc, List.take_append_drop, ← List.filter_append, List.take_append_drop]
  · rcases state_eq_exhausted hstate with ⟨hempty, hparsed⟩
    have hall : ordered.length ≤ n := hend hparsed
    have hlength : reached.length ≤ consumed.length := by
      have hcounts := congrArg List.length hgiven
      rw [hempty, List.append_nil, List.length_map] at hcounts
      exact Nat.le_of_eq hcounts.symm
    rw [List.drop_eq_nil_of_le hlength, List.drop_eq_nil_of_le hall]
    rfl

end

end Cursor

namespace Delivery

variable {α : Type}

section

variable {view : IndexView} {request : QueryRequest} {items : List Item} {store : MemoryStore}
  (hord : view.Orderable items)
  (hapart : items.Pairwise fun a b => placeOrder view.orderAttrs a b ≠ .eq)
  (hsteady : store.Steady request)
  (hanswer : ∀ limit start, limit ≠ some 0 →
    store.runQuery { request with limit := limit, startKey := start } =
      .ok (view.scan { request with startKey := start } (pageRows limit store.pageSize) items))
  (decode : Item → Except CodecError α)

include hord hapart hsteady hanswer

-- Every call keeps what holds of a cursor, unless it sets the limit to zero.
theorem step_inOrder {d : Delivery MemoryStore α}
    (h : d.cursor.InOrder view request items store d.consumed (d.state, d.exchanges))
    {call : CursorCall} (hcall : call ≠ .setLimit (some 0)) :
    (d.step (MemoryStore.source request) decode call).cursor.InOrder view request items store
      (d.step (MemoryStore.source request) decode call).consumed
      ((d.step (MemoryStore.source request) decode call).state,
        (d.step (MemoryStore.source request) decode call).exchanges) := by
  cases call with
  | pull deadline most =>
      have hpull := Cursor.pull_inOrder hord hapart hsteady hanswer h deadline most
      rw [step]
      generalize d.cursor.pull ((MemoryStore.source request).fetch deadline) most
        (d.state, d.exchanges) = pulled at hpull ⊢
      rcases pulled with ⟨⟨given, cursor⟩, state, exchanges⟩
      have hconsumed : d.consumed ++ given.item?.toList = (d.handed ++
          [(⟨given.item?, given.record decode⟩ : Handed α)]).filterMap (·.item) := by
        rw [List.filterMap_append, consumed]
        cases given.item? <;> rfl
      rw [consumed, ← hconsumed]
      exact hpull
  | setMaxPages n => exact ⟨h.limit_ne, h.keeps, h.state_eq, h.reached⟩
  | setLimit n => exact ⟨fun hzero => hcall (congrArg _ hzero), h.keeps, h.state_eq, h.reached⟩

/-- So do all calls from a cursor that has fetched nothing. -/
theorem run_inOrder {calls : List CursorCall} (hcalls : ∀ call ∈ calls, call ≠ .setLimit (some 0)) :
    (run (MemoryStore.source request) decode none store calls).cursor.InOrder view request items
      store (run (MemoryStore.source request) decode none store calls).consumed
      ((run (MemoryStore.source request) decode none store calls).state,
        (run (MemoryStore.source request) decode none store calls).exchanges) := by
  -- The run lemma: the delivery is generalised over what the calls before have left.
  have hrun : ∀ (rest : List CursorCall) (d : Delivery MemoryStore α),
      (∀ call ∈ rest, call ≠ .setLimit (some 0)) →
      d.cursor.InOrder view request items store d.consumed (d.state, d.exchanges) →
      (rest.foldl (step (MemoryStore.source request) decode) d).cursor.InOrder view request items
        store (rest.foldl (step (MemoryStore.source request) decode) d).consumed
        ((rest.foldl (step (MemoryStore.source request) decode) d).state,
          (rest.foldl (step (MemoryStore.source request) decode) d).exchanges) := by
    intro rest
    induction rest with
    | nil => exact fun _ _ h => h
    | cons call rest ih =>
        intro d hrest h
        exact ih _ (fun other hother => hrest other (List.mem_cons_of_mem call hother))
          (step_inOrder hord hapart hsteady hanswer decode h (hrest call List.mem_cons_self))
  have hfresh : ¬ Cursor.fresh.allItemsParsed = true := Bool.false_ne_true
  have hstart : Cursor.fresh.InOrder view request items store [] (store, []) := by
    refine ⟨by simp only [Cursor.fresh, ne_eq, reduceCtorEq, not_false_eq_true],
      fun kept hkept => absurd hkept (by simp only [Cursor.fresh, reduceCtorEq,
        not_false_eq_true]), rfl, 0, rfl, fun h => absurd h hfresh, fun _ => rfl⟩
  exact hrun calls (start none store) hcalls hstart

end

end Delivery

/-- What a plan makes of an order: the index that it asks has the attribute as its sort key,
    and the request goes in the direction of the order. -/
theorem IndexCatalog.plan_ordered {schema : TableSchema} {items : List Item} {threshold : Binary64}
    {catalog : IndexCatalog}
    (hbuild : IndexCatalog.build (schema.describe items) threshold = .ok catalog)
    {e : Expression} {order : OrderBy} (horder : e.order = some order) {name : String}
    {planned : QueryPlan} (hplan : catalog.plan name e = .ok planned) {table : Table}
    (htable : table.schema = schema) :
    ∃ view, table.view planned.request = .ok view ∧ view.keys.sort = some order.attr ∧
      planned.request.forward = order.ascending ∧ planned.request.table = name := by
  rcases plan_asks hplan with ⟨hindex, hinfractions, hasked, hname, hconsistent⟩
  have hviable := viable_iff.mp hinfractions
  have hsort := hviable.order order horder
  rcases hviable.partition with ⟨value, hvalue⟩
  have hforward : planned.request.forward = order.ascending := by
    have hrequest := (plan_eq_ok hplan).2
    rw [compile_eq_ok name hvalue, Except.ok.injEq] at hrequest
    rw [← hrequest, horder, Option.all_some]
  rcases catalogued_view hbuild hindex hname hconsistent htable with
    ⟨_, hprimary, hview⟩ | ⟨s, _, _, _, _, heq, hview⟩
  · -- The primary index has the keys of the table.
    have hkeys : planned.index.keys = schema.keys := by
      rw [primary?, (build_describe hbuild).1, List.head?_cons, Option.some.injEq] at hprimary
      rw [← hprimary]
      rfl
    exact ⟨_, hview, hkeys ▸ hsort, hforward, hasked⟩
  · rw [heq] at hsort
    exact ⟨_, hview, hsort, hforward, hasked⟩

/-- Rows can be ordered if the values can under the sort key and the key of the table. -/
theorem IndexView.orderable_of_placeable {view : IndexView} {attr : String} {items : List Item}
    (hsort : view.keys.sort = some attr)
    (hplaceable : ∀ other ∈ attr :: view.table.attrs, ∃ form : Value.NumberForm,
      ∀ item ∈ items, ∀ v, item.get? other = some v → v.Placeable form) :
    view.Orderable items := by
  rw [Orderable, orderAttrs, hsort]
  exact hplaceable

/-- A cursor gives the rows in the order that was asked for. Planned with an order over the
    report on a table, whatever items it held at the time, and used in any way and under any
    limits but zero on the table as it is, a cursor has given the first of the rows that the
    request selects. All of them have the attribute of the order, and from each to each later
    one, on the same page or not, its values rise or fall as they are to, and where they tie
    the key of the table does. Once the cursor is exhausted it has given all rows. -/
theorem Delivery.run_precedes {pageSize : Nat} {writes : List Write} {name : String}
    {table : Table} (htable : (MemoryStore.afterWrites pageSize writes).table name = .ok table)
    {described : List Item} {threshold : Binary64} {catalog : IndexCatalog}
    (hbuild : IndexCatalog.build (table.schema.describe described) threshold = .ok catalog)
    {e : Expression} {order : OrderBy} (horder : e.order = some order) {planned : QueryPlan}
    (hplan : catalog.plan name e = .ok planned)
    (hplaceable : ∀ attr ∈ order.attr :: table.schema.keys.attrs, ∃ form : Value.NumberForm,
      ∀ item ∈ table.items, ∀ v, item.get? attr = some v → v.Placeable form)
    {α : Type} (decode : Item → Except CodecError α) {calls : List CursorCall}
    (hcalls : ∀ call ∈ calls, call ≠ .setLimit (some 0)) :
    let used := run (MemoryStore.source planned.request) decode none
      (MemoryStore.afterWrites pageSize writes) calls
    ∃ view rows rest, table.view planned.request = .ok view ∧
      used.consumed = rows.map (view.present planned.request) ∧
      (rows ++ rest).Perm (view.selected planned.request table.items) ∧
      (∀ row ∈ rows ++ rest, row.contains order.attr = true) ∧
      ((rows ++ rest).Pairwise fun a b =>
        if order.ascending then table.schema.keys.Precedes order.attr a b
        else table.schema.keys.Precedes order.attr b a) ∧
      (used.cursor.state = .exhausted → rest = []) := by
  intro used
  rcases IndexCatalog.plan_ordered hbuild horder hplan rfl with
    ⟨view, hview, hsort, hforward, hname⟩
  have hkeys := Table.table_of_view hview
  have hord : view.Orderable table.items := IndexView.orderable_of_placeable hsort (by
    rw [hkeys]
    exact hplaceable)
  have hapart := IndexView.placeOrder_ne_of_sound (MemoryStore.afterWrites_sound htable) hkeys hord
    fun _ hitem => hitem
  rw [← hname] at htable
  have hanswer : ∀ limit start, limit ≠ some 0 →
      (MemoryStore.afterWrites pageSize writes).runQuery
        { planned.request with limit := limit, startKey := start } =
      .ok (view.scan { planned.request with startKey := start }
        (pageRows limit (MemoryStore.afterWrites pageSize writes).pageSize) table.items) :=
    fun limit start hlimit => MemoryStore.runQuery_eq_ok htable hview hlimit
  have hsteady := MemoryStore.afterWrites_steady htable hview
    (IndexView.sortable_of_orderable hord planned.request)
  have hused := run_inOrder hord hapart hsteady hanswer decode hcalls
  rcases hused.given with ⟨rows, rest, hgiven, hrows, hall⟩
  refine ⟨view, rows, rest, hview, hgiven, ?_, ?_, ?_, hall⟩
  · rw [hrows]
    exact (view.ordered_perm planned.request table.items).filter _
  · rw [hrows]
    intro row hrow
    have hcovers := (IndexView.mem_ordered.mp (List.mem_filter.mp hrow).1).2.1
    refine IndexKeys.covers_iff.mp hcovers order.attr ?_
    rw [IndexKeys.attrs, hsort]
    exact List.mem_cons_of_mem _ List.mem_cons_self
  · have hprecedes := IndexView.ordered_precedes hord hapart hsort planned.request
    rw [hforward, hkeys] at hprecedes
    rw [hrows]
    exact hprecedes.filter _

/-- The titles of a director, latest first. -/
def latestTitles : List Expression.Call :=
  [.filter "director" (.equal (.string "a")), .orderBy "year" false, .select ["title"]]

/-- Pulls on pages of one film and then of two, until the films are exhausted. -/
def titlePulls : List CursorCall :=
  [.setLimit (some 1), .pull none 1, .setLimit (some 2), .pull none 1, .pull none 1, .pull none 1]

/-- The titles come latest first, and those of one year by the key. -/
theorem Delivery.run_precedes_latestTitles :
    (MemoryStore.afterWrites 2 filmWrites).table "films" = .ok filmTable ∧
    IndexCatalog.build (filmTable.schema.describe []) .zero = .ok emptyFilmCatalog ∧
    (Expression.ofCalls latestTitles).order = some ⟨"year", false⟩ ∧
    ∃ (planned : QueryPlan) (view : IndexView) (rows : List Item),
      emptyFilmCatalog.plan "films" (Expression.ofCalls latestTitles) = .ok planned ∧
      filmTable.view planned.request = .ok view ∧
      (run (MemoryStore.source planned.request) Codec.raw.decode none
        (MemoryStore.afterWrites 2 filmWrites) titlePulls).consumed =
          rows.map (view.present planned.request) ∧
      rows.Perm (view.selected planned.request filmTable.items) ∧
      rows.Pairwise fun a b => filmTable.schema.keys.Precedes "year" b a := by
  have hbuild : IndexCatalog.build (filmTable.schema.describe []) .zero = .ok emptyFilmCatalog := rfl
  have horder : (Expression.ofCalls latestTitles).order = some ⟨"year", false⟩ := rfl
  have hcalls : ∀ call ∈ titlePulls, call ≠ .setLimit (some 0) := by
    simp [titlePulls]
  cases hplan : emptyFilmCatalog.plan "films" (Expression.ofCalls latestTitles) with
  | error e => exact absurd hplan nofun
  | ok planned =>
      rcases run_precedes afterWrites_filmWrites hbuild horder hplan
          (IndexView.orderable_filmTable filmsByYear) Codec.raw.decode hcalls with
        ⟨view, rows, rest, hview, hgiven, hperm, _, hprecedes, hrest⟩
      have hexhausted : (run (MemoryStore.source planned.request) Codec.raw.decode none
          (MemoryStore.afterWrites 2 filmWrites) titlePulls).cursor.state = .exhausted := by
        rw [← Except.ok.inj hplan]
        rfl
      rw [hrest hexhausted, List.append_nil] at hperm hprecedes
      exact ⟨afterWrites_filmWrites, hbuild, horder, planned, view, rows, rfl, hview, hgiven, hperm,
        hprecedes⟩

end WideColumn
