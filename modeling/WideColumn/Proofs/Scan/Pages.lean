import WideColumn.Proofs.Scan.Rows
import WideColumn.Proofs.Store.Writes

/-!
# Paging Through a Table

Pages of any sizes add up to one scan.

A query is read page by page, each page resuming after the key that the one
before it reported. Every page filters, sorts and cuts the whole table again, so
nothing in a scan says that two pages of one query fit together. They do because
the ordered rows are a chain: a page that resumes after the row at one position
sees exactly the rows that stand behind it. `remaining_itemKey` is that
argument. `page_step` makes of it what one page leaves to the next, and the rest
is induction on the number of pages.

The statement needs the keys to be orderable and the rows to be told apart. The
second is a matter of how items are written, so it comes from `Table.Sound`.

## Main definitions

* `Fetch`: A page and what it was taken from.
* `IndexView.fetches`: The pages of a query, under a limit for each.
* `IndexView.ResumePoint`: Where the reading of a query can begin.

## Theorems

* `lastKey_cases`: What the key that a page reports says about the page.
* `placeOrder_ne_of_sound`: Rows of a sound table do not tie.
* `fetches_end`: Pages that leave fewer and fewer rows come to an end.
* `remaining_itemKey`: What is left after the key of a row.
* `page_step`: What one page leaves to the next.
* `fetches_flatMap_evaluated`: The pages of a query evaluate each row once.
* `fetches_flatMap_eq_scan`: Pages of any sizes add up to one scan.
-/

namespace WideColumn

/-- A page and what it is taken from: the request, how many rows it evaluates at
    most, and the items that the table has at that moment. -/
structure Fetch where
  request : QueryRequest
  limit : Nat
  items : List Item

namespace Fetch

/-- The page that comes of a fetch. -/
def page (view : IndexView) (f : Fetch) : Page :=
  view.scan f.request f.limit f.items

/-- The rows that the page evaluates. -/
def evaluated (view : IndexView) (f : Fetch) : List Item :=
  (view.remaining f.request f.items).take f.limit

theorem page_items (view : IndexView) (f : Fetch) :
    (f.page view).items = (f.evaluated view).filterMap (view.result? f.request) := rfl

end Fetch

namespace IndexView

/-- The first `count` pages of a query on items that do not change. The nth of
    them evaluates no more rows than the nth limit, and each but the first
    resumes after the key that the one before it reported. They are fewer if one
    reports none. -/
def fetches (view : IndexView) (request : QueryRequest) (items : List Item) :
    (limits : Nat → Nat) → (count : Nat) → (start : Option Item) → List Fetch
  | _, 0, _ => []
  | limits, count + 1, start =>
    let f : Fetch := ⟨{ request with startKey := start }, limits 0, items⟩
    f :: match (f.page view).lastKey with
      | none => []
      | some key => view.fetches request items (fun n => limits (n + 1)) count (some key)

/-- Where the reading of a query can begin: at its start, or after a key that an
    earlier page of it reported. -/
inductive ResumePoint (view : IndexView) (request : QueryRequest) (items : List Item) :
    Option Item → Prop
  | start : ResumePoint view request items none
  | next (start : Option Item) (limit : Nat) (key : Item) :
      ResumePoint view request items start → 1 ≤ limit →
      (view.scan { request with startKey := start } limit items).lastKey = some key →
      ResumePoint view request items (some key)

/-- A page that reports a key ends before the rows do, and the key is that of
    the last row it evaluated. A page that reports none evaluates all that is
    left. -/
theorem lastKey_cases (view : IndexView) (request : QueryRequest) {limit : Nat}
    (hlimit : 1 ≤ limit) (items : List Item) :
    (limit < (view.remaining request items).length ∧
      ∃ row, (view.remaining request items)[limit - 1]? = some row ∧
        (view.scan request limit items).lastKey = some (view.itemKey row)) ∨
    ((view.remaining request items).length ≤ limit ∧
      (view.scan request limit items).lastKey = none) := by
  have hlast : (view.scan request limit items).lastKey =
      if ((view.remaining request items).take limit).length < (view.remaining request items).length
      then ((view.remaining request items).take limit).getLast?.map view.itemKey else none := rfl
  generalize view.remaining request items = rows at hlast ⊢
  rw [List.length_take] at hlast
  by_cases h : limit < rows.length
  · have hbound : limit - 1 < rows.length := by omega
    have hget : rows[limit - 1]? = some rows[limit - 1] := List.getElem?_eq_getElem hbound
    refine Or.inl ⟨h, rows[limit - 1], hget, ?_⟩
    rw [hlast, if_pos (by omega), List.getLast?_eq_getElem?, List.length_take,
      List.getElem?_take, if_pos (by omega), Nat.min_eq_left (by omega), hget, Option.map_some]
  · refine Or.inr ⟨by omega, ?_⟩
    rw [hlast, if_neg (by omega)]

/-- Pages come to one that reports no key if each that reports one leaves fewer rows. There
    are no more of them than rows to begin with, and one if there are none. `R` is
    kept from page to page and says where reading can resume. -/
theorem fetches_end {view : IndexView} {request : QueryRequest} {items : List Item}
    {R : Option Item → Prop}
    (hstep : ∀ start limit key, R start → 1 ≤ limit →
      (view.scan { request with startKey := start } limit items).lastKey = some key →
      R (some key) ∧ (view.remaining { request with startKey := some key } items).length <
        (view.remaining { request with startKey := start } items).length) (count : Nat) :
    ∀ (limits : Nat → Nat) (start : Option Item), (∀ i, 1 ≤ limits i) → R start →
      1 ≤ count → (view.remaining { request with startKey := start } items).length ≤ count →
      ∃ last, (view.fetches request items limits count start).getLast? = some last ∧
        (last.page view).lastKey = none := by
  induction count with
  | zero => intro _ _ _ _ hone; exact absurd hone (Nat.not_succ_le_zero 0)
  | succ count ih =>
      intro limits start hlimits hfrom _ hcount
      rw [fetches, Fetch.page]
      rcases lastKey_cases view { request with startKey := start } (hlimits 0) items with
        ⟨hlt, row, _, hkey⟩ | ⟨_, hkey⟩
      · -- A page that leaves rows behind leaves fewer, and had at least two.
        rcases hstep start (limits 0) _ hfrom (hlimits 0) hkey with ⟨hnext, hless⟩
        have hone := hlimits 0
        rcases ih (fun i => limits (i + 1)) (some (view.itemKey row)) (fun i => hlimits (i + 1))
          hnext (by omega) (by omega) with ⟨last, hget, hnone⟩
        refine ⟨last, ?_, hnone⟩
        rw [hkey, List.getLast?_cons, hget, Option.getD_some]
      · rw [hkey]
        exact ⟨_, rfl, hkey⟩

-- Items that tie have the same key. The keys of the table are among the attributes that
-- place a row.
theorem hasKey_of_placeOrder_eq {view : IndexView} {table : Table} {items : List Item}
    (hview : view.table = table.schema.keys) (hord : view.Orderable items) {a b : Item}
    (ha : a ∈ items) (hb : b ∈ items) (htie : placeOrder view.orderAttrs a b = .eq) :
    table.hasKey a b = true := by
  refine Table.hasKey_iff.mpr fun attr hattr => ?_
  rw [Value.sameOptional_comm]
  refine sameOptional_of_placeOrder_eq hord ha hb htie attr ?_
  rw [orderAttrs, hview]
  exact List.mem_append_right _ hattr

-- Rows of a sound table do not tie, if their keys can be ordered.
theorem placeOrder_ne_of_sound {view : IndexView} {table : Table} {items : List Item}
    (hs : table.Sound) (hview : view.table = table.schema.keys) (hord : view.Orderable items)
    (hsub : ∀ item ∈ table.items, item ∈ items) :
    table.items.Pairwise fun a b => placeOrder view.orderAttrs a b ≠ .eq :=
  List.Pairwise.imp_of_mem (fun ha hb hkey htie =>
    hkey (hasKey_of_placeOrder_eq hview hord (hsub _ ha) (hsub _ hb) htie)) hs.distinct

theorem mem_remaining {view : IndexView} {request : QueryRequest} {items : List Item}
    {row : Item} : row ∈ view.remaining request items ↔ row ∈ view.ordered request items ∧
      ∀ start, request.startKey = some start → view.isAfter request start row = true := by
  unfold remaining after
  cases request.startKey with
  | none => simp only [reduceCtorEq, false_implies, implies_true, and_true]
  | some start => simp only [List.mem_filter, Option.some.injEq, forall_eq']

-- After the key of a row those rows are left that come after the row, whether it is
-- still stored or not.
theorem mem_remaining_iff_of_itemKey {view : IndexView} {items stored : List Item}
    (hord : view.Orderable items) {request : QueryRequest} {last row : Item}
    (hlast : last ∈ items) (hrow : row ∈ items)
    (hstart : request.startKey = some (view.itemKey last)) :
    row ∈ view.remaining request stored ↔ row ∈ view.ordered request stored ∧
      view.scanOrder request.forward last row = .lt := by
  rw [mem_remaining, hstart]
  simp only [Option.some.injEq, forall_eq', isAfter_itemKey, isAfter_iff hord request hlast hrow]

section

variable {view : IndexView} {items : List Item} (hord : view.Orderable items)
  (hapart : items.Pairwise fun a b => placeOrder view.orderAttrs a b ≠ .eq)

include hord hapart

-- The rows that are left are a chain.
theorem remaining_pairwise (request : QueryRequest) :
    (view.remaining request items).Pairwise
      fun a b => view.scanOrder request.forward a b = .lt := by
  have hordered := ordered_pairwise hord request hapart
  unfold remaining after
  cases request.startKey with
  | none => exact hordered
  | some start => exact hordered.filter _

/-- After the key of a row those rows are left that stand behind it. -/
theorem remaining_itemKey (request : QueryRequest) {n : Nat} {row : Item}
    (hrow : (view.ordered request items)[n]? = some row) :
    view.remaining { request with startKey := some (view.itemKey row) } items =
      (view.ordered request items).drop (n + 1) := by
  refine filter_eq_drop (ordered_pairwise hord request hapart) hrow
    (view.scanOrder_asymm request.forward) fun b hb => ?_
  have hmem : row ∈ items := (mem_ordered.mp (List.mem_of_getElem? hrow)).1
  rw [isAfter_itemKey]
  exact isAfter_iff hord request hmem (mem_ordered.mp hb).1

/-- Reading begins with some number of rows left out, wherever it can begin. -/
theorem remaining_eq_drop (request : QueryRequest) {start : Option Item}
    (hstart : view.ResumePoint request items start) :
    ∃ n, view.remaining { request with startKey := start } items =
      (view.ordered request items).drop n := by
  -- Only the last page matters: its own start is not needed to know what it leaves.
  cases hstart with
  | start => exact ⟨0, rfl⟩
  | next start limit key _ hlimit hkey =>
      rcases lastKey_cases view { request with startKey := start } hlimit items with
        ⟨_, row, hrow, hlast⟩ | ⟨_, hlast⟩
      · rw [hlast, Option.some.injEq] at hkey
        have hmem : row ∈ view.ordered request items :=
          (mem_remaining.mp (List.mem_of_getElem? hrow)).1
        rcases List.getElem?_of_mem hmem with ⟨n, hn⟩
        rw [← hkey]
        exact ⟨n + 1, remaining_itemKey hord hapart request hn⟩
      · rw [hlast] at hkey
        exact absurd hkey (by simp only [reduceCtorEq, not_false_eq_true])

/-- A page on what is left behind some rows: it reports a key and leaves what is
    behind its own rows too, or it reports none and takes everything. -/
theorem page_step (request : QueryRequest) {start : Option Item} {n limit : Nat}
    (hlimit : 1 ≤ limit)
    (hstart : view.remaining { request with startKey := start } items =
      (view.ordered request items).drop n) :
    (limit < ((view.ordered request items).drop n).length ∧ ∃ key,
      (view.scan { request with startKey := start } limit items).lastKey = some key ∧
      view.remaining { request with startKey := some key } items =
        (view.ordered request items).drop (n + limit)) ∨
    (((view.ordered request items).drop n).length ≤ limit ∧
      (view.scan { request with startKey := start } limit items).lastKey = none) := by
  have hcases := lastKey_cases view { request with startKey := start } hlimit items
  rw [hstart] at hcases
  rcases hcases with ⟨hlt, row, hrow, hlast⟩ | hend
  · refine Or.inl ⟨hlt, view.itemKey row, hlast, ?_⟩
    rw [List.getElem?_drop] at hrow
    rw [remaining_itemKey hord hapart request hrow]
    congr 1
    omega
  · exact Or.inr hend

/-- Enough pages evaluate all rows that are left, in their order. -/
theorem fetches_flatMap_evaluated (request : QueryRequest) (count : Nat) :
    ∀ (limits : Nat → Nat) (start : Option Item) (n : Nat), (∀ i, 1 ≤ limits i) →
      view.remaining { request with startKey := start } items =
        (view.ordered request items).drop n →
      ((view.ordered request items).drop n).length < count →
      (view.fetches request items limits count start).flatMap (fun f => f.evaluated view) =
        (view.ordered request items).drop n := by
  induction count with
  | zero => intro _ _ _ _ _ hcount; exact absurd hcount (Nat.not_lt_zero _)
  | succ count ih =>
      intro limits start n hlimits hstart hcount
      rw [fetches, List.flatMap_cons, Fetch.evaluated, Fetch.page, hstart]
      rcases page_step hord hapart request (hlimits 0) hstart with
        ⟨hlt, key, hkey, hnext⟩ | ⟨hle, hkey⟩
      · -- The page takes at least one row, so fewer are left for fewer pages.
        have hone := hlimits 0
        rw [List.length_drop] at hlt hcount
        rw [hkey, ih _ (some key) (n + limits 0) (fun i => hlimits (i + 1)) hnext
          (by rw [List.length_drop]; omega), ← List.drop_drop, List.take_append_drop]
      · -- All that is left fits in, and no page follows.
        rw [hkey, List.flatMap_nil, List.append_nil, List.take_of_length_le hle]

-- The last of enough pages reports no key.
theorem fetches_getLast (request : QueryRequest) (count : Nat) (limits : Nat → Nat)
    (start : Option Item) (n : Nat) (hlimits : ∀ i, 1 ≤ limits i)
    (hstart : view.remaining { request with startKey := start } items =
      (view.ordered request items).drop n)
    (hcount : ((view.ordered request items).drop n).length < count) :
    ∃ last, (view.fetches request items limits count start).getLast? = some last ∧
      (last.page view).lastKey = none := by
  -- What is left is a tail of the ordered rows, and a page that reports a key makes it shorter.
  refine fetches_end (R := fun start => ∃ n,
    view.remaining { request with startKey := start } items =
      (view.ordered request items).drop n) ?_ count limits start hlimits ⟨n, hstart⟩
    (Nat.one_le_of_lt hcount) (by rw [hstart]; exact Nat.le_of_lt hcount)
  rintro start limit key ⟨n, hstart⟩ hlimit hkey
  rcases page_step hord hapart request hlimit hstart with ⟨hlt, next, hnext, hrest⟩ | ⟨_, hnone⟩
  · rw [hnext, Option.some.injEq] at hkey
    rw [← hkey, hrest, hstart, List.length_drop, List.length_drop]
    rw [List.length_drop] at hlt
    exact ⟨⟨n + limit, rfl⟩, by omega⟩
  · rw [hnone] at hkey
    exact absurd hkey (by simp only [reduceCtorEq, not_false_eq_true])

-- As long as rows are left every page evaluates one.
theorem evaluated_ne_nil_of_mem_fetches (request : QueryRequest) (count : Nat) :
    ∀ (limits : Nat → Nat) (start : Option Item) (n : Nat), (∀ i, 1 ≤ limits i) →
      view.remaining { request with startKey := start } items =
        (view.ordered request items).drop n →
      0 < ((view.ordered request items).drop n).length →
      ∀ f ∈ view.fetches request items limits count start, f.evaluated view ≠ [] := by
  induction count with
  | zero => intro _ _ _ _ _ _ f hf; exact absurd hf List.not_mem_nil
  | succ count ih =>
      intro limits start n hlimits hstart hpos f hf
      rw [fetches, Fetch.page] at hf
      rcases List.mem_cons.mp hf with rfl | hrest
      · -- A page is empty only where its limit is zero or nothing is left.
        intro hnil
        rw [Fetch.evaluated, hstart, List.take_eq_nil_iff] at hnil
        rcases hnil with hzero | hdrop
        · exact absurd hzero (Nat.ne_of_gt (hlimits 0))
        · exact absurd hdrop (List.ne_nil_of_length_pos hpos)
      · rcases page_step hord hapart request (hlimits 0) hstart with
          ⟨hlt, key, hkey, hnext⟩ | ⟨_, hkey⟩
        · rw [hkey] at hrest
          refine ih (fun i => limits (i + 1)) (some key) (n + limits 0)
            (fun i => hlimits (i + 1)) hnext ?_ f hrest
          rw [List.length_drop] at hlt ⊢
          omega
        · rw [hkey] at hrest
          exact absurd hrest List.not_mem_nil

-- Every page but the first evaluates a row.
theorem evaluated_ne_nil_of_mem_tail (request : QueryRequest) {count : Nat} {limits : Nat → Nat}
    {start : Option Item} {n : Nat} (hlimits : ∀ i, 1 ≤ limits i)
    (hstart : view.remaining { request with startKey := start } items =
      (view.ordered request items).drop n) :
    ∀ f ∈ (view.fetches request items limits count start).tail, f.evaluated view ≠ [] := by
  intro f hf
  cases count with
  | zero => exact absurd hf List.not_mem_nil
  | succ count =>
      rw [fetches, List.tail_cons, Fetch.page] at hf
      rcases page_step hord hapart request (hlimits 0) hstart with
        ⟨hlt, key, hkey, hnext⟩ | ⟨_, hkey⟩
      · rw [hkey] at hf
        refine evaluated_ne_nil_of_mem_fetches hord hapart request count
          (fun i => limits (i + 1)) (some key) (n + limits 0) (fun i => hlimits (i + 1)) hnext ?_
          f hf
        rw [List.length_drop] at hlt ⊢
        omega
      · rw [hkey] at hf
        exact absurd hf List.not_mem_nil

end

-- The pages of a query return what the rows they evaluate come to. What a row comes to
-- does not depend on the key to resume after.
theorem fetches_flatMap_items (view : IndexView) (request : QueryRequest) (items : List Item)
    (count : Nat) :
    ∀ (limits : Nat → Nat) (start : Option Item),
      (view.fetches request items limits count start).flatMap (fun f => (f.page view).items) =
        ((view.fetches request items limits count start).flatMap
          fun f => f.evaluated view).filterMap (view.result? request) := by
  induction count with
  | zero => intro _ _; rfl
  | succ count ih =>
      intro limits start
      rw [fetches, List.flatMap_cons, List.flatMap_cons, List.filterMap_append, Fetch.page_items]
      congr 1
      cases (Fetch.page view ⟨{ request with startKey := start }, limits 0, items⟩).lastKey with
      | none => rfl
      | some key => exact ih (fun i => limits (i + 1)) (some key)

/-- Pages of any sizes add up to one scan. Whatever writes led to the table, and
    wherever the reading begins, the pages come to one that reports no key. All of
    them but the first evaluate rows, and together they return, in order, what a
    single scan from there returns under a limit that all items fit in. -/
theorem fetches_flatMap_eq_scan {pageSize : Nat} {writes : List Write} {name : String}
    {table : Table} (htable : (MemoryStore.afterWrites pageSize writes).table name = .ok table)
    {view : IndexView} (hview : view ∈ table.schema.views) (hord : view.Orderable table.items)
    (request : QueryRequest) {start : Option Item}
    (hstart : view.ResumePoint request table.items start)
    (limits : Nat → Nat) (hlimits : ∀ i, 1 ≤ limits i) :
    ∃ count,
      (∃ last, (view.fetches request table.items limits count start).getLast? = some last ∧
        (last.page view).lastKey = none) ∧
      (∀ f ∈ (view.fetches request table.items limits count start).tail,
        f.evaluated view ≠ []) ∧
      ∀ limit, table.items.length ≤ limit →
        (view.fetches request table.items limits count start).flatMap
            (fun f => (f.page view).items) =
          (view.scan { request with startKey := start } limit table.items).items := by
  have hapart := placeOrder_ne_of_sound (MemoryStore.afterWrites_sound htable)
    (TableSchema.table_of_mem_views hview) hord fun _ hitem => hitem
  rcases remaining_eq_drop hord hapart request hstart with ⟨n, hn⟩
  -- One page more than there are rows left is always enough.
  have hcount := Nat.lt_succ_self ((view.ordered request table.items).drop n).length
  refine ⟨_, fetches_getLast hord hapart request _ limits start n hlimits hn hcount,
    evaluated_ne_nil_of_mem_tail hord hapart request hlimits hn, fun limit hlimit => ?_⟩
  rw [fetches_flatMap_items,
    fetches_flatMap_evaluated hord hapart request _ limits start n hlimits hn hcount, ← hn,
    scan_items_of_le view _ hlimit]
  exact filterMap_result? view request _

-- Films can be ordered: their years are integers.
theorem orderable_films (view : IndexView) {items : List Item}
    (h : ∀ item ∈ items, ∃ director title year, item = film director title year) :
    view.Orderable items := by
  refine fun attr _ => ⟨.integer, fun item hitem v hv => ?_⟩
  rcases h item hitem with ⟨director, title, year, rfl⟩
  have hmem := Keyed.mem_of_get?_eq_some hv
  simp only [film, List.cons_append, List.nil_append, List.mem_cons, List.mem_map,
    Prod.mk.injEq] at hmem
  rcases hmem with ⟨_, rfl⟩ | ⟨_, rfl⟩ | ⟨_, _, _, rfl⟩
  · trivial
  · trivial
  · exact rfl

theorem orderable_filmTable (view : IndexView) : view.Orderable filmTable.items :=
  orderable_films view (by simp only [filmTable, List.forall_mem_cons, List.not_mem_nil,
    false_implies, implies_true, and_true]; exact ⟨⟨_, _, _, rfl⟩, ⟨_, _, _, rfl⟩,
      ⟨_, _, _, rfl⟩, ⟨_, _, _, rfl⟩⟩)

end IndexView

/-- The films of one director, latest first. -/
def latestFilms : QueryRequest where
  table := "films"
  index := some "byYear"
  key := ⟨"director", .string "a", none⟩
  filter := none
  projection := none
  forward := false
  consistent := false
  limit := none
  startKey := none

/-- The latest films from the second page on, a film a page. -/
theorem IndexView.fetches_flatMap_eq_scan_latestFilms :
    (MemoryStore.afterWrites 2 filmWrites).table "films" = .ok filmTable ∧
    filmsByYear ∈ filmTable.schema.views ∧ filmsByYear.Orderable filmTable.items ∧
    filmsByYear.ResumePoint latestFilms filmTable.items (some (film "a" "z" (some 1990))) ∧
    (∀ _ : Nat, 1 ≤ 1) ∧
    ∃ count,
      (∃ last, (filmsByYear.fetches latestFilms filmTable.items (fun _ => 1) count
          (some (film "a" "z" (some 1990)))).getLast? = some last ∧
        (last.page filmsByYear).lastKey = none) ∧
      (∀ f ∈ (filmsByYear.fetches latestFilms filmTable.items (fun _ => 1) count
          (some (film "a" "z" (some 1990)))).tail, f.evaluated filmsByYear ≠ []) ∧
      ∀ limit, 4 ≤ limit →
        (filmsByYear.fetches latestFilms filmTable.items (fun _ => 1) count
            (some (film "a" "z" (some 1990)))).flatMap (fun f => (f.page filmsByYear).items) =
          (filmsByYear.scan { latestFilms with startKey := some (film "a" "z" (some 1990)) } limit
            filmTable.items).items := by
  have hresume : filmsByYear.ResumePoint latestFilms filmTable.items
      (some (film "a" "z" (some 1990))) :=
    .next none 1 _ .start (Nat.le_refl 1) rfl
  exact ⟨afterWrites_filmWrites, filmsByYear_mem_views, orderable_filmTable filmsByYear, hresume,
    fun _ => Nat.le_refl 1,
    fetches_flatMap_eq_scan afterWrites_filmWrites filmsByYear_mem_views
      (orderable_filmTable filmsByYear) latestFilms hresume (fun _ => 1) fun _ => Nat.le_refl 1⟩

end WideColumn
