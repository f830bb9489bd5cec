import WideColumn.Proofs.Scan.Pages

/-!
# Paging While Items Are Written

A row that stays is returned once, whatever is written while the pages are read.

Between two pages the rows of a query can change, and the row whose key the next
page resumes after may be gone. So there is no list of rows that the pages are
parts of. What the pages divide is the order of places: a page covers those
after the key it resumes from up to the key it reports, and a row that stays is
at one place the whole time. `Reading.Due` and `Reading.Passed` say on which side
of the place the reading is. A write leaves the reading where it is, and a page
that goes past the place returns the row.

Rows and not what a page makes of them are counted here, since two rows can look
the same once attributes are left out. `Fetch.page_items_eq_map` says that a page
returns one item for each row.

## Main definitions

* `Fetch.returned`: The rows that a page returns.
* `Event`, `Reading.step`, `Reading.run`: Reading a query and writing to its table.
* `Reading.Due`, `Reading.Passed`: Before and behind a row that stays.
* `Reading.Invariant`: What every step keeps.

## Theorems

* `put_invariant`, `fetch_invariant`: What a write and a page keep.
* `run_invariant`: What every run keeps.
* `run_returns_once`: A row that stays is returned once.
-/

namespace WideColumn

-- A test that only one element of a list passes leaves that element.
theorem filter_eq_singleton {α : Type} {p : α → Bool} {x : α} {l : List α} (hx : x ∈ l)
    (hl : l.Pairwise (· ≠ ·)) (hp : p x = true) (honly : ∀ y ∈ l, p y = true → y = x) :
    l.filter p = [x] := by
  induction l with
  | nil => exact absurd hx List.not_mem_nil
  | cons head rest ih =>
      rw [List.pairwise_cons] at hl
      have hrest : ∀ y ∈ rest, p y = true → y = x := fun y hy =>
        honly y (List.mem_cons_of_mem head hy)
      rcases List.mem_cons.mp hx with rfl | hmem
      · have hnone : rest.filter p = [] := List.filter_eq_nil_iff.mpr fun y hy hpy =>
          hl.1 y hy (hrest y hy hpy).symm
        rw [List.filter_cons_of_pos hp, hnone]
      · have hhead : ¬ p head = true := fun hph =>
          hl.1 x hmem (honly head List.mem_cons_self hph)
        rw [List.filter_cons_of_neg hhead]
        exact ih hmem hl.2 hrest

namespace Table

-- Having a key depends on the schema of a table alone.
theorem hasKey_of_schema_eq {table other : Table} (h : table.schema = other.schema) :
    table.hasKey = other.hasKey := by
  unfold hasKey
  rw [h]

end Table

/-- The rows that the page returns. -/
def Fetch.returned (view : IndexView) (f : Fetch) : List Item :=
  (f.evaluated view).filter fun row => f.request.filter.all (·.holds row)

-- A page returns one item for each row that it returns.
theorem Fetch.page_items_eq_map (view : IndexView) (f : Fetch) :
    (f.page view).items = (f.returned view).map (view.present f.request) := by
  rw [page_items, returned]
  exact view.filterMap_result? f.request (f.evaluated view)

/-- What a page covers: the rows that are left up to the one whose key it reports,
    or all of them if it reports none. -/
theorem IndexView.page_window {view : IndexView} {stored : List Item}
    (hord : view.Orderable stored)
    (hapart : stored.Pairwise fun a b => placeOrder view.orderAttrs a b ≠ .eq)
    (request : QueryRequest) {limit : Nat} (hlimit : 1 ≤ limit) :
    (∃ last ∈ view.remaining request stored,
      (view.scan request limit stored).lastKey = some (view.itemKey last) ∧
      ∀ row ∈ view.remaining request stored, row ∈ (view.remaining request stored).take limit ↔
        ¬ view.scanOrder request.forward last row = .lt) ∨
    ((view.scan request limit stored).lastKey = none ∧
      ∀ row ∈ view.remaining request stored,
        row ∈ (view.remaining request stored).take limit) := by
  rcases lastKey_cases view request hlimit stored with ⟨_, last, hlast, hkey⟩ | ⟨hle, hkey⟩
  · refine Or.inl ⟨last, List.mem_of_getElem? hlast, hkey, fun row hrow => ?_⟩
    have htake := mem_take_iff (remaining_pairwise hord hapart request) hlast
      (view.scanOrder_asymm request.forward) hrow
    rw [Nat.sub_add_cancel hlimit] at htake
    exact htake
  · refine Or.inr ⟨hkey, fun row hrow => ?_⟩
    rw [List.take_of_length_le hle]
    exact hrow

/-- What happens while a query is read: an item is written to its table, or the
    next page is fetched and evaluates at most some number of rows. -/
inductive Event where
  | put (item : Item)
  | fetch (limit : Nat)

/-- The item that is put, if one is. -/
def Event.item? : Event → Option Item
  | .put item => some item
  | .fetch _ => none

/-- A query that is being read: its table, the key that the next page resumes
    after, whether a page has reported none, and the pages so far. -/
structure Reading where
  table : Table
  startKey : Option Item
  ended : Bool
  fetches : List Fetch

namespace Reading

open IndexView

/-- Reading begins without a key to resume after. -/
def start (table : Table) : Reading := ⟨table, none, false, []⟩

/-- The next page to fetch: it resumes where the last one ended, over the items of now. -/
def nextFetch (request : QueryRequest) (reading : Reading) (limit : Nat) : Fetch :=
  ⟨{ request with startKey := reading.startKey }, limit, reading.table.items⟩

/-- The reading after one more page. -/
def fetched (view : IndexView) (reading : Reading) (f : Fetch) : Reading :=
  let key := (f.page view).lastKey
  { reading with startKey := key, ended := key.isNone, fetches := reading.fetches ++ [f] }

/-- One step. A write has to succeed. A page evaluates at least one row, and none
    is fetched behind one that reported no key. -/
def step (view : IndexView) (request : QueryRequest) (reading : Reading) :
    Event → Option Reading
  | .put item =>
    match reading.table.put item with
    | .ok table => some { reading with table }
    | .error _ => none
  | .fetch limit =>
    if reading.ended = true ∨ limit = 0 then none
    else some (reading.fetched view (reading.nextFetch request limit))

/-- A list of steps from the first page on. What was written before is part of
    the table. -/
def run (view : IndexView) (request : QueryRequest) (table : Table) (events : List Event) :
    Option Reading :=
  events.foldlM (step view request) (start table)

/-- The rows that the pages have returned, in their order. -/
def returned (view : IndexView) (reading : Reading) : List Item :=
  reading.fetches.flatMap (Fetch.returned view)

/-- The reading has not come to the place of a row, and has not returned it. The
    next page resumes after a row that was stored at some time and stands before
    the place, if it is not the first. -/
structure Due (view : IndexView) (forward : Bool) (items : List Item) (hasKey : Item → Bool)
    (row : Item) (reading : Reading) : Prop where
  returned_eq : (reading.returned view).filter hasKey = []
  more : reading.ended = false
  before : ∀ key, reading.startKey = some key → ∃ last ∈ items,
    key = view.itemKey last ∧ view.scanOrder forward last row = .lt

/-- The reading has come past the place of a row, and has returned it. The next
    page resumes after a row that was stored at some time and does not stand before
    the place, unless there is none. -/
structure Passed (view : IndexView) (forward : Bool) (items : List Item) (hasKey : Item → Bool)
    (row : Item) (reading : Reading) : Prop where
  returned_eq : (reading.returned view).filter hasKey = [row]
  behind : reading.ended = true ∨ ∃ last ∈ items,
    reading.startKey = some (view.itemKey last) ∧ ¬ view.scanOrder forward last row = .lt

/-- What every step keeps, for a row that is stored in a table and for a list of
    all items that are stored at some time: the table is sound and has the row,
    and the reading is on one side of the place of the row. -/
structure Invariant (view : IndexView) (request : QueryRequest) (table : Table)
    (items : List Item) (row : Item) (reading : Reading) : Prop where
  sound : reading.table.Sound
  schema_eq : reading.table.schema = table.schema
  listed : ∀ item ∈ reading.table.items, item ∈ items
  stored : row ∈ reading.table.items
  progress : reading.Due view request.forward items (table.hasKey row) row ∨
    reading.Passed view request.forward items (table.hasKey row) row

section

variable {view : IndexView} {request : QueryRequest} {table : Table} {items : List Item}
  {row : Item} {reading next : Reading}

/-- A write keeps the invariant, unless it replaces the row. The pages so far and
    the key to resume after are not touched by it. -/
theorem put_invariant (hinv : reading.Invariant view request table items row) {item : Item}
    (hlisted : item ∈ items) (hkeep : ¬ table.hasKey row item = true)
    (hstep : reading.step view request (.put item) = some next) :
    next.Invariant view request table items row := by
  rw [step] at hstep
  cases hput : reading.table.put item with
  | error e => rw [hput] at hstep; exact absurd hstep (by simp only [reduceCtorEq,
      not_false_eq_true])
  | ok written =>
      rw [hput] at hstep
      simp only [Option.some.injEq] at hstep
      have hsound := Table.put_sound hinv.sound hput
      rcases Table.put_eq_ok hput with ⟨_, hwritten⟩
      rw [← hstep]
      refine ⟨hsound, ?_, ?_, ?_, hinv.progress.imp
        (fun h => ⟨h.returned_eq, h.more, h.before⟩) fun h => ⟨h.returned_eq, h.behind⟩⟩
      · rw [hwritten]
        exact hinv.schema_eq
      · intro other hother
        rw [hwritten] at hother
        rcases mem_placeItem hother with rfl | hheld
        · exact hlisted
        · exact hinv.listed other hheld
      · rw [hwritten]
        refine mem_placeItem_of_not_replaced hinv.stored ?_
        rw [Table.hasKey_of_schema_eq hinv.schema_eq, Table.hasKey_comm]
        exact hkeep

theorem returned_fetched (f : Fetch) :
    (reading.fetched view f).returned view = reading.returned view ++ f.returned view := by
  rw [returned, fetched, List.flatMap_append, List.flatMap_singleton, returned]

variable (hview : view.table = table.schema.keys) (hord : view.Orderable items)

include hview hord

-- The rows of the table do not tie at any time.
theorem Invariant.apart (hinv : reading.Invariant view request table items row) :
    reading.table.items.Pairwise fun a b => placeOrder view.orderAttrs a b ≠ .eq :=
  placeOrder_ne_of_sound hinv.sound (by rw [hview, hinv.schema_eq]) hord hinv.listed

-- The rows of the next page are a chain, and the row is the one with its key among
-- them.
theorem filter_returned (hinv : reading.Invariant view request table items row) (limit : Nat)
    (hfilter : request.filter.all (·.holds row) = true) :
    (row ∈ (reading.nextFetch request limit).evaluated view →
      ((reading.nextFetch request limit).returned view).filter (table.hasKey row) = [row]) ∧
    (row ∉ (reading.nextFetch request limit).evaluated view →
      ((reading.nextFetch request limit).returned view).filter (table.hasKey row) = []) := by
  -- A chain has no row twice, and a sound table no key twice.
  have hchain := remaining_pairwise (hord.mono hinv.listed) (hinv.apart hview hord)
    (reading.nextFetch request limit).request
  have honly : ∀ y ∈ (reading.nextFetch request limit).evaluated view,
      table.hasKey row y = true → y = row := by
    intro y hy hkey
    have hstored : y ∈ reading.table.items :=
      (mem_ordered.mp (mem_remaining.mp (List.mem_of_mem_take hy)).1).1
    rw [← Table.hasKey_of_schema_eq hinv.schema_eq] at hkey
    exact (hinv.sound.eq_of_hasKey hinv.stored hstored hkey).symm
  have hself : table.hasKey row row = true :=
    hasKey_of_placeOrder_eq hview hord (hinv.listed row hinv.stored)
      (hinv.listed row hinv.stored) Std.ReflCmp.compare_self
  refine ⟨fun hmem => filter_eq_singleton (List.mem_filter.mpr ⟨hmem, hfilter⟩) ?_ hself
    fun y hy => honly y (List.mem_filter.mp hy).1, fun hmem => ?_⟩
  · refine List.Pairwise.imp ?_ ((hchain.take).filter _)
    intro a b hlt heq
    have htie : view.scanOrder request.forward b b = .eq := Std.ReflCmp.compare_self
    rw [heq] at hlt
    exact absurd (htie.symm.trans hlt) (by simp only [reduceCtorEq, not_false_eq_true])
  · refine List.filter_eq_nil_iff.mpr fun y hy hkey => ?_
    have hevaluated := (List.mem_filter.mp hy).1
    rw [honly y hevaluated hkey] at hevaluated
    exact hmem hevaluated

/-- A page before the place of a row stays before it, or comes past it and returns
    the row. -/
theorem due_fetched (hinv : reading.Invariant view request table items row) {limit : Nat}
    (hlimit : 1 ≤ limit) (hcovers : view.keys.covers row = true)
    (hkey : request.key.toCondition.holds row = true)
    (hfilter : request.filter.all (·.holds row) = true)
    (hdue : reading.Due view request.forward items (table.hasKey row) row) :
    (reading.fetched view (reading.nextFetch request limit)).Due view request.forward items
        (table.hasKey row) row ∨
      (reading.fetched view (reading.nextFetch request limit)).Passed view request.forward items
        (table.hasKey row) row := by
  have hrow : row ∈ items := hinv.listed row hinv.stored
  have hordered : row ∈
      view.ordered (reading.nextFetch request limit).request reading.table.items :=
    mem_ordered.mpr ⟨hinv.stored, hcovers, hkey⟩
  -- The place is still ahead, so the row is left to evaluate.
  have hleft : row ∈
      view.remaining (reading.nextFetch request limit).request reading.table.items := by
    cases hstart : reading.startKey with
    | none =>
        refine mem_remaining.mpr ⟨hordered, fun start h => ?_⟩
        exact absurd (hstart.symm.trans h) (by simp only [reduceCtorEq, not_false_eq_true])
    | some start =>
        rcases hdue.before start hstart with ⟨last, hlast, rfl, hlt⟩
        exact (mem_remaining_iff_of_itemKey hord hlast hrow hstart).mpr ⟨hordered, hlt⟩
  have hreturned := filter_returned hview hord hinv limit hfilter
  have htotal : (reading.fetched view (reading.nextFetch request limit)).returned view =
      reading.returned view ++ (reading.nextFetch request limit).returned view :=
    returned_fetched _
  rcases page_window (hord.mono hinv.listed) (hinv.apart hview hord)
    (reading.nextFetch request limit).request hlimit with
    ⟨last, hlast, hreport, hwindow⟩ | ⟨hreport, hwindow⟩
  · have hlisted : last ∈ items := hinv.listed last (mem_ordered.mp (mem_remaining.mp hlast).1).1
    by_cases hbefore : view.scanOrder request.forward last row = .lt
    · -- The page ends before the place.
      refine Or.inl ⟨?_, ?_, fun key h => ⟨last, hlisted, ?_, hbefore⟩⟩
      · rw [htotal, List.filter_append, hdue.returned_eq, List.nil_append]
        exact hreturned.2 fun hmem => (hwindow row hleft).mp hmem hbefore
      · exact congrArg Option.isNone hreport
      · exact Option.some.inj (h.symm.trans hreport)
    · -- The page comes up to the place or past it.
      refine Or.inr ⟨?_, Or.inr ⟨last, hlisted, hreport, hbefore⟩⟩
      rw [htotal, List.filter_append, hdue.returned_eq, List.nil_append]
      exact hreturned.1 ((hwindow row hleft).mpr hbefore)
  · refine Or.inr ⟨?_, Or.inl (congrArg Option.isNone hreport)⟩
    rw [htotal, List.filter_append, hdue.returned_eq, List.nil_append]
    exact hreturned.1 (hwindow row hleft)

/-- A page behind the place of a row stays behind it, and does not return the row
    again. -/
theorem passed_fetched (hinv : reading.Invariant view request table items row) {limit : Nat}
    (hlimit : 1 ≤ limit) (hfilter : request.filter.all (·.holds row) = true)
    (hmore : ¬ reading.ended = true)
    (hpassed : reading.Passed view request.forward items (table.hasKey row) row) :
    (reading.fetched view (reading.nextFetch request limit)).Passed view request.forward items
      (table.hasKey row) row := by
  have hrow : row ∈ items := hinv.listed row hinv.stored
  rcases hpassed.behind with hended | ⟨first, hfirst, hstart, hbehind⟩
  · exact absurd hended hmore
  · -- Whatever is left comes after the key, and the row does not.
    have hleft : ∀ other ∈
        view.remaining (reading.nextFetch request limit).request reading.table.items,
        other ∈ items ∧ view.scanOrder request.forward first other = .lt := by
      intro other hother
      have hstored := hinv.listed other (mem_ordered.mp (mem_remaining.mp hother).1).1
      exact ⟨hstored, ((mem_remaining_iff_of_itemKey hord hfirst hstored hstart).mp hother).2⟩
    refine ⟨?_, ?_⟩
    · rw [returned_fetched, List.filter_append, hpassed.returned_eq,
        (filter_returned hview hord hinv limit hfilter).2 fun hmem =>
          hbehind (hleft row (List.mem_of_mem_take hmem)).2, List.append_nil]
    · rcases page_window (hord.mono hinv.listed) (hinv.apart hview hord)
        (reading.nextFetch request limit).request hlimit with
        ⟨last, hlast, hreport, _⟩ | ⟨hreport, _⟩
      · -- The page ends behind where it began, so behind the place as well.
        rcases hleft last hlast with ⟨hlisted, hafter⟩
        exact Or.inr ⟨last, hlisted, hreport, fun hlt =>
          hbehind (Std.TransCmp.lt_trans hafter hlt)⟩
      · exact Or.inl (congrArg Option.isNone hreport)

-- A page keeps the invariant.
theorem fetch_invariant (hinv : reading.Invariant view request table items row) {limit : Nat}
    (hcovers : view.keys.covers row = true) (hkey : request.key.toCondition.holds row = true)
    (hfilter : request.filter.all (·.holds row) = true)
    (hstep : reading.step view request (.fetch limit) = some next) :
    next.Invariant view request table items row := by
  rw [step] at hstep
  by_cases hstop : reading.ended = true ∨ limit = 0
  · rw [if_pos hstop] at hstep
    exact absurd hstep (by simp only [reduceCtorEq, not_false_eq_true])
  · rw [if_neg hstop, Option.some.injEq] at hstep
    rw [not_or] at hstop
    have hlimit : 1 ≤ limit := Nat.one_le_iff_ne_zero.mpr hstop.2
    rw [← hstep]
    refine ⟨hinv.sound, hinv.schema_eq, hinv.listed, hinv.stored, ?_⟩
    rcases hinv.progress with hdue | hpassed
    · exact due_fetched hview hord hinv hlimit hcovers hkey hfilter hdue
    · exact Or.inr (passed_fetched hview hord hinv hlimit hfilter hstop.1 hpassed)

/-- Every run keeps the invariant, if no write in it replaces the row. -/
theorem run_invariant (hcovers : view.keys.covers row = true)
    (hkey : request.key.toCondition.holds row = true)
    (hfilter : request.filter.all (·.holds row) = true) (events : List Event)
    (hlisted : ∀ item ∈ events.filterMap Event.item?, item ∈ items)
    (hkeep : ∀ item, Event.put item ∈ events → ¬ table.hasKey row item = true)
    (hinv : reading.Invariant view request table items row)
    (hrun : events.foldlM (step view request) reading = some next) :
    next.Invariant view request table items row := by
  induction events generalizing reading with
  | nil =>
      rw [List.foldlM_nil] at hrun
      rw [← Option.some.inj hrun]
      exact hinv
  | cons event rest ih =>
      rw [List.foldlM_cons] at hrun
      rcases Option.bind_eq_some_iff.mp hrun with ⟨middle, hstep, hrest⟩
      have hlater : ∀ item, Event.put item ∈ rest → ¬ table.hasKey row item = true :=
        fun item hitem => hkeep item (List.mem_cons_of_mem event hitem)
      cases event with
      | put item =>
          rw [List.filterMap_cons, Event.item?] at hlisted
          refine ih (fun other hother => hlisted other (List.mem_cons_of_mem item hother)) hlater
            ?_ hrest
          exact put_invariant hinv (hlisted item List.mem_cons_self)
            (hkeep item List.mem_cons_self) hstep
      | fetch limit =>
          rw [List.filterMap_cons, Event.item?] at hlisted
          refine ih hlisted hlater ?_ hrest
          exact fetch_invariant hview hord hinv hcovers hkey hfilter hstep

end

/-- A row that stays is returned once. Whatever writes led to the table, and
    however writes and pages alternate after that, the rows with its key that the
    pages return are none or the row itself, and they are the row if a page has
    reported no key. -/
theorem run_returns_once {pageSize : Nat} {writes : List Write} {name : String} {table : Table}
    (htable : (MemoryStore.afterWrites pageSize writes).table name = .ok table)
    {view : IndexView} (hview : view ∈ table.schema.views) (request : QueryRequest)
    {events : List Event} (hord : view.Orderable (table.items ++ events.filterMap Event.item?))
    {reading : Reading} (hrun : run view request table events = some reading)
    {row : Item} (hrow : row ∈ table.items)
    (hkeep : ∀ item, Event.put item ∈ events → ¬ table.hasKey row item = true)
    (hcovers : view.keys.covers row = true) (hkey : request.key.toCondition.holds row = true)
    (hfilter : request.filter.all (·.holds row) = true) :
    (∀ f ∈ reading.fetches,
      (f.page view).items = (f.returned view).map (view.present f.request)) ∧
    ((reading.returned view).filter (table.hasKey row) = [] ∨
      (reading.returned view).filter (table.hasKey row) = [row]) ∧
    (reading.ended = true → (reading.returned view).filter (table.hasKey row) = [row]) := by
  have hstart : (start table).Invariant view request table
      (table.items ++ events.filterMap Event.item?) row :=
    { sound := MemoryStore.afterWrites_sound htable
      schema_eq := rfl
      listed := fun _ hitem => List.mem_append_left _ hitem
      stored := hrow
      progress := Or.inl ⟨rfl, rfl, fun _ h => absurd h (by simp only [start, reduceCtorEq,
        not_false_eq_true])⟩ }
  have hend := run_invariant (TableSchema.table_of_mem_views hview) hord hcovers hkey hfilter
    events (fun _ hitem => List.mem_append_right _ hitem) hkeep hstart hrun
  refine ⟨fun f _ => f.page_items_eq_map view, ?_, fun hended => ?_⟩
  · exact hend.progress.imp (fun hdue => hdue.returned_eq) fun hpassed => hpassed.returned_eq
  · rcases hend.progress with hdue | hpassed
    · exact absurd (hended.symm.trans hdue.more) (by simp only [Bool.true_eq_false,
        not_false_eq_true])
    · exact hpassed.returned_eq

/-- Reading the latest films, while the one that was returned first moves behind
    all others and another one comes in before them. -/
def filmEvents : List Event :=
  [.fetch 1, .put (film "a" "z" (some 1970)), .fetch 1, .put (film "a" "v" (some 1995)), .fetch 5]

/-- A film that stays is returned once while others move. -/
theorem run_returns_once_filmEvents :
    ∃ reading, run filmsByYear latestFilms filmTable filmEvents = some reading ∧
      reading.ended = true ∧ reading.fetches.length = 3 ∧
      (reading.returned filmsByYear).filter (filmTable.hasKey (film "a" "y" (some 1985))) =
        [film "a" "y" (some 1985)] := by
  have hlisted : ∀ item ∈ filmTable.items ++ filmEvents.filterMap Event.item?,
      ∃ director title year, item = film director title year := by
    simp only [filmTable, filmEvents, Event.item?, List.filterMap_cons, List.filterMap_nil,
      List.cons_append, List.nil_append, List.forall_mem_cons, List.not_mem_nil, false_implies,
      implies_true, and_true]
    exact ⟨⟨_, _, _, rfl⟩, ⟨_, _, _, rfl⟩, ⟨_, _, _, rfl⟩, ⟨_, _, _, rfl⟩, ⟨_, _, _, rfl⟩,
      ⟨_, _, _, rfl⟩⟩
  have hkeep : ∀ item, Event.put item ∈ filmEvents →
      ¬ filmTable.hasKey (film "a" "y" (some 1985)) item = true := by
    simp only [filmEvents, List.mem_cons, List.not_mem_nil, Event.put.injEq, reduceCtorEq, false_or,
      or_false, forall_eq_or_imp, forall_eq]
    exact ⟨by decide, by decide⟩
  have hrun : run filmsByYear latestFilms filmTable filmEvents = some _ := rfl
  exact ⟨_, hrun, rfl, rfl, (run_returns_once afterWrites_filmWrites filmsByYear_mem_views
    latestFilms (orderable_films filmsByYear hlisted) hrun
    (List.mem_cons_of_mem _ List.mem_cons_self) hkeep rfl rfl rfl).2.2 rfl⟩

end Reading

end WideColumn
