import WideColumn.Proofs.Cursor.Delivery
import WideColumn.Proofs.Scan.Pages
import WideColumn.Proofs.Store.Queries

/-!
# Draining a Cursor

What a cursor hands out when it is pulled until it reports the end.

Which pages a cursor goes through is settled before it fetches the first of them, as
long as the table does not change: every page says where the next one begins, and a
page without a key or the page cap says that there is none. `PagesAhead` is that
course, from any moment of it. It does not mention items, since a cursor fetches the
same pages whatever the filter leaves of them.

Items come in between. A pull may go through several pages without items, and one page
may take many pulls, so pulls and pages do not go in step. `Cursor.Draining` therefore
has both, the pages that are ahead and the items that are to come from them and from
the one in hand. A pull takes one item off, and a drain is a pull for each item and one
for the end.

How many pages there are, and whether they come to an end at all, depends on the order
of the rows, and nothing is said about it here. `pagesAhead_of_fetches` is for the case
that it is known otherwise.

## Main definitions

* `MemoryStore.source`: A store that answers at once, for a request that is settled.
* `MemoryStore.Steady`: A store that throttles and panics on no page of a query.
* `PagesAhead`: The pages that a cursor goes through, and what ends them.
* `Cursor.Draining`: What holds of a cursor between two pulls.
* `Delivery.drainCalls`: The calls that drain a cursor.
* `Delivery.Drained`: What a drain comes to.

## Theorems

* `Session.Run.source_execute`: A session asks such a store in the same way.
* `resumeKey_lastKey`: A key that a page reports is never the empty one.
* `pagesAhead_of_fetches`: Pages that come to an end are the course of a cursor.
* `Draining.next`: What comes after the items in hand.
* `source_fetch`: What a cursor fetches from a store that answers at once.
* `Draining.give`, `Draining.receive`: Giving an item away and receiving a page.
* `pull_draining`: What one pull takes off the items that are to come.
* `run_drainCalls`: A drain hands out what is ahead, and then the end.
-/

namespace WideColumn

namespace MemoryStore

/-- A store that answers at once as the source of a cursor for a request that is
    settled. -/
def source (request : QueryRequest) : Source MemoryStore where
  plan _ := pure (.ok request)
  execute _ request store :=
    let (answer, store) := store.execute request
    (answer.mapError .store, store)

/-- The store after so many more requests for pages. -/
def counted (store : MemoryStore) (n : Nat) : MemoryStore :=
  { store with executeCalls := store.executeCalls + n }

/-- The store throttles no page of a query, and the sort panics on none. -/
structure Steady (store : MemoryStore) (request : QueryRequest) : Prop where
  throttles_eq : store.throttles = 0
  panics_eq : ∀ limit start,
    store.panics { request with limit := limit, startKey := start } = false

-- Such a store answers, and does nothing else but count.
theorem Steady.execute_counted {store : MemoryStore} {request : QueryRequest}
    (h : store.Steady request) (n : Nat) (limit : Option Nat) (start : Option Item) :
    (store.counted n).execute { request with limit := limit, startKey := start } =
      (store.runQuery { request with limit := limit, startKey := start },
        store.counted (n + 1)) := by
  have hpanics : (store.counted n).panics { request with limit := limit, startKey := start } =
      false := h.panics_eq limit start
  rw [execute, asked, hpanics]
  simp only [counted, h.throttles_eq, Bool.and_false, Bool.or_false]
  rfl

-- Writes lead to such a store if the rows of the query are bound to be sorted.
theorem afterWrites_steady {pageSize : Nat} {writes : List Write} {request : QueryRequest}
    {table : Table} (htable : (afterWrites pageSize writes).table request.table = .ok table)
    {view : IndexView} (hview : table.view request = .ok view)
    (hsortable : view.sortable request table.items = true) :
    (afterWrites pageSize writes).Steady request :=
  ⟨afterWrites_throttles pageSize writes, panics_eq_false htable hview hsortable⟩

end MemoryStore

/-- In a session a store without latency answers in the same way, and nothing else in the
    world changes. -/
theorem Session.Run.source_execute (opened : OpenCursor) (deadline : Option Nat)
    (request : QueryRequest) {store : MemoryStore} (hlatency : store.latency = none)
    (world : World) :
    (source opened).execute deadline request { world with backend := .memory store } =
      (((MemoryStore.source request).execute deadline request store).1,
        { world with
          backend := .memory ((MemoryStore.source request).execute deadline request store).2 }) := by
  rcases store with ⟨tables, pageSize, hpos, latency, throttles, describes, executes, panicked⟩
  cases hlatency
  rfl

/-- The pages that a cursor goes through and the completion that it ends with. So many
    pages were fetched so far, the next one resumes after `start`, and `answer` is the
    page that comes after a key. -/
inductive PagesAhead (answer : Option Item → Page) (cap : Option Nat) :
    (fetched : Nat) → (start : Option Item) → List Page → Completion → Prop
  | parsed {fetched : Nat} : 0 < fetched → PagesAhead answer cap fetched none [] .allItemsParsed
  | capped {fetched : Nat} {start : Option Item} : (fetched = 0 ∨ start.isSome = true) →
      cap.any (· ≤ fetched) = true →
      PagesAhead answer cap fetched start [] .maxPaginationReached
  | page {fetched : Nat} {start : Option Item} {pages : List Page} {completion : Completion} :
      (fetched = 0 ∨ start.isSome = true) → ¬ cap.any (· ≤ fetched) = true →
      PagesAhead answer cap (fetched + 1) (resumeKey (answer start).lastKey) pages completion →
      PagesAhead answer cap fetched start (answer start :: pages) completion

namespace IndexView

-- A key that a page reports is not empty: it is that of a row that the index has.
theorem resumeKey_lastKey (view : IndexView) (request : QueryRequest) {limit : Nat}
    (hlimit : 1 ≤ limit) (items : List Item) :
    resumeKey (view.scan request limit items).lastKey = (view.scan request limit items).lastKey := by
  rcases lastKey_cases view request hlimit items with ⟨_, row, hrow, hlast⟩ | ⟨_, hlast⟩
  · have hcovers := (mem_ordered.mp (mem_remaining.mp (List.mem_of_getElem? hrow)).1).2.1
    have hheld := IndexKeys.covers_iff.mp hcovers view.keys.partition List.mem_cons_self
    have hget : (view.itemKey row).get? view.keys.partition = row.get? view.keys.partition := by
      rw [itemKey, Keyed.get?_restrict, if_pos]
      exact List.contains_iff_mem.mpr (List.mem_append_left _ List.mem_cons_self)
    rw [hlast]
    cases hkey : view.itemKey row with
    | nil =>
        rw [hkey, Keyed.get?_nil] at hget
        rw [Keyed.contains, ← hget] at hheld
        exact absurd hheld Bool.false_ne_true
    | cons entry rest => rfl
  · rw [hlast]
    rfl

theorem length_fetches_le (view : IndexView) (request : QueryRequest) (items : List Item)
    (count : Nat) : ∀ (limits : Nat → Nat) (start : Option Item),
      (view.fetches request items limits count start).length ≤ count := by
  induction count with
  | zero => exact fun _ _ => Nat.le_refl 0
  | succ count ih =>
      intro limits start
      rw [fetches, List.length_cons]
      refine Nat.succ_le_succ ?_
      cases (Fetch.page view ⟨{ request with startKey := start }, limits 0, items⟩).lastKey with
      | none => exact Nat.zero_le count
      | some key => exact ih (fun i => limits (i + 1)) (some key)

/-- Pages that come to one without a key are the course of a cursor without a cap. -/
theorem pagesAhead_of_fetches (view : IndexView) (request : QueryRequest) (items : List Item)
    {size : Nat} (hsize : 1 ≤ size) (count : Nat) :
    ∀ (fetched : Nat) (start : Option Item), (fetched = 0 ∨ start.isSome = true) →
      (∃ last, (view.fetches request items (fun _ => size) count start).getLast? = some last ∧
        (last.page view).lastKey = none) →
      PagesAhead (fun start => view.scan { request with startKey := start } size items) none
        fetched start ((view.fetches request items (fun _ => size) count start).map (Fetch.page view))
        .allItemsParsed := by
  induction count with
  | zero =>
      rintro _ _ _ ⟨last, hlast, _⟩
      exact absurd hlast (by simp only [fetches, List.getLast?_nil, reduceCtorEq,
        not_false_eq_true])
  | succ count ih =>
      rintro fetched start hstart ⟨last, hlast, hnone⟩
      have hkept := resumeKey_lastKey view { request with startKey := start } hsize items
      cases hkey : (view.scan { request with startKey := start } size items).lastKey with
      | none =>
          simp only [fetches, Fetch.page, hkey, List.map_cons, List.map_nil]
          refine .page hstart Bool.false_ne_true ?_
          simp only [hkey]
          exact .parsed (Nat.succ_pos fetched)
      | some key =>
          rw [hkey] at hkept
          simp only [fetches, Fetch.page, hkey, List.getLast?_cons, Option.some.injEq] at hlast
          simp only [fetches, Fetch.page, hkey, List.map_cons]
          refine .page hstart Bool.false_ne_true ?_
          simp only [hkey, hkept]
          refine ih (fetched + 1) (some key) (Or.inr rfl) ?_
          -- The page reports a key, so it is not the last one.
          cases hrest : (view.fetches request items (fun _ => size) count (some key)).getLast? with
          | none =>
              rw [hrest, Option.getD_none] at hlast
              rw [← hlast, Fetch.page, hkey] at hnone
              exact absurd hnone (by simp only [reduceCtorEq, not_false_eq_true])
          | some other =>
              rw [hrest, Option.getD_some] at hlast
              exact ⟨other, rfl, hlast ▸ hnone⟩

end IndexView

namespace Cursor

/-- What holds of a cursor between two pulls, with the state of its source and the
    exchanges, if these pages and items are to come. The store has answered all that was
    asked and only counted. All pages, behind the cursor and ahead of it, are `total`. -/
structure Draining (answer : Option Item → Page) (cap limit : Option Nat)
    (request : QueryRequest) (store : MemoryStore) (completion : Completion) (total : Nat)
    (pages : List Page) (items : List Item) (c : Cursor) (s : MemoryStore × List Exchange) :
    Prop where
  maxPages_eq : c.maxPages = cap
  limit_eq : c.limit = limit
  keeps : ∀ kept, c.request = some kept → kept.unpaged = request.unpaged
  ahead : PagesAhead answer cap c.pagesFetched c.startKey pages completion
  count : c.pagesFetched + pages.length = total
  items_eq : c.page.drop c.position ++ pages.flatMap (·.items) = items
  state_eq : s.1 = store.counted c.pagesFetched
  exchanges_length : s.2.length = c.pagesFetched

-- Requests that differ only in what differs from page to page ask for the same page.
theorem fetchRequest_eq_of_unpaged (c : Cursor) {planned request : QueryRequest}
    (h : planned.unpaged = request.unpaged) : c.fetchRequest planned = c.fetchRequest request :=
  congrArg (fun r : QueryRequest => { r with limit := c.limit, startKey := c.startKey }) h

-- What a cursor fetches from a store that answers at once: the page that its own key and
-- limit ask for, whether it plans the request or keeps it.
theorem source_fetch {store : MemoryStore} {request : QueryRequest}
    (hsteady : store.Steady request) {c : Cursor}
    (hkeeps : ∀ kept, c.request = some kept → kept.unpaged = request.unpaged) {n : Nat} {page : Page}
    (hpage : store.runQuery (c.fetchRequest request) = .ok page) (deadline : Option Nat)
    (exchanges : List Exchange) :
    (MemoryStore.source request).fetch deadline c (store.counted n, exchanges) =
      (.ok (c.fetchRequest request, page),
        (store.counted (n + 1), exchanges ++ [⟨c.fetchRequest request, .ok page⟩])) := by
  have hplanned : ∃ planned : QueryRequest, planned.unpaged = request.unpaged ∧
      c.planned ((MemoryStore.source request).planLogged deadline) (store.counted n, exchanges) =
        (.ok planned, (store.counted n, exchanges)) := by
    unfold Cursor.planned
    cases hrequest : c.request with
    | none => exact ⟨request, rfl, rfl⟩
    | some kept => exact ⟨kept, hkeeps kept hrequest, rfl⟩
  have hanswered : (MemoryStore.source request).executeLogged deadline (c.fetchRequest request)
      (store.counted n, exchanges) = (.ok page, (store.counted (n + 1),
        exchanges ++ [⟨c.fetchRequest request, .ok page⟩])) := by
    have hexecute : (store.counted n).execute (c.fetchRequest request) =
        (store.runQuery (c.fetchRequest request), store.counted (n + 1)) :=
      hsteady.execute_counted n c.limit c.startKey
    rw [Source.executeLogged]
    simp only [MemoryStore.source, hexecute, hpage]
    rfl
  rcases hplanned with ⟨planned, hunpaged, hplanned⟩
  rw [Source.fetch, Cursor.fetch]
  simp only [bind, StateT.bind, hplanned, fetchRequest_eq_of_unpaged c hunpaged, hanswered]
  rfl

section

variable {answer : Option Item → Page} {cap limit : Option Nat} {request : QueryRequest}
  {store : MemoryStore} {completion : Completion} {total : Nat} {pages : List Page}
  {items : List Item} {c : Cursor} {s : MemoryStore × List Exchange}

-- An item in hand is the next to come.
theorem Draining.give
    (h : c.Draining answer cap limit request store completion total pages items s) {item : Item}
    (hitem : c.page[c.position]? = some item) :
    ∃ left, items = item :: left ∧
      Draining answer cap limit request store completion total pages left
        { c with position := c.position + 1 } s := by
  rcases List.getElem?_eq_some_iff.mp hitem with ⟨hlt, hget⟩
  refine ⟨_, ?_, h.maxPages_eq, h.limit_eq, h.keeps, h.ahead, h.count, rfl, h.state_eq,
    h.exchanges_length⟩
  rw [← h.items_eq, List.drop_eq_getElem_cons hlt, hget]
  rfl

/-- What comes next when all items in hand were given away: the end if no page is ahead,
    and otherwise the first page that is. -/
theorem Draining.next
    (h : c.Draining answer cap limit request store completion total pages items s)
    (hdone : c.page[c.position]? = none) :
    (pages = [] ∧ items = [] ∧ c.next = .complete completion) ∨
    ∃ rest, pages = answer c.startKey :: rest ∧ c.next = .needsPage ∧
      PagesAhead answer cap (c.pagesFetched + 1) (resumeKey (answer c.startKey).lastKey) rest
        completion := by
  -- The tests for the end, in the fields that the pages ahead are read off.
  have hnext : c.next = if 0 < c.pagesFetched ∧ c.startKey = none then
      .complete .allItemsParsed
      else if cap.any (· ≤ c.pagesFetched) then .complete .maxPaginationReached
      else .needsPage := by
    simp only [Cursor.next, hdone, allItemsParsed, maxPaginationReached, h.maxPages_eq,
      Bool.and_eq_true, decide_eq_true_eq, Option.isNone_iff_eq_none]
  have hitems := h.items_eq
  rw [List.drop_eq_nil_of_le (List.getElem?_eq_none_iff.mp hdone), List.nil_append] at hitems
  have hahead := h.ahead
  generalize c.pagesFetched = fetched, c.startKey = start at hnext hahead ⊢
  have hopen : fetched = 0 ∨ start.isSome = true → ¬ (0 < fetched ∧ start = none) := by
    rintro (hzero | hsome) ⟨hpos, hnone⟩
    · exact absurd hzero (Nat.ne_of_gt hpos)
    · rw [hnone] at hsome
      exact absurd hsome Bool.false_ne_true
  cases hahead with
  | parsed hpos => exact Or.inl ⟨rfl, hitems.symm, by rw [hnext, if_pos ⟨hpos, rfl⟩]⟩
  | capped hstart hcap =>
      exact Or.inl ⟨rfl, hitems.symm, by rw [hnext, if_neg (hopen hstart), if_pos hcap]⟩
  | page hstart hcap hrest =>
      exact Or.inr ⟨_, rfl, by rw [hnext, if_neg (hopen hstart), if_neg hcap], hrest⟩

-- The page that is ahead is received, and its items come into the hand.
theorem Draining.receive {rest : List Page}
    (h : c.Draining answer cap limit request store completion total (answer c.startKey :: rest)
      items s)
    (hdone : c.page[c.position]? = none)
    (hrest : PagesAhead answer cap (c.pagesFetched + 1)
      (resumeKey (answer c.startKey).lastKey) rest completion) :
    (c.receive (c.fetchRequest request) (answer c.startKey)).Draining answer cap limit request
      store completion total rest items (store.counted (c.pagesFetched + 1),
        s.2 ++ [⟨c.fetchRequest request, .ok (answer c.startKey)⟩]) := by
  refine ⟨h.maxPages_eq, h.limit_eq, fun kept hkept => ?_, hrest, ?_, ?_, rfl, ?_⟩
  · rw [← Option.some.inj hkept]
    rfl
  · rw [← h.count, List.length_cons]
    exact Nat.succ_add_eq_add_succ _ _
  · rw [← h.items_eq, List.drop_eq_nil_of_le (List.getElem?_eq_none_iff.mp hdone)]
    rfl
  · rw [List.length_append, h.exchanges_length]
    rfl

variable (hsteady : store.Steady request)
  (hanswer : ∀ start, store.runQuery { request with limit := limit, startKey := start } =
    .ok (answer start))

include hsteady hanswer

-- The store answers with the page that comes after the key of the cursor.
theorem Draining.fetch
    (h : c.Draining answer cap limit request store completion total pages items s)
    (deadline : Option Nat) :
    (MemoryStore.source request).fetch deadline c s =
      (.ok (c.fetchRequest request, answer c.startKey),
        (store.counted (c.pagesFetched + 1),
          s.2 ++ [⟨c.fetchRequest request, .ok (answer c.startKey)⟩])) := by
  have hpage : store.runQuery (c.fetchRequest request) = .ok (answer c.startKey) := by
    rw [fetchRequest, h.limit_eq]
    exact hanswer c.startKey
  have hfetch := source_fetch hsteady h.keeps hpage (n := c.pagesFetched) deadline s.2
  rw [← h.state_eq] at hfetch
  exact hfetch

/-- What one pull does: it gives the first of the items that are to come and leaves the
    others, or it reports the end when no item and no page is left. -/
theorem pull_draining
    (h : c.Draining answer cap limit request store completion total pages items s)
    (deadline : Option Nat) {most : Nat} (hmost : pages.length ≤ most) {given : Pull}
    {now : Cursor} {after : MemoryStore × List Exchange}
    (hpull : c.pull ((MemoryStore.source request).fetch deadline) most s = ((given, now), after)) :
    (∃ item left rest, given = .item item ∧ items = item :: left ∧
      now.Draining answer cap limit request store completion total rest left after) ∨
    (given = .failed (.parsingComplete completion) ∧ items = [] ∧
      now.Draining answer cap limit request store completion total [] [] after) := by
  -- Receiving a page moves its items from the pages ahead into the hand, so what is to come
  -- stays the same up to the item that is given.
  have hresult := @pull_induction _ ((MemoryStore.source request).fetch deadline)
    (fun most now s => ∃ rest,
      now.Draining answer cap limit request store completion total rest items s ∧
      rest.length ≤ most)
    (fun given now s =>
      (∃ item left rest, given = .item item ∧ items = item :: left ∧
        now.Draining answer cap limit request store completion total rest left s) ∨
      (given = .failed (.parsingComplete completion) ∧ items = [] ∧
        now.Draining answer cap limit request store completion total [] [] s))
    ?_ ?_ ?_ ?_ ?_ most c s ⟨pages, h, hmost⟩
  · rw [hpull] at hresult
    exact hresult
  · rintro _ now s item ⟨rest, hnow, _⟩ hitem
    rcases hnow.give hitem with ⟨left, hitems, hleft⟩
    exact Or.inl ⟨item, left, rest, rfl, hitems, hleft⟩
  · rintro _ now s ended ⟨rest, hnow, _⟩ hdone hended
    rcases hnow.next hdone with ⟨rfl, rfl, hnext⟩ | ⟨_, _, hnext, _⟩
    · rw [hended, Next.complete.injEq] at hnext
      rw [hnext]
      exact Or.inr ⟨rfl, rfl, hnow⟩
    · rw [hended] at hnext
      exact absurd hnext (by simp only [reduceCtorEq, not_false_eq_true])
  · -- With no page left to fetch no page is ahead.
    rintro now s ⟨rest, hnow, hmost⟩ hneeds
    rcases hnow.next (next_eq_needsPage hneeds).1 with ⟨_, _, hnext⟩ | ⟨_, hrest, _, _⟩
    · rw [hneeds] at hnext
      exact absurd hnext (by simp only [reduceCtorEq, not_false_eq_true])
    · rw [hrest] at hmost
      exact absurd hmost (Nat.not_succ_le_zero _)
  · -- The store fails no request.
    rintro _ now s e after ⟨rest, hnow, _⟩ hneeds hfetch
    rw [hnow.fetch hsteady hanswer deadline, Prod.mk.injEq] at hfetch
    exact absurd hfetch.1 (by simp only [reduceCtorEq, not_false_eq_true])
  · rintro _ now s asked page after ⟨rest, hnow, hmost⟩ hdone hneeds hfetch
    rw [hnow.fetch hsteady hanswer deadline, Prod.mk.injEq, Except.ok.injEq,
      Prod.mk.injEq] at hfetch
    rcases hfetch with ⟨⟨rfl, rfl⟩, rfl⟩
    rcases hnow.next hdone with ⟨_, _, hnext⟩ | ⟨later, rfl, _, hlater⟩
    · rw [hneeds] at hnext
      exact absurd hnext (by simp only [reduceCtorEq, not_false_eq_true])
    · exact ⟨later, hnow.receive hdone hlater, Nat.le_of_succ_le_succ hmost⟩

end

end Cursor

namespace Delivery

variable {α : Type}

/-- The calls that drain a cursor: the page cap and the limit are set, and then it is
    pulled so many times. -/
def drainCalls (cap limit deadline : Option Nat) (most pulls : Nat) : List CursorCall :=
  .setMaxPages cap :: .setLimit limit :: List.replicate pulls (.pull deadline most)

/-- What a drain comes to: behind what was handed out before stand the records of the items
    and then the end, and the store has counted all pages. -/
structure Drained (decode : Item → Except CodecError α) (store : MemoryStore)
    (completion : Completion) (total : Nat) (before : List (Handed α)) (items : List Item)
    (d : Delivery MemoryStore α) : Prop where
  handed_eq : d.handed = before ++
    items.map (fun item => ⟨some item, (decode item).mapError .codec⟩) ++
    [⟨none, .error (.parsingComplete completion)⟩]
  state_eq : d.state = store.counted total
  exchanges_length : d.exchanges.length = total

theorem step_pull {σ : Type} {source : Source σ} (decode : Item → Except CodecError α)
    {d : Delivery σ α} {deadline : Option Nat} {most : Nat} {given : Cursor.Pull} {now : Cursor}
    {after : σ × List Exchange}
    (h : d.cursor.pull (source.fetch deadline) most (d.state, d.exchanges) =
      ((given, now), after)) :
    d.step source decode (.pull deadline most) =
      ⟨now, after.1, after.2, d.handed ++ [⟨given.item?, given.record decode⟩]⟩ := by
  rw [step, h]

section

variable {answer : Option Item → Page} {cap limit : Option Nat} {request : QueryRequest}
  {store : MemoryStore} {completion : Completion} (decode : Item → Except CodecError α)
  (hsteady : store.Steady request)
  (hanswer : ∀ start, store.runQuery { request with limit := limit, startKey := start } =
    .ok (answer start))

include hsteady hanswer

-- As many pulls as there are items to come give all of them, and the next one reports the
-- end.
theorem foldl_pull_draining {total most : Nat} (hmost : total ≤ most) (deadline : Option Nat)
    {items : List Item} {d : Delivery MemoryStore α} {pages : List Page}
    (h : d.cursor.Draining answer cap limit request store completion total pages items
      (d.state, d.exchanges)) :
    ((List.replicate (items.length + 1) (.pull deadline most)).foldl
      (step (MemoryStore.source request) decode) d).Drained decode store completion total d.handed
      items := by
  induction items generalizing d pages with
  | nil =>
      rcases hpull : d.cursor.pull ((MemoryStore.source request).fetch deadline) most
        (d.state, d.exchanges) with ⟨⟨given, now⟩, after⟩
      have hpages : pages.length ≤ most :=
        Nat.le_trans (h.count ▸ Nat.le_add_left pages.length _) hmost
      rcases Cursor.pull_draining hsteady hanswer h deadline hpages hpull with
        ⟨_, _, _, _, hitems, _⟩ | ⟨rfl, _, hnow⟩
      · exact absurd hitems (List.cons_ne_nil _ _).symm
      · rw [List.length_nil, List.replicate_one, List.foldl_cons, List.foldl_nil,
          step_pull decode hpull]
        have hcount : now.pagesFetched = total := hnow.count
        refine ⟨?_, ?_, ?_⟩
        · rw [List.map_nil, List.append_nil]
          rfl
        · rw [← hcount]
          exact hnow.state_eq
        · rw [← hcount]
          exact hnow.exchanges_length
  | cons item items ih =>
      rcases hpull : d.cursor.pull ((MemoryStore.source request).fetch deadline) most
        (d.state, d.exchanges) with ⟨⟨given, now⟩, after⟩
      have hpages : pages.length ≤ most :=
        Nat.le_trans (h.count ▸ Nat.le_add_left pages.length _) hmost
      rcases Cursor.pull_draining hsteady hanswer h deadline hpages hpull with
        ⟨_, _, rest, rfl, hitems, hnow⟩ | ⟨_, hitems, _⟩
      · rcases List.cons.inj hitems with ⟨rfl, rfl⟩
        rw [List.length_cons, List.replicate_succ, List.foldl_cons, step_pull decode hpull]
        have hrest := ih (d := ⟨now, after.1, after.2, d.handed ++
          [⟨some item, (decode item).mapError .codec⟩]⟩) hnow
        refine ⟨?_, hrest.state_eq, hrest.exchanges_length⟩
        refine hrest.handed_eq.trans ?_
        rw [List.append_assoc d.handed]
        rfl
      · exact absurd hitems (List.cons_ne_nil _ _)

/-- A drain hands out the items of the pages that are ahead of a new cursor, in order, and
    then the end. It fetches these pages and no others. -/
theorem run_drainCalls {pages : List Page}
    (hahead : PagesAhead answer cap 0 none pages completion) {most : Nat}
    (hmost : pages.length ≤ most) (deadline : Option Nat) {items : List Item}
    (hitems : pages.flatMap (·.items) = items) :
    (run (MemoryStore.source request) decode none store
      (drainCalls cap limit deadline most (items.length + 1))).Drained decode store completion
      pages.length [] items := by
  have hstart : ((Cursor.fresh.setMaxPages cap).setLimit limit).Draining answer cap limit request
      store completion pages.length pages items (store, []) :=
    ⟨rfl, rfl, fun _ h => absurd h (by simp only [Cursor.setLimit, Cursor.setMaxPages,
      Cursor.fresh, reduceCtorEq, not_false_eq_true]), hahead, Nat.zero_add _, hitems, rfl, rfl⟩
  exact foldl_pull_draining decode hsteady hanswer hmost deadline
    (d := ⟨(Cursor.fresh.setMaxPages cap).setLimit limit, store, [], []⟩) hstart

end

end Delivery

end WideColumn
