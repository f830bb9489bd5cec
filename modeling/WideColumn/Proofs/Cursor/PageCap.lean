import WideColumn.Proofs.Cursor.Draining
import WideColumn.Proofs.Store.Queries
import Mathlib.Algebra.Order.Floor.Div

/-!
# The Page Cap

After how many pages a cursor ends, and with what.

The rows of a request are cut into pages of one size, so the pages are counted from the
rows alone. Whether a row satisfies the filter does not matter to the count, and where
the last page is just full no empty one follows it. A cap counts pages too. If it allows
all of them it is not noticed: the page without a key comes first, and with it the other
end.

`pagesAhead_drop` is the count from any page on. The rows that are left behind so many
full pages are a tail of the ordered rows, which is what `page_step` keeps.

## Main definitions

* `pageCount`: How many pages some rows take.
* `cappedPages`, `cappedEnd`: How many of them are fetched under a cap, and what ends them.
* `IndexView.returned`: What a cursor returns of the rows under a cap.

## Theorems

* `pageCount_le_iff`: Pages that are enough for some rows.
* `pagesAhead_drop`: The pages from any page on.
* `drain_under_cap`: What a cursor hands out, and after how many pages it ends.
-/

namespace WideColumn

/-- How many pages some rows take. There is one even if there are no rows. -/
def pageCount (rows size : Nat) : Nat := max 1 (rows ⌈/⌉ size)

/-- How many of these pages are fetched under a cap, if there is one. -/
def cappedPages (cap : Option Nat) (rows size : Nat) : Nat :=
  cap.elim (pageCount rows size) (min · (pageCount rows size))

/-- How the reading of these pages ends. A cap that leaves room for all of them is not
    noticed. -/
def cappedEnd (cap : Option Nat) (rows size : Nat) : Completion :=
  if cap.all (pageCount rows size ≤ ·) then .allItemsParsed else .maxPaginationReached

section

variable {cap : Option Nat} {rows size k : Nat} (hsize : 0 < size)

include hsize in
theorem pageCount_le_iff : pageCount rows size ≤ k ↔ 1 ≤ k ∧ rows ≤ size * k := by
  rw [pageCount, Nat.max_le, ceilDiv_le_iff_le_mul hsize]

-- Full pages are not followed by an empty one.
example : pageCount 6 3 = 2 ∧ pageCount 7 3 = 3 ∧ pageCount 0 3 = 1 := ⟨rfl, rfl, rfl⟩

theorem cappedPages_le : cappedPages cap rows size ≤ pageCount rows size := by
  cases cap with
  | none => exact Nat.le_refl _
  | some most => exact Nat.min_le_right _ _

-- Before the last page the cap is reached just if no page of those under it is left.
theorem capReached_iff (h : k < pageCount rows size) :
    cap.any (· ≤ k) = true ↔ cappedPages cap rows size ≤ k := by
  cases cap with
  | none => exact iff_of_false (by simp only [Option.any_none, Bool.false_eq_true,
      not_false_eq_true]) (Nat.not_le_of_lt h)
  | some most =>
      rw [Option.any_some, decide_eq_true_eq, cappedPages, Option.elim_some]
      omega

theorem cappedEnd_of_lt (h : cappedPages cap rows size < pageCount rows size) :
    cappedEnd cap rows size = .maxPaginationReached := by
  cases cap with
  | none => exact absurd h (Nat.lt_irrefl _)
  | some most =>
      rw [cappedPages, Option.elim_some] at h
      rw [cappedEnd, if_neg]
      simp only [Option.all_some, decide_eq_true_eq]
      omega

theorem cappedEnd_of_eq (h : cappedPages cap rows size = pageCount rows size) :
    cappedEnd cap rows size = .allItemsParsed := by
  cases cap with
  | none => rfl
  | some most =>
      rw [cappedPages, Option.elim_some] at h
      rw [cappedEnd, if_pos]
      simp only [Option.all_some, decide_eq_true_eq]
      omega

end

namespace IndexView

/-- The pages from any page on, each of `size` rows. They return what the rows come to
    that are left on these pages. -/
theorem pagesAhead_drop {view : IndexView} {items : List Item} (hord : view.Orderable items)
    (hapart : items.Pairwise fun a b => placeOrder view.orderAttrs a b ≠ .eq)
    (request : QueryRequest) {size : Nat} (hsize : 0 < size) (cap : Option Nat) (left : Nat) :
    ∀ (k : Nat) (start : Option Item), (k = 0 ∨ start.isSome = true) →
      view.remaining { request with startKey := start } items =
        (view.ordered request items).drop (size * k) →
      k < pageCount (view.ordered request items).length size →
      k + left = cappedPages cap (view.ordered request items).length size →
      ∃ pages, PagesAhead
          (fun start => view.scan { request with startKey := start } size items) cap k start pages
          (cappedEnd cap (view.ordered request items).length size) ∧
        pages.length = left ∧
        pages.flatMap (·.items) =
          (((view.ordered request items).drop (size * k)).take (size * left)).filterMap
            (view.result? request) := by
  induction left with
  | zero =>
      intro k start hstart _ hk hcapped
      have hreached := (capReached_iff hk).mpr (Nat.le_of_eq hcapped.symm)
      refine ⟨[], ?_, rfl, rfl⟩
      rw [cappedEnd_of_lt (by omega)]
      exact .capped hstart hreached
  | succ left ih =>
      intro k start hstart hremaining hk hcapped
      have hunreached := mt (capReached_iff hk).mp (by omega : ¬ cappedPages cap _ size ≤ k)
      have hpage : (view.scan { request with startKey := start } size items).items =
          (((view.ordered request items).drop (size * k)).take size).filterMap
            (view.result? request) := by
        rw [← hremaining]
        rfl
      have hlength := List.length_drop (i := size * k) (l := view.ordered request items)
      have hkept := resumeKey_lastKey view { request with startKey := start } hsize items
      rcases page_step hord hapart request hsize hremaining with
        ⟨hlt, key, hkey, hnext⟩ | ⟨hle, hkey⟩
      · -- More rows are left than the page takes, so another page follows.
        have hmore : k + 1 < pageCount (view.ordered request items).length size := by
          rw [← Nat.not_le, pageCount_le_iff hsize, Nat.mul_succ]
          omega
        rcases ih (k + 1) (some key) (Or.inr rfl) hnext hmore (by omega) with
          ⟨pages, hahead, hpages, hitems⟩
        refine ⟨_ :: pages, .page hstart hunreached ?_, ?_, ?_⟩
        · rw [hkept, hkey]
          exact hahead
        · rw [List.length_cons, hpages]
        · rw [List.flatMap_cons, hpage, hitems, ← List.filterMap_append, Nat.mul_succ size k,
            ← List.drop_drop, ← List.take_add, Nat.mul_succ, Nat.add_comm]
      · -- The page takes all that is left, and the cap allows no page behind it.
        have hlast : pageCount (view.ordered request items).length size ≤ k + 1 := by
          rw [pageCount_le_iff hsize, Nat.mul_succ]
          omega
        have hbound : cappedPages cap (view.ordered request items).length size ≤ _ :=
          cappedPages_le
        have hleft : left = 0 := by omega
        refine ⟨[_], .page hstart hunreached ?_, ?_, ?_⟩
        · rw [hkept, hkey, cappedEnd_of_eq (by omega)]
          exact .parsed (Nat.succ_pos k)
        · rw [hleft]
          rfl
        · rw [List.flatMap_singleton, hpage, hleft, Nat.zero_add, Nat.mul_one]

/-- What a cursor returns of the rows on the pages under a cap, if there is one. -/
def returned (view : IndexView) (request : QueryRequest) (items : List Item) (cap : Option Nat)
    (size : Nat) : List Item :=
  let rows := view.ordered request items
  ((cap.elim rows fun most => rows.take (most * size)).filter
    fun row => request.filter.all (·.holds row)).map (view.present request)

-- Pages that are fetched in full hold the rows up to the cap.
theorem take_cappedPages {view : IndexView} (request : QueryRequest) (items : List Item)
    (cap : Option Nat) {size : Nat} (hsize : 0 < size) :
    ((view.ordered request items).take
        (size * cappedPages cap (view.ordered request items).length size)).filterMap
      (view.result? request) = view.returned request items cap size := by
  have hall := ((pageCount_le_iff hsize).mp
    (Nat.le_refl (pageCount (view.ordered request items).length size))).2
  rw [filterMap_result?, returned]
  congr 2
  cases cap with
  | none => exact List.take_of_length_le hall
  | some most =>
      rw [cappedPages, Option.elim_some, Option.elim_some, Nat.mul_comm most]
      rcases Nat.le_total most (pageCount (view.ordered request items).length size) with
        hle | hge
      · rw [Nat.min_eq_left hle]
      · rw [Nat.min_eq_right hge, List.take_of_length_le hall,
          List.take_of_length_le (Nat.le_trans hall (Nat.mul_le_mul_left size hge))]

end IndexView

/-- What a cursor hands out, and after how many pages it ends. Drained under a page cap and
    a limit, a cursor on a table that does not change returns what satisfies the filter of
    the rows that fit on the pages under the cap, in the order of the scan, and then
    reports whether all rows were parsed or the cap was reached. It fetches as many pages
    as the rows take, or as the cap allows if these are fewer. Without a cap it returns
    all and fetches all. -/
theorem Delivery.drain_under_cap {pageSize : Nat} (hpageSize : 1 ≤ pageSize)
    {writes : List Write} {request : QueryRequest} {table : Table}
    (htable : (MemoryStore.afterWrites pageSize writes).table request.table = .ok table)
    {view : IndexView} (hview : table.view request = .ok view) (hord : view.Orderable table.items)
    (cap : Option Nat) {limit : Option Nat} (hlimit : limit ≠ some 0) (deadline : Option Nat)
    {most : Nat}
    (hmost : pageCount (view.rows request table.items).length (pageRows limit pageSize) ≤ most) :
    let rows := (view.rows request table.items).length
    let size := pageRows limit pageSize
    let returned := view.returned request table.items cap size
    let drained := run (MemoryStore.source request) Codec.raw.decode none
      (MemoryStore.afterWrites pageSize writes)
      (drainCalls cap limit deadline most (returned.length + 1))
    drained.handed = returned.map (fun item => ⟨some item, .ok item⟩) ++
        [⟨none, .error (.parsingComplete (cappedEnd cap rows size))⟩] ∧
      drained.exchanges.length = cappedPages cap rows size ∧
      drained.state.executeCalls = cappedPages cap rows size := by
  intro rows size returned drained
  have hsize : 0 < size := pageRows_pos hlimit hpageSize
  have hrows : (view.ordered request table.items).length = rows :=
    (view.ordered_perm request table.items).length_eq
  have hapart := IndexView.placeOrder_ne_of_sound (MemoryStore.afterWrites_sound htable)
    (Table.table_of_view hview) hord fun _ hitem => hitem
  have hcapped : cappedPages cap rows size ≤ most := Nat.le_trans cappedPages_le hmost
  rcases IndexView.pagesAhead_drop hord hapart request hsize cap (cappedPages cap rows size) 0 none
    (Or.inl rfl) rfl (Nat.lt_of_lt_of_le Nat.zero_lt_one (Nat.le_max_left _ _))
    (by rw [hrows, Nat.zero_add]) with ⟨pages, hahead, hlength, hitems⟩
  rw [Nat.mul_zero, List.drop_zero, ← hrows, IndexView.take_cappedPages request table.items cap
    hsize] at hitems
  rw [hrows] at hahead
  have hdrained := run_drainCalls Codec.raw.decode
    (MemoryStore.afterWrites_steady htable hview (IndexView.sortable_of_orderable hord request))
    (MemoryStore.runQuery_afterWrites hpageSize htable hview hlimit) hahead (hlength ▸ hcapped)
    deadline hitems
  refine ⟨hdrained.handed_eq, hlength ▸ hdrained.exchanges_length, ?_⟩
  calc drained.state.executeCalls =
      (MemoryStore.afterWrites pageSize writes).executeCalls + pages.length :=
        congrArg MemoryStore.executeCalls hdrained.state_eq
    _ = cappedPages cap rows size := by
        rw [MemoryStore.afterWrites_executeCalls, Nat.zero_add, hlength]

/-- The latest films of one director, a film a page and two pages at most. -/
def cappedFilms : Delivery MemoryStore Item :=
  .run (MemoryStore.source latestFilms) Codec.raw.decode none (MemoryStore.afterWrites 2 filmWrites)
    (Delivery.drainCalls (some 2) (some 1) none 3 3)

/-- Two of three films come before the cap is reached. -/
theorem Delivery.drain_under_cap_latestFilms :
    1 ≤ 2 ∧ (MemoryStore.afterWrites 2 filmWrites).table latestFilms.table = .ok filmTable ∧
    filmTable.view latestFilms = .ok filmsByYear ∧ filmsByYear.Orderable filmTable.items ∧
    (some 1 : Option Nat) ≠ some 0 ∧
    pageCount (filmsByYear.rows latestFilms filmTable.items).length (pageRows (some 1) 2) ≤ 3 ∧
    cappedFilms.handed =
      [⟨some (film "a" "z" (some 1990)), .ok (film "a" "z" (some 1990))⟩,
        ⟨some (film "a" "x" (some 1990)), .ok (film "a" "x" (some 1990))⟩,
        ⟨none, .error (.parsingComplete .maxPaginationReached)⟩] ∧
    cappedFilms.exchanges.length = 2 ∧ cappedFilms.state.executeCalls = 2 := by
  have hone : (some 1 : Option Nat) ≠ some 0 := by decide
  have hmost : pageCount (filmsByYear.rows latestFilms filmTable.items).length
      (pageRows (some 1) 2) ≤ 3 := Nat.le_refl 3
  exact ⟨Nat.le_succ 1, afterWrites_filmWrites, rfl, IndexView.orderable_filmTable filmsByYear,
    hone, hmost, drain_under_cap (Nat.le_succ 1) afterWrites_filmWrites rfl
      (IndexView.orderable_filmTable filmsByYear) (some 2) hone none hmost⟩

end WideColumn
