import WideColumn.Proofs.Cursor.Delivery
import WideColumn.Proofs.Store.Writes

/-!
# Pulls That Fail

What is left of a cursor when a pull fails for want of a page.

A fetch that fails leaves the cursor as it is. A pull is more than a fetch: behind
a page without items it asks for the next one, and keeps each page that it goes past.
So a pull that fails has not always done nothing. `step_outage` says what it has done,
whatever the source is: the cursor has received the pages that came in the meantime,
in their order, and these had no items and a key to resume after. It is the cursor
from before the pull just if no page came.

What was received stays received, so the pull after a failed one asks for the page
that did not come and not for those before it. No item is at stake either way, since
no page that came has one.

## Main definitions

* `QueryError.isOutage`: The store gave no page.
* `Cursor.receiveAll`: Receiving pages one after the other.
* `Page.isPassed`: What a pull goes past.

## Theorems

* `receive_isPassed`: A page behind which another is needed was gone past.
* `pull_outage`: The pages that a failed pull has received.
* `step_outage`: When a failed pull leaves the cursor as it was.
* `cursor_ne_lateFilms`: A pull that runs out of time behind a page has kept the page.
-/

namespace WideColumn

/-- The store gave no page: it reported an error, or did not answer in time. -/
def QueryError.isOutage : QueryError → Bool
  | store _ => true
  | timeout => true
  | _ => false

/-- A pull goes past the page: it has no items, and a key to resume after. -/
def Page.isPassed (page : Page) : Bool :=
  page.items.isEmpty && (resumeKey page.lastKey).isSome

namespace Cursor

/-- The cursor with pages that came one after the other, each with the request that
    it is the answer to. -/
def receiveAll (c : Cursor) (received : List (QueryRequest × Page)) : Cursor :=
  received.foldl (fun c r => c.receive r.1 r.2) c

theorem pagesFetched_receiveAll (received : List (QueryRequest × Page)) (c : Cursor) :
    (c.receiveAll received).pagesFetched = c.pagesFetched + received.length := by
  induction received generalizing c with
  | nil => rfl
  | cons r rest ih =>
      have hrest : (c.receiveAll (r :: rest)).pagesFetched =
          c.pagesFetched + 1 + rest.length := ih (c.receive r.1 r.2)
      rw [hrest, List.length_cons]
      omega

-- The count of pages tells how many were received.
theorem receiveAll_eq_self_iff {c : Cursor} {received : List (QueryRequest × Page)} :
    c.receiveAll received = c ↔ received = [] := by
  constructor
  · intro h
    have hcount := congrArg pagesFetched h
    rw [pagesFetched_receiveAll] at hcount
    exact List.eq_nil_of_length_eq_zero (by omega)
  · intro h
    rw [h]
    rfl

/-- A page behind which another one is needed was gone past. -/
theorem receive_isPassed {c : Cursor} {request : QueryRequest} {page : Page}
    (h : (c.receive request page).next = .needsPage) : page.isPassed = true := by
  rcases next_eq_needsPage h with ⟨hitem, hparsed, _⟩
  have hitems : page.items[0]? = none := hitem
  rw [Page.isPassed, Bool.and_eq_true]
  constructor
  · rw [List.isEmpty_iff_length_eq_zero]
    exact Nat.le_zero.mp (List.getElem?_eq_none_iff.mp hitems)
  · -- Without a key the page would have been the last one.
    cases hkey : resumeKey page.lastKey with
    | some key => rfl
    | none =>
        refine absurd ?_ hparsed
        rw [allItemsParsed, receive, hkey]
        simp only [Nat.zero_lt_succ, decide_true, Option.isNone_none, Bool.and_self]

/-- The pages that a pull has received when it fails for want of a page. -/
theorem pull_outage {σ α : Type} (source : Source σ) (decode : Item → Except CodecError α)
    (deadline : Option Nat) (pages : Nat) (c : Cursor) (state : σ) (exchanges : List Exchange)
    {e : QueryError} (he : e.isOutage = true)
    (hfails : (c.pull (source.fetch deadline) pages (state, exchanges)).1.1.record decode =
      .error e) :
    ∃ received : List (QueryRequest × Page),
      (c.pull (source.fetch deadline) pages (state, exchanges)).1.2 = c.receiveAll received ∧
      answeredPages (c.pull (source.fetch deadline) pages (state, exchanges)).2.2 =
        answeredPages exchanges ++ received.map Prod.snd ∧
      ∀ r ∈ received, r.2.isPassed = true := by
  -- Of the pages so far the last may be one that ends the pull. The others were gone past,
  -- and it was as well if yet another one is needed.
  refine pull_induction
    (P := fun _ now s => ∃ received, now = c.receiveAll received ∧
      answeredPages s.2 = answeredPages exchanges ++ received.map Prod.snd ∧
      (now.next = .needsPage → ∀ r ∈ received, r.2.isPassed = true))
    (Q := fun given now s => given.record decode = .error e → ∃ received,
      now = c.receiveAll received ∧
      answeredPages s.2 = answeredPages exchanges ++ received.map Prod.snd ∧
      ∀ r ∈ received, r.2.isPassed = true)
    ?_ ?_ ?_ ?_ ?_ pages c (state, exchanges)
    ⟨[], rfl, by rw [List.map_nil, List.append_nil], fun _ r hr => absurd hr List.not_mem_nil⟩
    hfails
  · -- An item that cannot be decoded is a failure of another kind.
    intro _ _ _ item _ _ hrecord
    rw [Pull.record] at hrecord
    cases hdecode : decode item with
    | ok record =>
        rw [hdecode] at hrecord
        have hok : (.ok record : Except QueryError α) = .error e := hrecord
        exact absurd hok (by simp only [reduceCtorEq, not_false_eq_true])
    | error defect =>
        rw [hdecode] at hrecord
        have hdefect : (.error (.codec defect) : Except QueryError α) = .error e := hrecord
        rw [← Except.error.inj hdefect] at he
        exact absurd he Bool.false_ne_true
  · intro _ _ _ completion _ _ _ hrecord
    rw [Pull.record, Except.error.injEq] at hrecord
    rw [← hrecord] at he
    exact absurd he Bool.false_ne_true
  · rintro _ _ ⟨received, hcursor, hpages, hpassed⟩ hnext _
    exact ⟨received, hcursor, hpages, hpassed hnext⟩
  · rintro _ now s reason after ⟨received, hcursor, hpages, hpassed⟩ hnext hfetch _
    refine ⟨received, hcursor, ?_, hpassed hnext⟩
    rw [← hpages]
    rcases source.fetch_error hfetch with hnone | ⟨planned, _, hexchange⟩
    · rw [hnone]
    · rw [hexchange, answeredPages_error]
  · rintro _ now s request page after ⟨received, hcursor, hpages, hpassed⟩ _ hnext hfetch
    rcases source.fetch_ok hfetch with ⟨planned, _, rfl, hexchange⟩
    refine ⟨received ++ [(now.fetchRequest planned, page)], ?_, ?_, fun hnext' r hr => ?_⟩
    · rw [receiveAll, List.foldl_append, hcursor]
      rfl
    · rw [hexchange, answeredPages_ok, hpages, List.map_append, List.append_assoc]
      rfl
    · rcases List.mem_append.mp hr with hearlier | hlast
      · exact hpassed hnext r hearlier
      · rw [List.mem_singleton.mp hlast]
        exact receive_isPassed hnext'

end Cursor

namespace Delivery

variable {σ α : Type}

/-- When a failed pull leaves the cursor as it was. If a pull of a cursor in use comes
    to an error of the store or to a timeout, then the cursor has received the pages
    that came during the pull, and no others. None of them had an item, and all had a
    key to resume after. So the cursor is as it was before the pull just if no page
    came. -/
theorem step_outage (source : Source σ) (decode : Item → Except CodecError α)
    (d : Delivery σ α) (deadline : Option Nat) (pages : Nat) {e : QueryError}
    (he : e.isOutage = true) {item : Option Item}
    (hfails : (d.step source decode (.pull deadline pages)).handed.getLast? =
      some ⟨item, .error e⟩) :
    ∃ received : List (QueryRequest × Page),
      (d.step source decode (.pull deadline pages)).cursor = d.cursor.receiveAll received ∧
      answeredPages (d.step source decode (.pull deadline pages)).exchanges =
        answeredPages d.exchanges ++ received.map Prod.snd ∧
      (∀ r ∈ received, r.2.isPassed = true) ∧
      ((d.step source decode (.pull deadline pages)).cursor = d.cursor ↔
        answeredPages (d.step source decode (.pull deadline pages)).exchanges =
          answeredPages d.exchanges) := by
  have hpull := fun hrecord => Cursor.pull_outage source decode deadline pages d.cursor d.state
    d.exchanges he hrecord
  rw [step] at hfails ⊢
  generalize d.cursor.pull (source.fetch deadline) pages (d.state, d.exchanges) = pulled
    at hfails hpull ⊢
  rcases pulled with ⟨⟨given, cursor⟩, state, exchanges⟩
  simp only [List.getLast?_concat, Option.some.injEq, Handed.mk.injEq] at hfails
  rcases hpull hfails.2 with ⟨received, hcursor, hpages, hpassed⟩
  simp only at hcursor hpages ⊢
  refine ⟨received, hcursor, hpages, hpassed, ?_⟩
  rw [hcursor, hpages, Cursor.receiveAll_eq_self_iff, List.append_right_eq_self,
    List.map_eq_nil_iff]

/-- A store of films that are a page each, and a page takes ten milliseconds. -/
def lateFilms : MemoryStore :=
  { MemoryStore.afterWrites 1 filmWrites with latency := some 10 }

/-- The rated films of one director. No film has a rating. -/
def ratedFilms : Session.OpenCursor where
  client := ⟨.default, 0⟩
  table := "films"
  expression := .ofCalls [.filter "director" (.equal (.string "a")),
    .filterBy (.attributeExists "rating")]
  form := .raw
  cursor := .fresh

/-- The cursor of rated films before its first pull. -/
def awaitingFilms : Delivery Session.World Item :=
  start none (.start (.memory lateFilms) .default)

/-- The cursor of rated films after a pull that was given 25 milliseconds. The catalog
    takes ten of them and the first page another ten. -/
def timedOutFilms : Delivery Session.World Item :=
  awaitingFilms.step (Session.Run.source ratedFilms) Codec.raw.decode (.pull (some 25) 3)

/-- The pull received the first page of films before it ran out of time. -/
theorem step_outage_lateFilms :
    QueryError.timeout.isOutage = true ∧
    timedOutFilms.handed.getLast? = some ⟨none, .error .timeout⟩ ∧
    ∃ received : List (QueryRequest × Page),
      timedOutFilms.cursor = awaitingFilms.cursor.receiveAll received ∧
      answeredPages timedOutFilms.exchanges =
        answeredPages awaitingFilms.exchanges ++ received.map Prod.snd ∧
      (∀ r ∈ received, r.2.isPassed = true) ∧
      (timedOutFilms.cursor = awaitingFilms.cursor ↔
        answeredPages timedOutFilms.exchanges = answeredPages awaitingFilms.exchanges) :=
  ⟨rfl, rfl, step_outage (Session.Run.source ratedFilms) Codec.raw.decode awaitingFilms (some 25)
    3 rfl rfl⟩

/-- A pull that comes to a timeout and does not leave the cursor as it was. What it
    counts, where it resumes, the request it keeps and its state are others. -/
theorem cursor_ne_lateFilms :
    timedOutFilms.handed = [⟨none, .error .timeout⟩] ∧
    awaitingFilms.cursor.state = .fresh ∧ timedOutFilms.cursor.state = .filled ∧
    awaitingFilms.cursor.pagesFetched = 0 ∧ timedOutFilms.cursor.pagesFetched = 1 ∧
    awaitingFilms.cursor.startKey = none ∧
    timedOutFilms.cursor.startKey =
      some [("director", .string "a"), ("title", .string "x")] ∧
    awaitingFilms.cursor.request.isNone = true ∧ timedOutFilms.cursor.request.isSome = true ∧
    timedOutFilms.cursor ≠ awaitingFilms.cursor := by
  refine ⟨rfl, rfl, rfl, rfl, rfl, rfl, rfl, rfl, rfl, fun h => ?_⟩
  have hpages : timedOutFilms.cursor.pagesFetched = awaitingFilms.cursor.pagesFetched :=
    congrArg Cursor.pagesFetched h
  exact absurd hpages Nat.one_ne_zero

end Delivery

end WideColumn
