import WideColumn.Proofs.Cursor.Delivery

/-!
# States of a Cursor

The state of a cursor says what the next pull will do.

`Cursor.state` and `Cursor.next` decide the same questions in two chains of tests. One asks
for the position and the other for the item there, and only one asks whether a page has come
at all. `state_cases` puts the chains side by side. It leaves one thing open, which no chain
can see: a page that has items is a page that came. That is an invariant of use.

The invariant has to be kept by all that a caller can do, which is more than the calls of a
`Delivery`. A caller may also set the key to resume after between any two pulls. In
`Steering` this may happen, and what was set since the last page is written down, since the
cursor itself does not tell such a key from one that a page brought. `Cursor.Holds` is what
the cursor then is: the last page, less what was given away of it, and the key that stands.

How often a pull asks for a page is counted by its source (`counting`), so nothing needs to
be known of what the source answers.

## Main definitions

* `CursorUse`, `Steering`, `Steering.run`: A cursor in use whose caller sets keys as well.
* `Cursor.standingKey`: The key that was set, or the one of the last page.
* `Cursor.Holds`: What holds of a cursor at any time.
* `Completion.state`: The state that a completion is reported in.
* `Cursor.fetches`: How often a pull asks for a page.
* `Cursor.Foretells`: The state of a cursor says what a pull will do.

## Theorems

* `pull_holds`, `run_holds`: What every use keeps.
* `state_cases`: The state next to what comes next.
* `fetches_pos`, `fetches_eq_zero`: When a pull asks for a page.
* `run_foretells`: At any time the state says what the next pull will do.
-/

namespace WideColumn

/-- What a caller does to a cursor: a call, or setting the key to resume after. -/
inductive CursorUse where
  | call (call : CursorCall)
  | setStartKey (key : Item)

/-- A cursor in use whose caller may set the key to resume after at any time. -/
structure Steering (σ α : Type) where
  delivery : Delivery σ α
  /-- The key that the caller set last, if it was since the last page came. -/
  chosen : Option Item

/-- The key that the caller has set is given up when a page comes. -/
def keptKey (before after : List Exchange) (chosen : Option Item) : Option Item :=
  if (answeredPages after).length = (answeredPages before).length then chosen else none

namespace Steering

variable {σ α : Type}

/-- A cursor that has fetched nothing. -/
def start (state : σ) : Steering σ α where
  delivery := .start none state
  chosen := none

/-- One use. A key that was set stands until a page comes. -/
def step (source : Source σ) (decode : Item → Except CodecError α) (s : Steering σ α) :
    CursorUse → Steering σ α
  | .call call =>
    let delivery := s.delivery.step source decode call
    { delivery, chosen := keptKey s.delivery.exchanges delivery.exchanges s.chosen }
  | .setStartKey key =>
    { delivery := { s.delivery with cursor := s.delivery.cursor.setStartKey key }
      chosen := some key }

/-- The uses in turn, from a cursor that has fetched nothing. -/
def run (source : Source σ) (decode : Item → Except CodecError α) (state : σ)
    (uses : List CursorUse) : Steering σ α :=
  uses.foldl (step source decode) (start state)

end Steering

namespace Cursor

/-- The key to resume after: the one that the caller set since the last page, or else the
    one of that page. -/
def standingKey (chosen : Option Item) (exchanges : List Exchange) : Option Item :=
  match chosen with
  | some key => resumeKey (some key)
  | none => keyAfter none exchanges

/-- What holds of a cursor at any time, given the exchanges, the items that were given away
    and the key that the caller set. -/
structure Holds (exchanges : List Exchange) (consumed : List Item) (chosen : Option Item)
    (c : Cursor) : Prop extends c.Accounts exchanges consumed where
  page_eq : c.page = ((answeredPages exchanges).getLast?.map (·.items)).getD []
  startKey_eq : c.startKey = standingKey chosen exchanges

section

variable {exchanges : List Exchange} {consumed : List Item} {chosen : Option Item} {c : Cursor}

-- A fetch that fails leaves the cursor as it is.
theorem Holds.exchange_error (h : c.Holds exchanges consumed chosen) (request : QueryRequest)
    (e : QueryError) : c.Holds (exchanges ++ [⟨request, .error e⟩]) consumed chosen := by
  have hkey : standingKey chosen (exchanges ++ [⟨request, .error e⟩]) =
      standingKey chosen exchanges := by
    cases chosen with
    | some key => rfl
    | none => exact keyAfter_error none exchanges request e
  refine ⟨h.toAccounts.exchange_error request e, ?_, h.startKey_eq.trans hkey.symm⟩
  rw [answeredPages_error]
  exact h.page_eq

-- A page that comes brings a key with it, and the caller's is given up.
theorem Holds.exchange_ok (h : c.Holds exchanges consumed chosen)
    (hdone : c.page[c.position]? = none) (request : QueryRequest) (page : Page) :
    (c.receive request page).Holds (exchanges ++ [⟨request, .ok page⟩]) consumed none := by
  refine ⟨h.toAccounts.exchange_ok hdone request page, ?_, ?_⟩
  · rw [answeredPages_ok, List.getLast?_concat]
    rfl
  · rw [standingKey, keyAfter_ok]
    rfl

theorem Holds.give (h : c.Holds exchanges consumed chosen) {item : Item}
    (hitem : c.page[c.position]? = some item) :
    Holds exchanges (consumed ++ [item]) chosen { c with position := c.position + 1 } :=
  ⟨h.toAccounts.give hitem, h.page_eq, h.startKey_eq⟩

/-- A pull keeps what holds of a cursor. The key that the caller set stands for as long as
    no page comes. -/
theorem pull_holds {σ : Type} (source : Source σ) (deadline : Option Nat) (pages : Nat)
    (h : c.Holds exchanges consumed chosen) (state : σ) :
    (c.pull (source.fetch deadline) pages (state, exchanges)).1.2.Holds
      (c.pull (source.fetch deadline) pages (state, exchanges)).2.2
      (consumed ++
        (c.pull (source.fetch deadline) pages (state, exchanges)).1.1.item?.toList)
      (keptKey exchanges (c.pull (source.fetch deadline) pages (state, exchanges)).2.2 chosen) := by
  -- All ends but one give no item away.
  have hnothing : ∀ {now : Cursor} {exchanges : List Exchange} {chosen : Option Item},
      now.Holds exchanges consumed chosen →
        now.Holds exchanges (consumed ++ (none : Option Item).toList) chosen := by
    intro now exchanges chosen h
    rw [Option.toList_none, List.append_nil]
    exact h
  -- Pages only become more, so a key that was given up does not come back.
  refine pull_induction
    (P := fun _ now s => (answeredPages exchanges).length ≤ (answeredPages s.2).length ∧
      now.Holds s.2 consumed (keptKey exchanges s.2 chosen))
    (Q := fun given now s => now.Holds s.2 (consumed ++ given.item?.toList)
      (keptKey exchanges s.2 chosen))
    ?_ ?_ ?_ ?_ ?_ pages c (state, exchanges) ⟨Nat.le_refl _, ?_⟩
  · exact fun _ _ _ _ hnow hitem => hnow.2.give hitem
  · exact fun _ _ _ _ hnow _ _ => hnothing hnow.2
  · exact fun _ _ hnow _ => hnothing hnow.2
  · intro _ now s e after hnow _ hfetch
    rcases source.fetch_error hfetch with hnone | ⟨planned, _, hexchange⟩
    · rw [hnone]
      exact hnothing hnow.2
    · rw [hexchange, keptKey, answeredPages_error]
      exact hnothing (hnow.2.exchange_error _ e)
  · intro _ now s request page after hnow hdone _ hfetch
    rcases source.fetch_ok hfetch with ⟨planned, _, rfl, hexchange⟩
    have hmore : (answeredPages exchanges).length < (answeredPages after.2).length := by
      rw [hexchange, answeredPages_ok, List.length_append]
      exact Nat.lt_succ_of_le hnow.1
    refine ⟨Nat.le_of_lt hmore, ?_⟩
    rw [keptKey, if_neg (Nat.ne_of_gt hmore), hexchange]
    exact hnow.2.exchange_ok hdone _ page
  · rw [keptKey, if_pos rfl]
    exact h

end

end Cursor

namespace Steering

variable {σ α : Type}

/-- What holds of the cursor of a steering at any time. -/
def Holds (s : Steering σ α) : Prop :=
  s.delivery.cursor.Holds s.delivery.exchanges s.delivery.consumed s.chosen

theorem start_holds (state : σ) : (start state : Steering σ α).Holds :=
  ⟨⟨Nat.le_refl 0, rfl, rfl⟩, rfl, rfl⟩

-- Every use keeps what holds of the cursor.
theorem step_holds (source : Source σ) (decode : Item → Except CodecError α) {s : Steering σ α}
    (h : s.Holds) (next : CursorUse) : (s.step source decode next).Holds := by
  cases next with
  | setStartKey key =>
      exact ⟨⟨h.position_le, h.delivered, h.pagesFetched_eq⟩, h.page_eq, rfl⟩
  | call call =>
      cases call with
      | pull deadline pages =>
          have hpull := Cursor.pull_holds source deadline pages h s.delivery.state
          rw [step, Delivery.step, Holds]
          generalize s.delivery.cursor.pull (source.fetch deadline) pages
            (s.delivery.state, s.delivery.exchanges) = pulled at hpull ⊢
          rcases pulled with ⟨⟨given, cursor⟩, state, exchanges⟩
          rw [Delivery.consumed, List.filterMap_append]
          cases hgiven : given.item? with
          | none =>
              rw [hgiven] at hpull
              exact hpull
          | some item =>
              rw [hgiven] at hpull
              exact hpull
      -- No page comes in the other calls, so the key stands.
      | _ =>
          refine ⟨⟨h.position_le, h.delivered, h.pagesFetched_eq⟩, h.page_eq, ?_⟩
          rw [step, keptKey, Delivery.step, if_pos rfl]
          exact h.startKey_eq

/-- Whatever is done to a cursor, it is at what is left of the last page, has counted the
    pages, and resumes after the key that stands. -/
theorem run_holds (source : Source σ) (decode : Item → Except CodecError α) (state : σ)
    (uses : List CursorUse) : (run source decode state uses).Holds := by
  have hfold : ∀ (rest : List CursorUse) (s : Steering σ α), s.Holds →
      (rest.foldl (step source decode) s).Holds := by
    intro rest
    induction rest with
    | nil => exact fun _ h => h
    | cons next rest ih => exact fun s h => ih _ (step_holds source decode h next)
  exact hfold uses _ (start_holds state)

end Steering

/-- The state that a completion is reported in. -/
def Completion.state : Completion → CursorState
  | allItemsParsed => .exhausted
  | maxPaginationReached => .capped

theorem Completion.state_inj {a b : Completion} : a.state = b.state ↔ a = b := by
  cases a <;> cases b <;> decide

theorem Completion.state_ne_fresh (completion : Completion) : completion.state ≠ .fresh := by
  cases completion <;> decide

theorem Completion.state_ne_filled (completion : Completion) : completion.state ≠ .filled := by
  cases completion <;> decide

namespace Cursor

/-- The state of a cursor next to what comes next. -/
theorem state_cases (c : Cursor) :
    (∃ item, c.page[c.position]? = some item ∧ c.state = .filled ∧
      c.next = .item item { c with position := c.position + 1 }) ∨
    (∃ completion : Completion, c.state = completion.state ∧ c.next = .complete completion) ∨
    (c.state = (if c.pagesFetched = 0 then .fresh else .filled) ∧ c.next = .needsPage) := by
  unfold state next
  by_cases hitem : c.position < c.page.length
  · rw [List.getElem?_eq_getElem hitem, if_pos hitem]
    exact Or.inl ⟨_, rfl, rfl, rfl⟩
  · rw [List.getElem?_eq_none (Nat.le_of_not_lt hitem), if_neg hitem]
    refine Or.inr ?_
    by_cases hparsed : c.allItemsParsed = true
    · rw [if_pos hparsed]
      exact Or.inl ⟨.allItemsParsed, rfl, by simp only [if_pos hparsed]⟩
    · rw [if_neg hparsed]
      by_cases hcapped : c.maxPaginationReached = true
      · rw [if_pos hcapped]
        exact Or.inl ⟨.maxPaginationReached, rfl, by simp only [if_neg hparsed, if_pos hcapped]⟩
      · rw [if_neg hcapped]
        exact Or.inr ⟨rfl, by simp only [if_neg hparsed, if_neg hcapped]⟩

section

variable {τ : Type} (fetch : Cursor → StateM τ (Except QueryError (QueryRequest × Page)))

/-- Fetching, with the fetches counted. -/
def counting (c : Cursor) : StateM (τ × Nat) (Except QueryError (QueryRequest × Page)) :=
  fun (s, count) =>
    let (answer, after) := fetch c s
    (answer, (after, count + 1))

/-- How often a pull asks for a page. -/
def fetches (pages : Nat) (c : Cursor) (s : τ) : Nat :=
  (c.pull (counting fetch) pages (s, 0)).2.2

-- Fetches only become more.
theorem le_count_pull (pages : Nat) (c : Cursor) (s : τ) (count : Nat) :
    count ≤ (c.pull (counting fetch) pages (s, count)).2.2 := by
  refine pull_induction (P := fun _ _ now => count ≤ now.2) (Q := fun _ _ now => count ≤ now.2)
    ?_ ?_ ?_ ?_ ?_ pages c (s, count) (Nat.le_refl count)
  · exact fun _ _ _ _ h _ => h
  · exact fun _ _ _ _ h _ _ => h
  · exact fun _ _ h _ => h
  · intro _ _ now _ after h _ hfetch
    rw [← (Prod.mk.inj hfetch).2]
    exact Nat.le_succ_of_le h
  · intro _ _ now _ _ after h _ _ hfetch
    rw [← (Prod.mk.inj hfetch).2]
    exact Nat.le_succ_of_le h

variable {fetch} {c : Cursor}

/-- A pull that needs a page and may fetch one asks for it, whatever the answer will be. -/
theorem fetches_pos (h : c.next = .needsPage) (pages : Nat) (s : τ) :
    0 < c.fetches fetch (pages + 1) s := by
  have hcounted : counting fetch c (s, 0) = ((fetch c s).1, ((fetch c s).2, 1)) := rfl
  rw [fetches]
  cases hanswer : (fetch c s).1 with
  | error e =>
      rw [hanswer] at hcounted
      rw [pull_of_failed h pages hcounted]
      exact Nat.one_pos
  | ok received =>
      rw [hanswer] at hcounted
      rw [pull_of_page h pages hcounted]
      exact le_count_pull fetch pages _ _ 1

/-- A pull that needs no page asks for none. -/
theorem fetches_eq_zero (h : c.next ≠ .needsPage) (pages : Nat) (s : τ) :
    c.fetches fetch pages s = 0 := by
  rw [fetches]
  rcases next_cases c with ⟨item, _, hnext⟩ | ⟨_, ⟨completion, hnext⟩ | hnext⟩
  · rw [pull_of_item _ _ hnext]
    rfl
  · rw [pull_of_complete _ _ hnext]
    rfl
  · exact absurd hnext h

end

/-- The state of a cursor says what a pull will do that may fetch a page. The cursor has
    received the given pages. -/
structure Foretells {τ α : Type}
    (fetch : Cursor → StateM τ (Except QueryError (QueryRequest × Page)))
    (decode : Item → Except CodecError α) (received : List Page) (pages : Nat) (s : τ)
    (c : Cursor) : Prop where
  complete : ∀ completion : Completion, c.state = completion.state ↔
    (c.pull fetch pages s).1.1.record decode = .error (.parsingComplete completion) ∧
      c.fetches fetch pages s = 0
  fresh : c.state = .fresh ↔ received = [] ∧ 0 < c.fetches fetch pages s
  filled : c.state = .filled ↔ received ≠ [] ∧
    ((∃ item, c.page[c.position]? = some item ∧
        c.pull fetch pages s = ((.item item, { c with position := c.position + 1 }), s)) ∨
      0 < c.fetches fetch pages s)
  unchanged : ∀ completion : Completion, c.state = completion.state →
    (c.pull fetch pages s).1.2 = c ∧ (c.pull fetch pages s).2 = s

-- What is made of an item is a record, or a defect in it, and not the end.
theorem Pull.record_item_ne_complete {α : Type} (decode : Item → Except CodecError α) (item : Item)
    (completion : Completion) :
    (Pull.item item).record decode ≠ .error (.parsingComplete completion) := by
  intro hcomplete
  rw [record] at hcomplete
  cases hdecode : decode item with
  | ok record =>
      rw [hdecode] at hcomplete
      have hok : (.ok record : Except QueryError α) = .error (.parsingComplete completion) :=
        hcomplete
      exact absurd hok (by simp only [reduceCtorEq, not_false_eq_true])
  | error defect =>
      rw [hdecode] at hcomplete
      have hdefect : QueryError.codec defect = .parsingComplete completion :=
        Except.error.inj hcomplete
      exact absurd hdefect (by simp only [reduceCtorEq, not_false_eq_true])

section

variable {exchanges : List Exchange} {consumed : List Item} {chosen : Option Item} {c : Cursor}
  (h : c.Holds exchanges consumed chosen) {τ α : Type}
  (fetch : Cursor → StateM τ (Except QueryError (QueryRequest × Page)))
  (decode : Item → Except CodecError α) (pages : Nat) (s : τ)

include h

theorem Holds.foretells_item {item : Item} (hitem : c.page[c.position]? = some item)
    (hstate : c.state = .filled)
    (hnext : c.next = .item item { c with position := c.position + 1 }) :
    c.Foretells fetch decode (answeredPages exchanges) pages s := by
  have hpull : c.pull fetch pages s =
      ((.item item, { c with position := c.position + 1 }), s) := by
    rw [pull_of_item fetch pages hnext]
    rfl
  -- An item is in a page, so a page has come.
  have hreceived : answeredPages exchanges ≠ [] := by
    intro hnil
    rw [h.page_eq, hnil] at hitem
    exact absurd hitem (by simp only [List.getLast?_nil, Option.map_none, Option.getD_none,
      List.getElem?_nil, reduceCtorEq, not_false_eq_true])
  have hends : ∀ completion : Completion, c.state ≠ completion.state := fun completion => by
    rw [hstate]
    exact completion.state_ne_filled.symm
  constructor
  · intro completion
    refine iff_of_false (hends completion) fun hcomplete => ?_
    rw [hpull] at hcomplete
    exact Pull.record_item_ne_complete decode item completion hcomplete.1
  · rw [hstate]
    exact iff_of_false (by decide) fun hfresh => hreceived hfresh.1
  · exact iff_of_true hstate ⟨hreceived, Or.inl ⟨item, hitem, hpull⟩⟩
  · exact fun completion hcomplete => absurd hcomplete (hends completion)

omit h in
theorem foretells_complete (received : List Page) {completion : Completion}
    (hstate : c.state = completion.state) (hnext : c.next = .complete completion) :
    c.Foretells fetch decode received pages s := by
  have hpull : c.pull fetch pages s = ((.failed (.parsingComplete completion), c), s) := by
    rw [pull_of_complete fetch pages hnext]
    rfl
  have hfetches : c.fetches fetch pages s = 0 :=
    fetches_eq_zero (by simp only [hnext, ne_eq, reduceCtorEq, not_false_eq_true]) pages s
  constructor
  · intro other
    rw [hstate, Completion.state_inj, hpull, Pull.record, Except.error.injEq,
      QueryError.parsingComplete.injEq, hfetches]
    exact (and_iff_left rfl).symm
  · rw [hstate]
    exact iff_of_false completion.state_ne_fresh fun hfresh => Nat.ne_of_gt hfresh.2 hfetches
  · rw [hstate]
    refine iff_of_false completion.state_ne_filled ?_
    rintro ⟨_, ⟨item, _, hitem⟩ | hfetched⟩
    · rw [hpull, Prod.mk.injEq, Prod.mk.injEq] at hitem
      exact absurd hitem.1.1 (by simp only [reduceCtorEq, not_false_eq_true])
    · exact Nat.ne_of_gt hfetched hfetches
  · intro _ _
    rw [hpull]
    exact ⟨rfl, rfl⟩

theorem Holds.foretells_page (hnext : c.next = .needsPage)
    (hstate : c.state = if c.pagesFetched = 0 then .fresh else .filled) :
    c.Foretells fetch decode (answeredPages exchanges) (pages + 1) s := by
  have hfetches : 0 < c.fetches fetch (pages + 1) s := fetches_pos hnext pages s
  have hcount : answeredPages exchanges = [] ↔ c.pagesFetched = 0 := by
    rw [h.pagesFetched_eq, List.length_eq_zero_iff]
  have hends : ∀ completion : Completion, c.state ≠ completion.state := fun completion => by
    rw [hstate]
    split
    · exact completion.state_ne_fresh.symm
    · exact completion.state_ne_filled.symm
  constructor
  · exact fun completion => iff_of_false (hends completion) fun hcomplete =>
      Nat.ne_of_gt hfetches hcomplete.2
  · rw [hstate, hcount]
    by_cases hzero : c.pagesFetched = 0
    · rw [if_pos hzero]
      exact iff_of_true rfl ⟨hzero, hfetches⟩
    · rw [if_neg hzero]
      exact iff_of_false (by decide) fun hfresh => hzero hfresh.1
  · rw [hstate, Ne, hcount]
    by_cases hzero : c.pagesFetched = 0
    · rw [if_pos hzero]
      exact iff_of_false (by decide) fun hfilled => hfilled.1 hzero
    · rw [if_neg hzero]
      exact iff_of_true rfl ⟨hzero, Or.inr hfetches⟩
  · exact fun completion hcomplete => absurd hcomplete (hends completion)

/-- The state says what a pull will do, whatever is fetched by it and however items are
    decoded. -/
theorem Holds.foretells : c.Foretells fetch decode (answeredPages exchanges) (pages + 1) s := by
  rcases state_cases c with
    ⟨item, hitem, hstate, hnext⟩ | ⟨completion, hstate, hnext⟩ | ⟨hstate, hnext⟩
  · exact h.foretells_item fetch decode (pages + 1) s hitem hstate hnext
  · exact foretells_complete fetch decode (pages + 1) s _ hstate hnext
  · exact h.foretells_page fetch decode pages s hnext hstate

end

end Cursor

/-- At any time the state of a cursor says what the next pull will do. Whatever its caller
    has done to the cursor and whatever was fetched for it, it gave away no more than its
    page has. It is in the state of a completion just if the pull reports that completion
    without asking for a page, and the pull then changes nothing. It is fresh just if no page
    has come and the pull asks for one, and filled just if a page has come and the pull gives
    an item of it away or asks for another page. -/
theorem Steering.run_foretells {σ α : Type} (source : Source σ)
    (decode : Item → Except CodecError α) (state : σ) (uses : List CursorUse) {τ β : Type}
    (fetch : Cursor → StateM τ (Except QueryError (QueryRequest × Page)))
    (decodeNext : Item → Except CodecError β) (pages : Nat) (s : τ) :
    (run source decode state uses).delivery.cursor.position ≤
      (run source decode state uses).delivery.cursor.page.length ∧
    (run source decode state uses).delivery.cursor.Foretells fetch decodeNext
      (answeredPages (run source decode state uses).delivery.exchanges) (pages + 1) s := by
  have h := run_holds source decode state uses
  exact ⟨h.position_le, h.foretells fetch decodeNext pages s⟩

end WideColumn
