import WideColumn.Session.World

/-!
# Delivery by a Cursor

A cursor gives every item that it fetches exactly once, whatever the store does.

The store is a `Source`: a plan and an answer for each request, both out of a
state of which nothing is known. It may answer anything, and answer differently
when it is asked the same again, so what holds of every source holds of every
store, slow or failing or lying about keys. What was asked and answered is written
down next to the state as a list of exchanges, and the statements are about that
list.

`Cursor.Delivers` ties the fields of a cursor to the exchanges. A pull changes
both many times, since it goes through any number of empty pages and can fail
behind each of them. So the invariant is kept by one exchange, with
`exchange_ok` and `exchange_error` for the two ways it can go, and by giving one
item away, and what a pull does is a row of these.

## Main definitions

* `Exchange`, `answeredPages`: Requests with answers, and the pages among them.
* `keyAfter`, `firstAnswered`: What exchanges say about the next request.
* `Source`: What plans and answers requests.
* `Session.Run.source`: The source of a cursor in a session.
* `Delivery`, `Delivery.run`: A cursor in use.
* `Cursor.Delivers`: What holds of a cursor at any time.
* `Cursor.Accounts`: What of this holds whatever the cursor resumes after.

## Theorems

* `fetch_spec`: What one fetch adds to the exchanges.
* `exchange_ok`, `exchange_error`: What an exchange keeps.
* `pull_induction`: What a pull comes to, by the pages it goes through.
* `pull_logged`: Writing exchanges down changes nothing.
* `pull_delivers`: What a pull keeps.
* `run_delivers`: Every fetched item is given exactly once, in order.
-/

namespace WideColumn

/-- A request and what it was answered with. -/
structure Exchange where
  request : QueryRequest
  answer : Except QueryError Page

/-- The pages among the answers. -/
def answeredPages (exchanges : List Exchange) : List Page :=
  exchanges.filterMap fun e => e.answer.toOption

/-- The key that the last page reported, or the one that the caller set if there is
    no page. The empty key is none. -/
def keyAfter (opening : Option Item) (exchanges : List Exchange) : Option Item :=
  match (answeredPages exchanges).getLast? with
  | some page => resumeKey page.lastKey
  | none => resumeKey opening

/-- The first exchange that was answered with a page. -/
def firstAnswered (exchanges : List Exchange) : Option Exchange :=
  exchanges.find? fun e => e.answer.toOption.isSome

/-- A request without what differs from page to page. -/
def QueryRequest.unpaged (request : QueryRequest) : QueryRequest :=
  { request with limit := none, startKey := none }

/-- What plans and answers the requests of a cursor, each call under a deadline. Both
    depend on a state and change it. -/
structure Source (σ : Type) where
  plan : Option Nat → StateM σ (Except QueryError QueryRequest)
  execute : Option Nat → QueryRequest → StateM σ (Except QueryError Page)

namespace Source

variable {σ : Type}

/-- The plan, with the exchanges carried along. -/
def planLogged (source : Source σ) (deadline : Option Nat) :
    StateM (σ × List Exchange) (Except QueryError QueryRequest) := fun (state, exchanges) =>
  let (planned, state) := source.plan deadline state
  (planned, (state, exchanges))

theorem planLogged_of_plan (source : Source σ) {deadline : Option Nat} {state after : σ}
    {planned : Except QueryError QueryRequest}
    (h : source.plan deadline state = (planned, after)) (exchanges : List Exchange) :
    source.planLogged deadline (state, exchanges) = (planned, (after, exchanges)) := by
  rw [planLogged, h]

/-- The answer, with the exchange written down. -/
def executeLogged (source : Source σ) (deadline : Option Nat) (request : QueryRequest) :
    StateM (σ × List Exchange) (Except QueryError Page) := fun (state, exchanges) =>
  let (answer, state) := source.execute deadline request state
  (answer, (state, exchanges ++ [⟨request, answer⟩]))

/-- The next page of a cursor from the source. -/
def fetch (source : Source σ) (deadline : Option Nat) (c : Cursor) :
    StateM (σ × List Exchange) (Except QueryError (QueryRequest × Page)) :=
  c.fetch (source.planLogged deadline) (source.executeLogged deadline)

/-- What one fetch adds to the exchanges: nothing if there is no plan, and otherwise
    the request that the plan comes to. A cursor that keeps a request takes that for
    the plan. -/
theorem fetch_spec (source : Source σ) (deadline : Option Nat) (c : Cursor) (state : σ)
    (exchanges : List Exchange) :
    (∃ e after, source.fetch deadline c (state, exchanges) = (.error e, (after, exchanges))) ∨
    ∃ planned answer after, (∀ kept, c.request = some kept → planned = kept) ∧
      source.fetch deadline c (state, exchanges) =
        (answer.map fun page => (c.fetchRequest planned, page),
          (after, exchanges ++ [⟨c.fetchRequest planned, answer⟩])) := by
  unfold fetch Cursor.fetch Cursor.planned
  cases hrequest : c.request with
  | some kept =>
      refine Or.inr ⟨kept, (source.execute deadline (c.fetchRequest kept) state).1,
        (source.execute deadline (c.fetchRequest kept) state).2, ?_, rfl⟩
      intro other hother
      exact Option.some.inj hother
  | none =>
      cases hplan : source.plan deadline state with
      | mk planned after =>
          have hlogged := source.planLogged_of_plan hplan exchanges
          -- Nothing is asked of the store before there is a plan.
          cases planned with
          | error e =>
              refine Or.inl ⟨e, after, ?_⟩
              simp only [bind, StateT.bind, hlogged]
              rfl
          | ok planned =>
              refine Or.inr ⟨planned, (source.execute deadline (c.fetchRequest planned) after).1,
                (source.execute deadline (c.fetchRequest planned) after).2, ?_, ?_⟩
              · intro kept hkept
                exact absurd hkept (by simp)
              · simp only [bind, StateT.bind, hlogged]
                rfl

-- What a fetch leaves behind that fails: at most the exchange that failed.
theorem fetch_error (source : Source σ) {deadline : Option Nat} {c : Cursor}
    {s after : σ × List Exchange} {e : QueryError}
    (h : source.fetch deadline c s = (.error e, after)) :
    after.2 = s.2 ∨ ∃ planned, (∀ kept, c.request = some kept → planned = kept) ∧
      after.2 = s.2 ++ [⟨c.fetchRequest planned, .error e⟩] := by
  rcases source.fetch_spec deadline c s.1 s.2 with
    ⟨_, state, hplan⟩ | ⟨planned, answer, state, hkept, hanswer⟩
  · rw [hplan, Prod.mk.injEq] at h
    exact Or.inl (by rw [← h.2])
  · rw [hanswer, Prod.mk.injEq] at h
    cases answer with
    | ok page => exact absurd h.1 (by simp only [Except.map, reduceCtorEq, not_false_eq_true])
    | error reason =>
        rw [Except.map, Except.error.injEq] at h
        exact Or.inr ⟨planned, hkept, by rw [← h.2, h.1]⟩

-- What a fetch leaves behind that brings a page.
theorem fetch_ok (source : Source σ) {deadline : Option Nat} {c : Cursor}
    {s after : σ × List Exchange} {request : QueryRequest} {page : Page}
    (h : source.fetch deadline c s = (.ok (request, page), after)) :
    ∃ planned, (∀ kept, c.request = some kept → planned = kept) ∧
      request = c.fetchRequest planned ∧
      after.2 = s.2 ++ [⟨c.fetchRequest planned, .ok page⟩] := by
  rcases source.fetch_spec deadline c s.1 s.2 with
    ⟨_, state, hplan⟩ | ⟨planned, answer, state, hkept, hanswer⟩
  · rw [hplan, Prod.mk.injEq] at h
    exact absurd h.1 (by simp only [reduceCtorEq, not_false_eq_true])
  · rw [hanswer, Prod.mk.injEq] at h
    cases answer with
    | error reason => exact absurd h.1 (by simp only [Except.map, reduceCtorEq,
        not_false_eq_true])
    | ok received =>
        rw [Except.map, Except.ok.injEq, Prod.mk.injEq] at h
        exact ⟨planned, hkept, h.1.1.symm, by rw [← h.2, h.1.2]⟩

-- Writing exchanges down changes neither the answer nor the state.
theorem fetch_logged (source : Source σ) (deadline : Option Nat) (c : Cursor) (state : σ)
    (exchanges : List Exchange) :
    c.fetch (source.plan deadline) (source.execute deadline) state =
      ((source.fetch deadline c (state, exchanges)).1,
        (source.fetch deadline c (state, exchanges)).2.1) := by
  unfold fetch Cursor.fetch Cursor.planned
  cases c.request with
  | some kept => rfl
  | none =>
      cases hplan : source.plan deadline state with
      | mk planned after =>
          have hlogged := source.planLogged_of_plan hplan exchanges
          simp only [bind, StateT.bind, hlogged, hplan]
          cases planned <;> rfl

end Source

section

variable (opening : Option Item) (exchanges : List Exchange) (request : QueryRequest)

theorem answeredPages_ok (page : Page) :
    answeredPages (exchanges ++ [⟨request, .ok page⟩]) = answeredPages exchanges ++ [page] := by
  rw [answeredPages, List.filterMap_append]
  rfl

theorem answeredPages_error (e : QueryError) :
    answeredPages (exchanges ++ [⟨request, .error e⟩]) = answeredPages exchanges := by
  rw [answeredPages, List.filterMap_append]
  exact List.append_nil _

theorem keyAfter_ok (page : Page) :
    keyAfter opening (exchanges ++ [⟨request, .ok page⟩]) = resumeKey page.lastKey := by
  rw [keyAfter, answeredPages_ok, List.getLast?_concat]

theorem keyAfter_error (e : QueryError) :
    keyAfter opening (exchanges ++ [⟨request, .error e⟩]) = keyAfter opening exchanges := by
  rw [keyAfter, answeredPages_error, keyAfter]

theorem firstAnswered_ok (page : Page) :
    firstAnswered (exchanges ++ [⟨request, .ok page⟩]) =
      some ((firstAnswered exchanges).getD ⟨request, .ok page⟩) := by
  rw [firstAnswered, List.find?_append, firstAnswered]
  cases exchanges.find? fun e => e.answer.toOption.isSome <;> rfl

theorem firstAnswered_error (e : QueryError) :
    firstAnswered (exchanges ++ [⟨request, .error e⟩]) = firstAnswered exchanges := by
  rw [firstAnswered, List.find?_append, firstAnswered]
  cases exchanges.find? fun e => e.answer.toOption.isSome <;> rfl

end

/-- The requests of the exchanges: each resumes after the key that stood when it was
    sent, and agrees with the first one that was answered with a page, if there was
    one before, in all but what differs from page to page. -/
def RequestsFollow (opening : Option Item) (exchanges : List Exchange) : Prop :=
  ∀ before e after, exchanges = before ++ e :: after →
    e.request.startKey = keyAfter opening before ∧
    ∀ first, firstAnswered before = some first → e.request.unpaged = first.request.unpaged

-- One more request that follows.
theorem RequestsFollow.concat {opening : Option Item} {exchanges : List Exchange}
    (h : RequestsFollow opening exchanges) {e : Exchange}
    (hkey : e.request.startKey = keyAfter opening exchanges)
    (hplan : ∀ first, firstAnswered exchanges = some first →
      e.request.unpaged = first.request.unpaged) :
    RequestsFollow opening (exchanges ++ [e]) := by
  intro before other after hsplit
  -- Either nothing follows, and the request is the new one, or the new one comes last of
  -- what follows and the request is an old one.
  rcases List.eq_nil_or_concat after with rfl | ⟨rest, last, rfl⟩
  · rcases List.append_inj' hsplit rfl with ⟨rfl, hother⟩
    rw [← List.singleton_inj.mp hother]
    exact ⟨hkey, hplan⟩
  · rw [List.concat_eq_append, ← List.cons_append, ← List.append_assoc] at hsplit
    exact h before other rest (List.append_inj' hsplit rfl).1

namespace Cursor

/-- What holds of a cursor at any time, given the exchanges and the items that were
    given away. -/
structure Delivers (opening : Option Item) (exchanges : List Exchange) (consumed : List Item)
    (c : Cursor) : Prop where
  position_le : c.position ≤ c.page.length
  delivered : consumed ++ c.page.drop c.position = (answeredPages exchanges).flatMap (·.items)
  pagesFetched_eq : c.pagesFetched = (answeredPages exchanges).length
  startKey_eq : c.startKey = keyAfter opening exchanges
  keeps : ∀ first, firstAnswered exchanges = some first →
    ∃ kept, c.request = some kept ∧ kept.unpaged = first.request.unpaged
  follow : RequestsFollow opening exchanges

/-- The account of a cursor: the items given away and the rest of its page are the items
    of the pages that came, and these are counted. This does not depend on the key that the
    cursor resumes after. -/
structure Accounts (exchanges : List Exchange) (consumed : List Item) (c : Cursor) : Prop where
  position_le : c.position ≤ c.page.length
  delivered : consumed ++ c.page.drop c.position = (answeredPages exchanges).flatMap (·.items)
  pagesFetched_eq : c.pagesFetched = (answeredPages exchanges).length

section

variable {exchanges : List Exchange} {consumed : List Item} {c : Cursor}

-- A fetch that fails leaves the cursor as it is.
theorem Accounts.exchange_error (h : c.Accounts exchanges consumed) (request : QueryRequest)
    (e : QueryError) : c.Accounts (exchanges ++ [⟨request, .error e⟩]) consumed := by
  refine ⟨h.position_le, ?_, ?_⟩
  · rw [answeredPages_error]
    exact h.delivered
  · rw [answeredPages_error]
    exact h.pagesFetched_eq

-- A page comes when all items of the last one were given away.
theorem Accounts.exchange_ok (h : c.Accounts exchanges consumed)
    (hdone : c.page[c.position]? = none) (request : QueryRequest) (page : Page) :
    (c.receive request page).Accounts (exchanges ++ [⟨request, .ok page⟩]) consumed := by
  -- With nothing left of the old page, all items before the new one were given away.
  have hbehind : c.page.drop c.position = [] :=
    List.drop_eq_nil_of_le (List.getElem?_eq_none_iff.mp hdone)
  have hdelivered := h.delivered
  rw [hbehind, List.append_nil] at hdelivered
  refine ⟨Nat.zero_le _, ?_, ?_⟩
  · rw [answeredPages_ok, List.flatMap_append, List.flatMap_singleton, ← hdelivered]
    rfl
  · rw [answeredPages_ok, List.length_append, ← h.pagesFetched_eq]
    rfl

-- An item that is given away moves from the page to the caller.
theorem Accounts.give (h : c.Accounts exchanges consumed) {item : Item}
    (hitem : c.page[c.position]? = some item) :
    Accounts exchanges (consumed ++ [item]) { c with position := c.position + 1 } := by
  rcases List.getElem?_eq_some_iff.mp hitem with ⟨hlt, hget⟩
  refine ⟨hlt, ?_, h.pagesFetched_eq⟩
  rw [← h.delivered, List.drop_eq_getElem_cons hlt, hget, List.append_assoc]
  rfl

end

section

variable {opening : Option Item} {exchanges : List Exchange} {consumed : List Item} {c : Cursor}

theorem Delivers.accounts (h : c.Delivers opening exchanges consumed) :
    c.Accounts exchanges consumed :=
  ⟨h.position_le, h.delivered, h.pagesFetched_eq⟩

-- The request of a fetch follows those before it.
theorem Delivers.follow_concat (h : c.Delivers opening exchanges consumed)
    {planned : QueryRequest} (hkept : ∀ kept, c.request = some kept → planned = kept)
    (answer : Except QueryError Page) :
    RequestsFollow opening (exchanges ++ [⟨c.fetchRequest planned, answer⟩]) := by
  refine h.follow.concat h.startKey_eq fun first hfirst => ?_
  rcases h.keeps first hfirst with ⟨kept, hrequest, hunpaged⟩
  rw [← hunpaged, hkept kept hrequest]
  rfl

theorem Delivers.exchange_error (h : c.Delivers opening exchanges consumed)
    {planned : QueryRequest} (hkept : ∀ kept, c.request = some kept → planned = kept)
    (e : QueryError) :
    c.Delivers opening (exchanges ++ [⟨c.fetchRequest planned, .error e⟩]) consumed := by
  have haccounts := h.accounts.exchange_error (c.fetchRequest planned) e
  refine ⟨haccounts.position_le, haccounts.delivered, haccounts.pagesFetched_eq, ?_, ?_,
    h.follow_concat hkept (.error e)⟩
  · rw [keyAfter_error]
    exact h.startKey_eq
  · rw [firstAnswered_error]
    exact h.keeps

theorem Delivers.exchange_ok (h : c.Delivers opening exchanges consumed)
    {planned : QueryRequest} (hkept : ∀ kept, c.request = some kept → planned = kept)
    (hdone : c.page[c.position]? = none) (page : Page) :
    (c.receive (c.fetchRequest planned) page).Delivers opening
      (exchanges ++ [⟨c.fetchRequest planned, .ok page⟩]) consumed := by
  have haccounts := h.accounts.exchange_ok hdone (c.fetchRequest planned) page
  refine ⟨haccounts.position_le, haccounts.delivered, haccounts.pagesFetched_eq, ?_, ?_,
    h.follow_concat hkept (.ok page)⟩
  · rw [keyAfter_ok]
    rfl
  · intro first hfirst
    -- The request that is kept now is the first of all, or agrees with the one kept before.
    refine ⟨c.fetchRequest planned, rfl, ?_⟩
    rw [firstAnswered_ok, Option.some.injEq] at hfirst
    rw [← hfirst]
    cases hbefore : firstAnswered exchanges with
    | none => rfl
    | some earlier =>
        rcases h.keeps earlier hbefore with ⟨kept, hrequest, hunpaged⟩
        rw [Option.getD_some, ← hunpaged, hkept kept hrequest]
        rfl

theorem Delivers.give (h : c.Delivers opening exchanges consumed) {item : Item}
    (hitem : c.page[c.position]? = some item) :
    Delivers opening exchanges (consumed ++ [item]) { c with position := c.position + 1 } := by
  have haccounts := h.accounts.give hitem
  exact ⟨haccounts.position_le, haccounts.delivered, haccounts.pagesFetched_eq, h.startKey_eq,
    h.keeps, h.follow⟩

end

-- What comes next is the item at the position, or there is none.
theorem next_cases (c : Cursor) :
    (∃ item, c.page[c.position]? = some item ∧
      c.next = .item item { c with position := c.position + 1 }) ∨
    (c.page[c.position]? = none ∧
      ((∃ completion, c.next = .complete completion) ∨ c.next = .needsPage)) := by
  unfold next
  cases c.page[c.position]? with
  | some item => exact Or.inl ⟨item, rfl, rfl⟩
  | none =>
      refine Or.inr ⟨rfl, ?_⟩
      by_cases hparsed : c.allItemsParsed = true
      · exact Or.inl ⟨.allItemsParsed, if_pos hparsed⟩
      · by_cases hcapped : c.maxPaginationReached = true
        · exact Or.inl ⟨.maxPaginationReached, by simp only [if_neg hparsed, if_pos hcapped]⟩
        · exact Or.inr (by simp only [if_neg hparsed, if_neg hcapped])

-- A page is needed when none of the tests for the end is passed.
theorem next_eq_needsPage {c : Cursor} (h : c.next = .needsPage) :
    c.page[c.position]? = none ∧ ¬ c.allItemsParsed = true ∧
      ¬ c.maxPaginationReached = true := by
  unfold next at h
  cases hitem : c.page[c.position]? with
  | some item => rw [hitem] at h; exact absurd h (by simp only [reduceCtorEq, not_false_eq_true])
  | none =>
      rw [hitem] at h
      by_cases hparsed : c.allItemsParsed = true
      · simp only [if_pos hparsed, reduceCtorEq] at h
      · by_cases hcapped : c.maxPaginationReached = true
        · simp only [if_neg hparsed, if_pos hcapped, reduceCtorEq] at h
        · exact ⟨rfl, hparsed, hcapped⟩

section

variable {c : Cursor} {m : Type → Type} [Monad m]
  (fetch : Cursor → m (Except QueryError (QueryRequest × Page)))

theorem pull_of_item (pages : Nat) {item : Item} {rest : Cursor}
    (h : c.next = .item item rest) : c.pull fetch pages = pure (.item item, rest) := by
  cases pages <;> simp only [pull, h]

theorem pull_of_complete (pages : Nat) {completion : Completion}
    (h : c.next = .complete completion) :
    c.pull fetch pages = pure (.failed (.parsingComplete completion), c) := by
  cases pages <;> simp only [pull, h]

theorem pull_zero (h : c.next = .needsPage) : c.pull fetch 0 = pure (.unfinished, c) := by
  rw [pull, h]

end

section

variable {c : Cursor} {τ : Type} {s after : τ}
  {fetch : Cursor → StateM τ (Except QueryError (QueryRequest × Page))}
  (h : c.next = .needsPage) (pages : Nat)

include h

theorem pull_of_failed {e : QueryError} (hfetch : fetch c s = (.error e, after)) :
    c.pull fetch (pages + 1) s = ((.failed e, c), after) := by
  simp only [pull, h, bind, StateT.bind, hfetch]
  rfl

theorem pull_of_page {request : QueryRequest} {page : Page}
    (hfetch : fetch c s = (.ok (request, page), after)) :
    c.pull fetch (pages + 1) s = (c.receive request page).pull fetch pages after := by
  simp only [pull, h, bind, StateT.bind, hfetch]

end

/-- What a pull comes to. `P` is kept by every page that is received on the way, with
    so many pages still to fetch at most, and makes `Q` of each way in which a pull can
    end. The recursion is that of the pull. -/
theorem pull_induction {τ : Type}
    {fetch : Cursor → StateM τ (Except QueryError (QueryRequest × Page))}
    {P : Nat → Cursor → τ → Prop} {Q : Pull → Cursor → τ → Prop}
    (hitem : ∀ pages c s item, P pages c s → c.page[c.position]? = some item →
      Q (.item item) { c with position := c.position + 1 } s)
    (hcomplete : ∀ pages c s completion, P pages c s → c.page[c.position]? = none →
      c.next = .complete completion → Q (.failed (.parsingComplete completion)) c s)
    (hunfinished : ∀ c s, P 0 c s → c.next = .needsPage → Q .unfinished c s)
    (hfailed : ∀ pages c s e after, P (pages + 1) c s → c.next = .needsPage →
      fetch c s = (.error e, after) → Q (.failed e) c after)
    (hpage : ∀ pages c s request page after, P (pages + 1) c s → c.page[c.position]? = none →
      c.next = .needsPage → fetch c s = (.ok (request, page), after) →
      P pages (c.receive request page) after)
    (pages : Nat) (c : Cursor) (s : τ) (h : P pages c s) :
    Q (c.pull fetch pages s).1.1 (c.pull fetch pages s).1.2 (c.pull fetch pages s).2 := by
  rcases next_cases c with ⟨item, hget, hnext⟩ | ⟨hdone, ⟨completion, hnext⟩ | hnext⟩
  · rw [pull_of_item _ _ hnext]
    exact hitem pages c s item h hget
  · rw [pull_of_complete _ _ hnext]
    exact hcomplete pages c s completion h hdone hnext
  · cases pages with
    | zero =>
        rw [pull_zero _ hnext]
        exact hunfinished c s h hnext
    | succ pages =>
        cases hfetch : fetch c s with
        | mk answer after =>
            cases answer with
            | error e =>
                rw [pull_of_failed hnext pages hfetch]
                exact hfailed pages c s e after h hnext hfetch
            | ok received =>
                rw [pull_of_page hnext pages hfetch]
                exact pull_induction hitem hcomplete hunfinished hfailed hpage pages _ after
                  (hpage pages c s received.1 received.2 after h hdone hnext hfetch)

/-- A pull from a source is the same whether exchanges are written down or not. -/
theorem pull_logged {σ : Type} (source : Source σ) (deadline : Option Nat) (pages : Nat)
    (c : Cursor) (state : σ) (exchanges : List Exchange) :
    c.pull (fun c => c.fetch (source.plan deadline) (source.execute deadline)) pages state =
      ((c.pull (source.fetch deadline) pages (state, exchanges)).1,
        (c.pull (source.fetch deadline) pages (state, exchanges)).2.1) := by
  rcases next_cases c with ⟨item, _, hnext⟩ | ⟨_, ⟨completion, hnext⟩ | hnext⟩
  · rw [pull_of_item _ _ hnext, pull_of_item _ _ hnext]
    rfl
  · rw [pull_of_complete _ _ hnext, pull_of_complete _ _ hnext]
    rfl
  · cases pages with
    | zero =>
        rw [pull_zero _ hnext, pull_zero _ hnext]
        rfl
    | succ pages =>
        have hplain := source.fetch_logged deadline c state exchanges
        cases hlogged : source.fetch deadline c (state, exchanges) with
        | mk answer after =>
            rw [hlogged] at hplain
            cases answer with
            | error e => rw [pull_of_failed hnext pages hplain, pull_of_failed hnext pages hlogged]
            | ok received =>
                rw [pull_of_page hnext pages hplain, pull_of_page hnext pages hlogged]
                exact pull_logged source deadline pages _ after.1 after.2

/-- The item that a pull gives away. -/
def Pull.item? : Pull → Option Item
  | .item given => some given
  | _ => none

/-- A pull keeps what holds of a cursor, however many pages it goes through and
    whatever becomes of the last one. -/
theorem pull_delivers {σ : Type} (source : Source σ) (deadline : Option Nat) (pages : Nat)
    {opening : Option Item} {exchanges : List Exchange} {consumed : List Item} {c : Cursor}
    (h : c.Delivers opening exchanges consumed) (state : σ) :
    (c.pull (source.fetch deadline) pages (state, exchanges)).1.2.Delivers opening
      (c.pull (source.fetch deadline) pages (state, exchanges)).2.2
      (consumed ++
        (c.pull (source.fetch deadline) pages (state, exchanges)).1.1.item?.toList) := by
  -- All ends but one give no item away.
  have hnothing : ∀ {c : Cursor} {exchanges : List Exchange},
      c.Delivers opening exchanges consumed →
        c.Delivers opening exchanges (consumed ++ (none : Option Item).toList) := by
    intro c exchanges h
    rw [Option.toList_none, List.append_nil]
    exact h
  refine pull_induction (P := fun _ c s => c.Delivers opening s.2 consumed)
    (Q := fun given c s => c.Delivers opening s.2 (consumed ++ given.item?.toList))
    ?_ ?_ ?_ ?_ ?_ pages c (state, exchanges) h
  · exact fun _ _ _ _ h hitem => h.give hitem
  · exact fun _ _ _ _ h _ _ => hnothing h
  · exact fun _ _ h _ => hnothing h
  · intro _ c s e after h _ hfetch
    rcases source.fetch_error hfetch with hnone | ⟨planned, hkept, hexchange⟩
    · rw [hnone]
      exact hnothing h
    · rw [hexchange]
      exact hnothing (h.exchange_error hkept e)
  · intro _ c s request page after h hdone _ hfetch
    rcases source.fetch_ok hfetch with ⟨planned, hkept, rfl, hexchange⟩
    rw [hexchange]
    exact h.exchange_ok hkept hdone page

end Cursor

/-- The store and the clock of a session as the source of an open cursor. -/
def Session.Run.source (opened : OpenCursor) : Source World where
  plan deadline := do
    let planned ← plan opened.client deadline opened.table opened.expression
    return planned.map (·.request)
  execute deadline request := call opened.client deadline (.execute request)

/-- The cursors of a session fetch from that source. With `Cursor.pull_logged` a pull of a
    session is therefore a call in the sense below. -/
theorem Session.Run.fetch_eq (opened : OpenCursor) (deadline : Option Nat) (c : Cursor) :
    fetch opened deadline c =
      c.fetch ((source opened).plan deadline) ((source opened).execute deadline) := rfl

/-- A call that is made of a cursor. A pull is under a deadline, if any, and fetches
    so many pages at most. -/
inductive CursorCall where
  | pull (deadline : Option Nat) (pages : Nat)
  | setMaxPages (n : Option Nat)
  | setLimit (n : Option Nat)

/-- What a pull came to: the item that it gave away, if any, and what the caller was
    given. -/
structure Handed (α : Type) where
  item : Option Item
  record : Except QueryError α

/-- A cursor in use: the state of its source, what was asked and answered, and what
    each pull came to. -/
structure Delivery (σ α : Type) where
  cursor : Cursor
  state : σ
  exchanges : List Exchange
  handed : List (Handed α)

namespace Delivery

variable {σ α : Type}

/-- A cursor that has fetched nothing, with the key that the caller set, if any. -/
def start (opening : Option Item) (state : σ) : Delivery σ α where
  cursor := match opening with
    | none => .fresh
    | some key => Cursor.fresh.setStartKey key
  state := state
  exchanges := []
  handed := []

/-- One call. A pull adds its exchanges and what it handed out to those before. -/
def step (source : Source σ) (decode : Item → Except CodecError α) (d : Delivery σ α) :
    CursorCall → Delivery σ α
  | .pull deadline pages =>
    let ((given, cursor), (state, exchanges)) :=
      d.cursor.pull (source.fetch deadline) pages (d.state, d.exchanges)
    { cursor, state, exchanges, handed := d.handed ++ [⟨given.item?, given.record decode⟩] }
  | .setMaxPages n => { d with cursor := d.cursor.setMaxPages n }
  | .setLimit n => { d with cursor := d.cursor.setLimit n }

/-- The calls in turn, from a cursor that has fetched nothing. -/
def run (source : Source σ) (decode : Item → Except CodecError α) (opening : Option Item)
    (state : σ) (calls : List CursorCall) : Delivery σ α :=
  calls.foldl (step source decode) (start opening state)

/-- The items that were given away, in order. -/
def consumed (d : Delivery σ α) : List Item :=
  d.handed.filterMap (·.item)

/-- What the caller was given by each pull: the record of the item that was given
    away, or the defect in it, and an error if there was no item. -/
def HandsRecords (decode : Item → Except CodecError α) (d : Delivery σ α) : Prop :=
  ∀ h ∈ d.handed,
    (∀ item, h.item = some item → h.record = (decode item).mapError .codec) ∧
    (h.item = none → ∃ e, h.record = .error e)

-- The key that the caller sets is the first one to resume after.
theorem start_delivers (opening : Option Item) (state : σ) :
    (start opening state : Delivery σ α).cursor.Delivers opening [] [] := by
  have hfirst : ∀ first, firstAnswered [] ≠ some first := fun _ => by simp [firstAnswered]
  have hfollow : RequestsFollow opening [] := fun before e after h =>
    absurd h.symm (List.append_ne_nil_of_right_ne_nil before (List.cons_ne_nil e after))
  cases opening with
  | none => exact ⟨Nat.le_refl 0, rfl, rfl, rfl, fun first h => absurd h (hfirst first), hfollow⟩
  | some key => exact ⟨Nat.le_refl 0, rfl, rfl, rfl, fun first h => absurd h (hfirst first), hfollow⟩

theorem record_of_pull (decode : Item → Except CodecError α) (given : Cursor.Pull) :
    (∀ item, given.item? = some item → given.record decode = (decode item).mapError .codec) ∧
    (given.item? = none → ∃ e, given.record decode = .error e) := by
  cases given with
  | item item =>
      refine ⟨fun other hother => ?_, fun hnone => absurd hnone (by simp [Cursor.Pull.item?])⟩
      rw [← Option.some.inj hother, Cursor.Pull.record]
  | failed e => exact ⟨fun _ h => absurd h (by simp [Cursor.Pull.item?]), fun _ => ⟨e, rfl⟩⟩
  | unfinished => exact ⟨fun _ h => absurd h (by simp [Cursor.Pull.item?]), fun _ => ⟨.timeout, rfl⟩⟩

-- Every call keeps what holds of a cursor.
theorem step_delivers (source : Source σ) (decode : Item → Except CodecError α)
    {opening : Option Item} {d : Delivery σ α}
    (h : d.cursor.Delivers opening d.exchanges d.consumed) (hrecords : d.HandsRecords decode)
    (call : CursorCall) :
    (d.step source decode call).cursor.Delivers opening (d.step source decode call).exchanges
      (d.step source decode call).consumed ∧ (d.step source decode call).HandsRecords decode := by
  cases call with
  | pull deadline pages =>
      have hpull := Cursor.pull_delivers source deadline pages h d.state
      rw [step]
      generalize d.cursor.pull (source.fetch deadline) pages (d.state, d.exchanges) = pulled
        at hpull ⊢
      rcases pulled with ⟨⟨given, cursor⟩, state, exchanges⟩
      constructor
      · rw [consumed, List.filterMap_append]
        cases hgiven : given.item? with
        | none =>
            rw [hgiven] at hpull
            exact hpull
        | some item =>
            rw [hgiven] at hpull
            exact hpull
      · intro handed hhanded
        rcases List.mem_append.mp hhanded with hearlier | hnow
        · exact hrecords handed hearlier
        · rw [List.mem_singleton.mp hnow]
          exact record_of_pull decode given
  -- The setters touch none of the fields that the invariant is about.
  | setMaxPages n =>
      exact ⟨⟨h.position_le, h.delivered, h.pagesFetched_eq, h.startKey_eq, h.keeps, h.follow⟩,
        hrecords⟩
  | setLimit n =>
      exact ⟨⟨h.position_le, h.delivered, h.pagesFetched_eq, h.startKey_eq, h.keeps, h.follow⟩,
        hrecords⟩

-- So does every list of calls.
theorem foldl_delivers (source : Source σ) (decode : Item → Except CodecError α)
    {opening : Option Item} (calls : List CursorCall) {d : Delivery σ α}
    (h : d.cursor.Delivers opening d.exchanges d.consumed) (hrecords : d.HandsRecords decode) :
    (calls.foldl (step source decode) d).cursor.Delivers opening
      (calls.foldl (step source decode) d).exchanges
      (calls.foldl (step source decode) d).consumed ∧
    (calls.foldl (step source decode) d).HandsRecords decode := by
  induction calls generalizing d with
  | nil => exact ⟨h, hrecords⟩
  | cons call rest ih =>
      rcases step_delivers source decode h hrecords call with ⟨hstep, hhands⟩
      exact ih hstep hhands

/-- Every fetched item is given exactly once, in order, whatever the source does.
    After any calls, the items that were given away and the rest of the page are the
    items of the pages that came, and the cursor counted these pages. A pull hands
    out the record of the item that it gave away, or what is wrong with it. Every
    request resumes after the key of the last page before it, or the one that the
    caller set, and keeps to the first request that brought a page. -/
theorem run_delivers (source : Source σ) (decode : Item → Except CodecError α)
    (opening : Option Item) (state : σ) (calls : List CursorCall) :
    (run source decode opening state calls).consumed ++
        (run source decode opening state calls).cursor.page.drop
          (run source decode opening state calls).cursor.position =
      (answeredPages (run source decode opening state calls).exchanges).flatMap (·.items) ∧
    (run source decode opening state calls).HandsRecords decode ∧
    (run source decode opening state calls).cursor.pagesFetched =
      (answeredPages (run source decode opening state calls).exchanges).length ∧
    ∀ before e after,
      (run source decode opening state calls).exchanges = before ++ e :: after →
      e.request.startKey = keyAfter opening before ∧
      ∀ first, firstAnswered before = some first →
        e.request.unpaged = first.request.unpaged := by
  have hempty : (start opening state : Delivery σ α).HandsRecords decode := fun h hmem =>
    absurd hmem List.not_mem_nil
  rcases foldl_delivers source decode calls (start_delivers opening state) hempty with
    ⟨hdelivers, hrecords⟩
  exact ⟨hdelivers.delivered, hrecords, hdelivers.pagesFetched_eq, hdelivers.follow⟩

end Delivery

end WideColumn
