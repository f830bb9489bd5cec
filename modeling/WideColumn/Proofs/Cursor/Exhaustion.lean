import WideColumn.Proofs.Cursor.States
import WideColumn.Proofs.Store.Writes

/-!
# Reports of the End

When a cursor says that all items were parsed.

It says so when it has no key to resume after. A page that is the last one brings none, but
a caller who sets the empty key takes away the key that a page brought, and to the cursor
these are the same. So the end can be reported early, and `run_exhausted_iff` says when:
if the empty key was set since the last page came. All items that came were given away even
then. The items behind the last page were not.

The statement is about any source that keeps to its part. A source fails with errors of its
own, and knows nothing of the end of a cursor, so a report of the end is the cursor's. This
is so of the sources of a session (`source_reportsNoEnd`). It is shown of a piece of work by
its parts, with `EndsNever` for what each of them keeps.

## Main definitions

* `EndsNever`: The work does not fail with the end of a cursor.
* `Source.ReportsNoEnd`: Neither do the plan and the answers of a source.

## Theorems

* `EndsNever.bind`: Work ends never if its parts do not.
* `source_reportsNoEnd`: The sources of a session report no end.
* `pull_complete`: A cursor that reports its end is in the state of it.
* `state_eq_exhausted_iff`, `Holds.exhausted_iff`: What an exhausted cursor is.
* `run_exhausted_iff`: When the end is reported.
* `ends_early_films`: The end is reported before the last page came.
-/

namespace WideColumn

/-- The result is no report of the end of a cursor. -/
def NoEnd {α : Type} : Except QueryError α → Prop
  | .ok _ => True
  | .error e => e.isComplete = false

/-- The work does not fail with the end of a cursor, whatever it starts from. -/
def EndsNever {σ α : Type} (work : StateM σ (Except QueryError α)) : Prop :=
  ∀ state, NoEnd (work state).1

/-- A source does not report the end of a cursor, of which it knows nothing. -/
structure Source.ReportsNoEnd {σ : Type} (source : Source σ) : Prop where
  plan : ∀ deadline, EndsNever (source.plan deadline)
  execute : ∀ deadline request, EndsNever (source.execute deadline request)

section

variable {σ α β : Type}

/-- Work ends never if its parts do not. The second part may count on what the first part
    comes to. -/
theorem EndsNever.bind {work : StateM σ (Except QueryError α)}
    {rest : Except QueryError α → StateM σ (Except QueryError β)} (hwork : EndsNever work)
    (hrest : ∀ result, NoEnd result → EndsNever (rest result)) : EndsNever (work >>= rest) :=
  fun state => hrest (work state).1 (hwork state) (work state).2

-- What comes first does not matter if it comes to no result.
theorem EndsNever.after {work : StateM σ α} {rest : α → StateM σ (Except QueryError β)}
    (h : ∀ a, EndsNever (rest a)) : EndsNever (work >>= rest) :=
  fun state => h (work state).1 (work state).2

theorem EndsNever.pure {result : Except QueryError α} (h : NoEnd result) :
    EndsNever (Pure.pure result : StateM σ (Except QueryError α)) :=
  fun _ => h

theorem NoEnd.map {result : Except QueryError α} (h : NoEnd result) (f : α → β) :
    NoEnd (result.map f) := by
  cases result with
  | ok a => trivial
  | error e => exact h

theorem noEnd_mapError_store (reply : Except StoreError α) :
    NoEnd (reply.mapError QueryError.store) := by
  cases reply with
  | ok answer => trivial
  | error e => rfl

end

theorem accept_noEnd {answer : Except QueryError TableDescriptor} (h : NoEnd answer)
    (threshold : Binary64) (table : String) (cache : Cache IndexCatalog) :
    NoEnd (accept threshold table answer cache).1 := by
  unfold accept
  cases answer with
  | error e => exact h
  | ok descriptor =>
      simp only
      cases IndexCatalog.build descriptor threshold with
      | error defect => rfl
      | ok catalog => trivial

theorem IndexCatalog.plan_noEnd (catalog : IndexCatalog) (table : String) (e : Expression) :
    NoEnd (catalog.plan table e) := by
  rw [plan]
  cases catalog.choose e with
  | error rejected => rfl
  | ok index =>
      simp only
      cases compile table index e with
      | error rejected => rfl
      | ok request => trivial

-- Writing exchanges down does not change how a fetch can fail.
theorem Source.ReportsNoEnd.fetch {σ : Type} {source : Source σ} (h : source.ReportsNoEnd)
    (deadline : Option Nat) (c : Cursor) : EndsNever (source.fetch deadline c) := by
  have hplan : EndsNever (source.planLogged deadline) := fun s => h.plan deadline s.1
  have hexecute : ∀ request, EndsNever (source.executeLogged deadline request) :=
    fun request s => h.execute deadline request s.1
  rw [Source.fetch, Cursor.fetch]
  refine EndsNever.bind ?_ fun planned hplanned => ?_
  · rw [Cursor.planned]
    cases c.request with
    | some kept => exact EndsNever.pure trivial
    | none => exact hplan
  · cases planned with
    | error e => exact EndsNever.pure hplanned
    | ok planned => exact (hexecute _).bind fun answer hanswer => EndsNever.pure (hanswer.map _)

namespace Session.Run

variable (client : Client) (deadline : Option Nat)

-- A call that is not answered failed in the store, or ran out of time.
theorem call_endsNever (request : Call) : EndsNever (call client deadline request) := by
  refine EndsNever.after fun end? => EndsNever.after fun world => EndsNever.after fun _ =>
    EndsNever.after fun woke => ?_
  cases woke with
  | false => exact EndsNever.pure rfl
  | true =>
      exact EndsNever.after fun world => EndsNever.after fun _ =>
        EndsNever.pure (noEnd_mapError_store _)

theorem catalog_endsNever (table : String) : EndsNever (catalog client deadline table) := by
  refine EndsNever.after fun world => ?_
  cases (world.cacheOf client).get? table with
  | some held => exact EndsNever.pure trivial
  | none =>
      refine (call_endsNever client deadline (.describe table)).bind fun answer hanswer => ?_
      exact EndsNever.after fun world => EndsNever.after fun _ =>
        EndsNever.pure (accept_noEnd hanswer _ table _)

theorem plan_endsNever (table : String) (e : Expression) :
    EndsNever (plan client deadline table e) := by
  refine (catalog_endsNever client deadline table).bind fun catalog hcatalog => ?_
  cases catalog with
  | error e => exact EndsNever.pure hcatalog
  | ok catalog =>
      exact EndsNever.after fun _ => EndsNever.pure (catalog.plan_noEnd table e)

/-- The source of an open cursor reports no end. -/
theorem source_reportsNoEnd (opened : OpenCursor) : (source opened).ReportsNoEnd where
  plan deadline := by
    refine (plan_endsNever opened.client deadline opened.table opened.expression).bind
      fun planned hplanned => EndsNever.pure (hplanned.map _)
  execute deadline request := call_endsNever opened.client deadline (.execute request)

end Session.Run

namespace Cursor

theorem state_of_next_complete {c : Cursor} {completion : Completion}
    (h : c.next = .complete completion) : c.state = completion.state := by
  rcases state_cases c with ⟨item, _, _, hnext⟩ | ⟨other, hstate, hnext⟩ | ⟨_, hnext⟩
  · exact absurd (h.symm.trans hnext) (by simp only [reduceCtorEq, not_false_eq_true])
  · rw [hstate, Next.complete.inj (h.symm.trans hnext)]
  · exact absurd (h.symm.trans hnext) (by simp only [reduceCtorEq, not_false_eq_true])

/-- A cursor that reports its end is in the state of it, however many pages the pull went
    through before. -/
theorem pull_complete {τ α : Type}
    {fetch : Cursor → StateM τ (Except QueryError (QueryRequest × Page))}
    (hfetch : ∀ c, EndsNever (fetch c)) (decode : Item → Except CodecError α)
    (completion : Completion) (pages : Nat) (c : Cursor) (s : τ)
    (h : (c.pull fetch pages s).1.1.record decode = .error (.parsingComplete completion)) :
    (c.pull fetch pages s).1.2.state = completion.state := by
  refine pull_induction (P := fun _ _ _ => True)
    (Q := fun given now _ => given.record decode = .error (.parsingComplete completion) →
      now.state = completion.state) ?_ ?_ ?_ ?_ ?_ pages c s trivial h
  · exact fun _ _ _ item _ _ hrecord =>
      absurd hrecord (Pull.record_item_ne_complete decode item completion)
  · intro _ now _ other _ _ hnext hrecord
    rw [Pull.record, Except.error.injEq, QueryError.parsingComplete.injEq] at hrecord
    rw [← hrecord]
    exact state_of_next_complete hnext
  · intro _ _ _ _ hrecord
    rw [Pull.record, Except.error.injEq] at hrecord
    exact absurd hrecord (by simp only [reduceCtorEq, not_false_eq_true])
  · -- The error of a fetch is no report of the end.
    intro _ now s e _ _ _ hanswer hrecord
    rw [Pull.record, Except.error.injEq] at hrecord
    have hends : NoEnd (fetch now s).1 := hfetch now s
    rw [hanswer, hrecord] at hends
    exact absurd (Eq.symm hends) Bool.false_ne_true
  · exact fun _ _ _ _ _ _ _ _ _ _ => trivial

theorem state_eq_exhausted_iff {c : Cursor} : c.state = .exhausted ↔
    c.page.length ≤ c.position ∧ 0 < c.pagesFetched ∧ c.startKey = none := by
  have hparsed : c.allItemsParsed = true ↔ 0 < c.pagesFetched ∧ c.startKey = none := by
    rw [allItemsParsed, Bool.and_eq_true, decide_eq_true_eq, Option.isNone_iff_eq_none]
  rw [← hparsed, state]
  by_cases hitem : c.position < c.page.length
  · rw [if_pos hitem]
    exact iff_of_false (by decide) fun h => Nat.not_le_of_lt hitem h.1
  · rw [if_neg hitem]
    by_cases h : c.allItemsParsed = true
    · rw [if_pos h]
      exact iff_of_true rfl ⟨Nat.le_of_not_lt hitem, h⟩
    · rw [if_neg h]
      refine iff_of_false ?_ fun hdone => h hdone.2
      split
      · decide
      · split <;> decide

-- The key that stands is none if the empty key was set, or none was set and none came.
theorem standingKey_eq_none_iff {chosen : Option Item} {exchanges : List Exchange} {page : Page}
    (hpage : (answeredPages exchanges).getLast? = some page) :
    standingKey chosen exchanges = none ↔
      chosen = some [] ∨ chosen = none ∧ resumeKey page.lastKey = none := by
  cases chosen with
  | none =>
      rw [standingKey, keyAfter, hpage]
      simp only [reduceCtorEq, true_and, false_or]
  | some key =>
      rw [standingKey, resumeKey]
      cases key with
      | nil => exact iff_of_true rfl (Or.inl rfl)
      | cons entry rest =>
          simp only [Option.filter_some, List.isEmpty_cons, Bool.not_false, if_true, reduceCtorEq,
            Option.some.injEq, false_and, or_self]

/-- An exhausted cursor has received a page, has given all items away, and has no key to
    resume after: the empty key was set since the last page came, or none was set and that
    page had none. -/
theorem Holds.exhausted_iff {exchanges : List Exchange} {consumed : List Item}
    {chosen : Option Item} {c : Cursor} (h : c.Holds exchanges consumed chosen) :
    c.state = .exhausted ↔ ∃ page, (answeredPages exchanges).getLast? = some page ∧
      consumed = (answeredPages exchanges).flatMap (·.items) ∧
      (chosen = some [] ∨ chosen = none ∧ resumeKey page.lastKey = none) := by
  have hconsumed : c.page.length ≤ c.position ↔
      consumed = (answeredPages exchanges).flatMap (·.items) := by
    rw [← h.delivered, eq_comm, List.append_right_eq_self, List.drop_eq_nil_iff]
  have hreceived : 0 < c.pagesFetched ↔ ∃ page, (answeredPages exchanges).getLast? = some page := by
    rw [h.pagesFetched_eq, ← Option.isSome_iff_exists, List.getLast?_isSome, List.length_pos_iff]
  rw [state_eq_exhausted_iff, hconsumed, hreceived, h.startKey_eq]
  constructor
  · rintro ⟨hall, ⟨page, hpage⟩, hkey⟩
    exact ⟨page, hpage, hall, (standingKey_eq_none_iff hpage).mp hkey⟩
  · rintro ⟨page, hpage, hall, hkey⟩
    exact ⟨hall, ⟨page, hpage⟩, (standingKey_eq_none_iff hpage).mpr hkey⟩

end Cursor

namespace Steering

variable {σ α : Type}

theorem run_concat (source : Source σ) (decode : Item → Except CodecError α) (state : σ)
    (uses : List CursorUse) (next : CursorUse) :
    run source decode state (uses ++ [next]) =
      (run source decode state uses).step source decode next := by
  rw [run, List.foldl_append]
  rfl

/-- When the end is reported. After any uses, the cursor is exhausted just if a page has
    come, all items of the pages that came were given away, and its caller has set the empty
    key since the last page or has set none and that page had none. A pull that reports that
    all items were parsed leaves the cursor exhausted. So the report is early just where the
    empty key was set in place of the key of a page. -/
theorem run_exhausted_iff {source : Source σ} (hsource : source.ReportsNoEnd)
    (decode : Item → Except CodecError α) (state : σ) (uses : List CursorUse) :
    ((run source decode state uses).delivery.cursor.state = .exhausted ↔
      ∃ page,
        (answeredPages (run source decode state uses).delivery.exchanges).getLast? = some page ∧
        (run source decode state uses).delivery.consumed =
          (answeredPages (run source decode state uses).delivery.exchanges).flatMap (·.items) ∧
        ((run source decode state uses).chosen = some [] ∨
          (run source decode state uses).chosen = none ∧ resumeKey page.lastKey = none)) ∧
    ∀ deadline pages item,
      (run source decode state (uses ++ [.call (.pull deadline pages)])).delivery.handed.getLast? =
        some ⟨item, .error (.parsingComplete .allItemsParsed)⟩ →
      (run source decode state (uses ++ [.call (.pull deadline pages)])).delivery.cursor.state =
        .exhausted := by
  refine ⟨(run_holds source decode state uses).exhausted_iff, fun deadline pages item hlast => ?_⟩
  rw [run_concat, step, Delivery.step] at hlast ⊢
  generalize run source decode state uses = s at hlast ⊢
  have hcomplete := Cursor.pull_complete (hsource.fetch deadline) decode .allItemsParsed pages
    s.delivery.cursor (s.delivery.state, s.delivery.exchanges)
  generalize s.delivery.cursor.pull (source.fetch deadline) pages
    (s.delivery.state, s.delivery.exchanges) = pulled at hlast hcomplete ⊢
  rcases pulled with ⟨⟨given, cursor⟩, state, exchanges⟩
  simp only [List.getLast?_concat, Option.some.injEq, Handed.mk.injEq] at hlast
  exact hcomplete hlast.2

/-- The films of one director. -/
def directorFilms : Session.OpenCursor where
  client := ⟨.default, 0⟩
  table := "films"
  expression := .ofCalls [.filter "director" (.equal (.string "a"))]
  form := .raw
  cursor := .fresh

/-- The films of the director from a store with one film in each page. -/
def steeredFilms (uses : List CursorUse) : Steering Session.World Item :=
  run (Session.Run.source directorFilms) Codec.raw.decode
    (.start (.memory (MemoryStore.afterWrites 1 filmWrites)) .default) uses

/-- The empty key was set behind the first film, so the cursor is exhausted. -/
theorem run_exhausted_iff_emptyKey :
    (Session.Run.source directorFilms).ReportsNoEnd ∧
    (steeredFilms [.call (.pull none 1), .setStartKey []]).delivery.cursor.state = .exhausted ∧
    (steeredFilms ([.call (.pull none 1), .setStartKey []] ++
      [.call (.pull none 1)])).delivery.cursor.state = .exhausted := by
  have hsource := Session.Run.source_reportsNoEnd directorFilms
  have hends := run_exhausted_iff hsource Codec.raw.decode
    (.start (.memory (MemoryStore.afterWrites 1 filmWrites)) .default)
    [.call (.pull none 1), .setStartKey []]
  exact ⟨hsource, hends.1.mpr ⟨_, rfl, rfl, Or.inl rfl⟩, hends.2 none 1 none rfl⟩

/-- The end is reported behind the first of three films. The page of that film had a key to
    resume after, and two more films are there. -/
theorem ends_early_films :
    (steeredFilms [.call (.pull none 1), .setStartKey [], .call (.pull none 1)]).delivery.handed =
      [⟨some (film "a" "x" (some 1990)), .ok (film "a" "x" (some 1990))⟩,
        ⟨none, .error (.parsingComplete .allItemsParsed)⟩] ∧
    (steeredFilms [.call (.pull none 1), .setStartKey []]).delivery.cursor.state = .exhausted ∧
    (answeredPages (steeredFilms [.call (.pull none 1), .setStartKey [],
        .call (.pull none 1)]).delivery.exchanges).getLast?.map (·.lastKey) =
      some (some (film "a" "x" none)) ∧
    (steeredFilms (List.replicate 4 (.call (.pull none 1)))).delivery.consumed =
      [film "a" "x" (some 1990), film "a" "y" (some 1985), film "a" "z" (some 1990)] :=
  ⟨rfl, rfl, rfl, rfl⟩

end Steering

end WideColumn
