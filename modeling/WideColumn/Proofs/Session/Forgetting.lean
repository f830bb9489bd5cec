import WideColumn.Proofs.Session.Catalogs

/-!
# Forgetting a Table

What calls get that are made after a table was forgotten.

A call that was made before may still wait at that time, and nothing keeps its answer out of
the cache when it comes. So the cache can be filled again by a call that knows nothing of the
forgetting, and later calls then use what that one brought. What matters is therefore not who
asked but when the store answered: after a table is forgotten the cache has nothing for it, so
whatever gets there was built from an answer that came later. `Renewed` keeps just that, for
every call at once.

That an answer came later does not mean that it was produced later. A memory store looks at its
tables when it answers and not when it is called, so there an answer that comes later also tells
of the table as it is later. Other stores have the answer ready when they take the call up. If
one of them did so before the table was forgotten, the answer is still under way, and the next
calls may be given just what was to be forgotten. This is the only way in which it can happen
(`forget_refreshes_iff`): a call that waits was made since, or waited for the same answer
before (`run_waiting`).

## Main definitions

* `AnsweredBy`, `AnsweredIn`: A catalog was built from an answer that came at one of the moments.
* `ProducedIn`: It was built from an answer that did not exist before.
* `ReportedIn`: It was built from a report on the table as it was at that moment.
* `Sharing.HoldsStale`: A call waits for an answer that is there already.
* `Sharing.Renewed`: What every step keeps after a table is forgotten.
* `Sharing.InMemory`: The store is a memory store, and so it was for every call that waits.

## Theorems

* `step_renewed`: What is in the cache was built from an answer that came later.
* `answered_since_forgotten`: The same of every later call, for any store.
* `step_waiting`, `run_waiting`: No call starts to wait again.
* `step_inMemory`, `run_inMemory`: A memory store gives no answer before it is due.
* `forget_refreshes_iff`: Later calls use a newer answer just if no older one is under way.
-/

namespace WideColumn

namespace Session

/-- A store answered a call for a table at one of the moments, and the catalog was built from
    the answer. -/
def AnsweredBy (config : ClientConfig) (s : Sharing) (table : String) (moments : List Moment)
    (caller : Nat) (pending : Pending TableDescriptor) (catalog : IndexCatalog) : Prop :=
  ∃ before after reached call descriptor,
    moments = before ++ .answer caller :: after ∧ s.run config before = some reached ∧
    reached.calls[caller]? = some (call, CallState.waiting pending) ∧ call.table = table ∧
    (reached.backend.answer (.describe call.table) pending).1 = .ok descriptor ∧
    IndexCatalog.build descriptor config.threshold = .ok catalog

/-- The same of any call. -/
def AnsweredIn (config : ClientConfig) (s : Sharing) (table : String) (moments : List Moment)
    (catalog : IndexCatalog) : Prop :=
  ∃ caller pending, AnsweredBy config s table moments caller pending catalog

/-- The answer was not there before the moments: the call was made during them, or it waited for
    an answer that depends on when it is given. -/
def ProducedIn (config : ClientConfig) (s : Sharing) (table : String) (moments : List Moment)
    (catalog : IndexCatalog) : Prop :=
  ∃ caller pending, AnsweredBy config s table moments caller pending catalog ∧
    (s.calls.length ≤ caller ∨ pending.reply? = none)

-- More moments leave it so.
theorem AnsweredIn.append {config : ClientConfig} {s : Sharing} {table : String}
    {moments : List Moment} {catalog : IndexCatalog} (h : AnsweredIn config s table moments catalog)
    (more : List Moment) : AnsweredIn config s table (moments ++ more) catalog := by
  rcases h with ⟨caller, pending, before, after, reached, call, descriptor, rfl, h⟩
  exact ⟨caller, pending, before, after ++ more, reached, call, descriptor,
    List.append_assoc before (.answer caller :: after) more, h⟩

namespace Sharing

/-- What every step keeps from a state on in which the cache has nothing for a table: what the
    cache has for it was built from an answer that came since, and so was what calls for it
    have used that were made since. -/
structure Renewed (config : ClientConfig) (forgotten : Sharing) (table : String)
    (moments : List Moment) (s : Sharing) : Prop where
  length_le : forgotten.calls.length ≤ s.calls.length
  cached : ∀ catalog, s.cache.get? table = some catalog →
    AnsweredIn config forgotten table moments catalog
  replied : ∀ call reply, (call, CallState.done reply) ∈ s.calls.drop forgotten.calls.length →
    call.table = table → (∃ e, reply = .error e) ∨
      ∃ catalog, AnsweredIn config forgotten table moments catalog ∧
        reply = call.reply (.ok catalog)

-- Changing one element changes no other one.
theorem mem_drop_set {α : Type} {l : List α} {n i : Nat} {a b : α} (h : a ∈ (l.set i b).drop n) :
    a ∈ l.drop n ∨ a = b := by
  rw [List.drop_set] at h
  split at h
  · exact Or.inl h
  · exact List.mem_or_eq_of_mem_set h

section

variable {config : ClientConfig} {forgotten s next : Sharing} {table : String}
  {moment : Moment} {moments : List Moment} {caller : Nat} {call : CatalogCall}
  {state : CallState}

theorem forgotten_renewed (h : forgotten.cache.get? table = none) :
    Renewed config forgotten table [] forgotten := by
  refine ⟨Nat.le_refl _, fun catalog hheld => ?_, fun call reply hcall => ?_⟩
  · rw [h] at hheld
    exact absurd hheld nofun
  · rw [List.drop_length] at hcall
    exact absurd hcall List.not_mem_nil

-- It stays so as time goes by, and if the store changes.
theorem Renewed.later (h : Renewed config forgotten table moments s) (backend : Backend)
    (more : List Moment) :
    Renewed config forgotten table (moments ++ more) { s with backend } :=
  ⟨h.length_le, fun catalog hheld => (h.cached catalog hheld).append more,
    fun call reply hcall htable => (h.replied call reply hcall htable).imp id
      fun ⟨catalog, hanswered, hreply⟩ => ⟨catalog, hanswered.append more, hreply⟩⟩

-- A call may join that has not come to an end, or has used what the cache has.
theorem Renewed.joined (h : Renewed config forgotten table moments s)
    (hstate : ∀ reply, state = .done reply →
      ∃ catalog, s.cache.get? call.table = some catalog ∧ reply = call.reply (.ok catalog)) :
    Renewed config forgotten table moments (s.joined call state) := by
  refine ⟨?_, h.cached, fun other reply hcall htable => ?_⟩
  · rw [Sharing.joined, List.length_append]
    exact Nat.le_add_right_of_le h.length_le
  · rw [Sharing.joined, List.drop_append_of_le_length h.length_le] at hcall
    rcases List.mem_append.mp hcall with hold | hnew
    · exact h.replied other reply hold htable
    · rcases Prod.mk.inj (List.mem_singleton.mp hnew) with ⟨rfl, hreply⟩
      rcases hstate reply hreply.symm with ⟨catalog, hheld, husing⟩
      exact Or.inr ⟨catalog, h.cached catalog (htable ▸ hheld), husing⟩

-- Whoever waited for an answer, a catalog that gets into the cache is built from it.
theorem Renewed.settled (h : Renewed config forgotten table moments s)
    {answer : Except QueryError TableDescriptor}
    (hanswer : call.table = table → ∀ catalog, builtFrom config.threshold answer = some catalog →
      AnsweredIn config forgotten table moments catalog) :
    Renewed config forgotten table moments (s.settled config caller call answer) := by
  have hcached : ∀ catalog, (s.settled config caller call answer).cache.get? table = some catalog →
      AnsweredIn config forgotten table moments catalog := by
    intro catalog hheld
    rw [Sharing.settled, accept_get?] at hheld
    by_cases htable : table = call.table
    · rw [if_pos htable, Option.or_eq_some_iff] at hheld
      rcases hheld with hold | ⟨_, hnew⟩
      · exact h.cached catalog (htable ▸ hold)
      · exact hanswer htable.symm catalog hnew
    · rw [if_neg htable] at hheld
      exact h.cached catalog hheld
  refine ⟨?_, hcached, fun other reply hcall htable => ?_⟩
  · rw [Sharing.settled, List.length_set]
    exact h.length_le
  · rcases mem_drop_set hcall with hold | hnew
    · exact h.replied other reply hold htable
    · rw [Prod.mk.injEq, CallState.done.injEq] at hnew
      rcases hnew with ⟨rfl, rfl⟩
      cases haccepted : (accept config.threshold other.table answer s.cache).1 with
      | error e => exact Or.inl ⟨e, rfl⟩
      | ok catalog => exact Or.inr ⟨catalog, hcached catalog (htable ▸ accept_eq_ok haccepted), rfl⟩

/-- What is in the cache was built from an answer that came since the table was forgotten,
    after every step. -/
theorem step_renewed (hrun : forgotten.run config moments = some s)
    (h : Renewed config forgotten table moments s) (hstep : s.step config moment = some next) :
    Renewed config forgotten table (moments ++ [moment]) next := by
  cases step_effect hstep with
  | hit hheld => exact (h.later s.backend _).joined fun reply hreply =>
      ⟨_, hheld, (CallState.done.inj hreply).symm⟩
  | miss => exact (h.later _ _).joined fun reply hreply => absurd hreply nofun
  | @answered caller call pending reply backend hwaits hanswer =>
      refine (h.later backend _).settled fun htable catalog hbuilt => ?_
      rcases builtFrom_eq_some.mp hbuilt with ⟨descriptor, hreply, hbuild⟩
      exact ⟨caller, pending, moments, [], s, call, descriptor, rfl, hrun, hwaits, htable,
        (congrArg Prod.fst hanswer).trans (mapError_eq_ok.mp hreply), hbuild⟩
  | lapsed => exact (h.later s.backend _).settled fun _ _ hbuilt => absurd hbuilt nofun
  | @dropped caller call pending hwaits =>
      have hlater := h.later s.backend [.drop caller]
      refine ⟨?_, hlater.cached, fun other reply hcall htable => ?_⟩
      · rw [List.length_set]
        exact h.length_le
      · rcases mem_drop_set hcall with hold | hnew
        · exact hlater.replied other reply hold htable
        · exact absurd (Prod.mk.inj hnew).2 nofun
  | forgotten other =>
      have hlater := h.later s.backend [.forget other]
      refine ⟨h.length_le, fun catalog hheld => ?_, hlater.replied⟩
      rw [Cache.get?_remove] at hheld
      by_cases hother : table = other
      · rw [if_pos hother] at hheld
        exact absurd hheld nofun
      · rw [if_neg hother] at hheld
        exact hlater.cached catalog hheld
  | changed backend => exact h.later backend _

/-- Calls that are made after a table was forgotten, and succeed, have used a catalog that was
    built from an answer that came after it. This holds for any store. -/
theorem answered_since_forgotten (hforget : s.step config (.forget table) = some forgotten)
    (hrun : forgotten.run config moments = some next) :
    ∀ call reply, (call, CallState.done (.ok reply)) ∈ next.calls.drop forgotten.calls.length →
      call.table = table → ∃ catalog, AnsweredIn config forgotten table moments catalog ∧
        call.reply (.ok catalog) = .ok reply := by
  have hnone : forgotten.cache.get? table = none := by
    rw [← Option.some.inj hforget]
    exact (s.cache.get?_remove table table).trans (if_pos rfl)
  have hrenewed := run_preserves (P := Renewed config forgotten table) (forgotten_renewed hnone)
    (fun _ hbefore h hstep => step_renewed hbefore h hstep) hrun
  intro call reply hcall htable
  rcases hrenewed.replied call _ hcall htable with ⟨e, herror⟩ | ⟨catalog, hanswered, hreply⟩
  · exact absurd herror nofun
  · exact ⟨catalog, hanswered, hreply.symm⟩

-- A call that comes to an end is not one that waits.
theorem getElem?_of_set {calls : List (CatalogCall × CallState)} {i : Nat} {other : CatalogCall}
    {pending : Pending TableDescriptor} (hstate : ∀ pending, state ≠ .waiting pending)
    (h : (calls.set caller (call, state))[i]? = some (other, .waiting pending)) :
    calls[i]? = some (other, .waiting pending) := by
  rw [List.getElem?_set] at h
  split at h
  · rw [Option.ite_none_right_eq_some, Option.some.injEq] at h
    exact absurd (Prod.mk.inj h.2).2 (hstate pending)
  · exact h

/-- A call that waits was made by the step, or it waited for the same answer before. -/
theorem step_waiting (hstep : s.step config moment = some next) :
    s.calls.length ≤ next.calls.length ∧ ∀ i other pending, i < s.calls.length →
      next.calls[i]? = some (other, .waiting pending) →
      s.calls[i]? = some (other, .waiting pending) := by
  -- A call that settles or is dropped does not wait any more.
  have hdone : ∀ {caller : Nat} {call : CatalogCall} {state : CallState},
      (∀ pending, state ≠ .waiting pending) →
      s.calls.length ≤ (s.calls.set caller (call, state)).length ∧
        ∀ i other pending, i < s.calls.length →
          (s.calls.set caller (call, state))[i]? = some (other, .waiting pending) →
          s.calls[i]? = some (other, .waiting pending) :=
    fun hstate => ⟨Nat.le_of_eq List.length_set.symm, fun _ _ _ _ => getElem?_of_set hstate⟩
  cases step_effect hstep with
  | hit | miss =>
      refine ⟨?_, fun i other pending hi hwaits => ?_⟩
      · rw [Sharing.joined, List.length_append]
        exact Nat.le_add_right _ _
      · rw [Sharing.joined, List.getElem?_append_left hi] at hwaits
        exact hwaits
  | answered => exact hdone fun _ => by simp only [ne_eq, reduceCtorEq, not_false_eq_true]
  | lapsed => exact hdone fun _ => by simp only [ne_eq, reduceCtorEq, not_false_eq_true]
  | dropped => exact hdone fun _ => by simp only [ne_eq, reduceCtorEq, not_false_eq_true]
  | forgotten | changed => exact ⟨Nat.le_refl _, fun _ _ _ _ => id⟩

/-- The same of a whole run. -/
theorem run_waiting (hrun : s.run config moments = some next) :
    s.calls.length ≤ next.calls.length ∧ ∀ i other pending, i < s.calls.length →
      next.calls[i]? = some (other, .waiting pending) →
      s.calls[i]? = some (other, .waiting pending) := by
  refine run_preserves (P := fun _ t => s.calls.length ≤ t.calls.length ∧
    ∀ i other pending, i < s.calls.length → t.calls[i]? = some (other, .waiting pending) →
      s.calls[i]? = some (other, .waiting pending))
    ⟨Nat.le_refl _, fun _ _ _ _ => id⟩ (fun _ _ h hstep => ?_) hrun
  rcases step_waiting hstep with ⟨hlength, hwaits⟩
  exact ⟨Nat.le_trans h.1 hlength, fun i other pending hi hnext =>
    h.2 i other pending hi (hwaits i other pending (Nat.lt_of_lt_of_le hi h.1) hnext)⟩

/-- The store is a memory store, and so it was whenever a call was taken up that waits. -/
structure InMemory (s : Sharing) : Prop where
  store : ∃ store, s.backend = .memory store
  waiting : ∀ call pending, (call, CallState.waiting pending) ∈ s.calls → pending.reply? = none

-- A memory store answers with a report on its tables.
theorem InMemory.answer_eq (h : s.InMemory) {pending : Pending TableDescriptor}
    (hwaits : s.calls[caller]? = some (call, .waiting pending)) :
    ∃ store, s.backend = .memory store ∧
      (s.backend.answer (.describe call.table) pending).1 = store.report call.table ∧
      ∃ later, (s.backend.answer (.describe call.table) pending).2 = .memory later := by
  rcases h.store with ⟨store, hstore⟩
  have hreply := h.waiting call pending (List.mem_of_getElem? hwaits)
  obtain ⟨stall, reply?⟩ := pending
  cases hreply
  rw [hstore]
  exact ⟨store, rfl, rfl, _, rfl⟩

-- Calls that change do not wait longer than they did.
theorem InMemory.set_calls (h : s.InMemory) (hstate : ∀ pending, state ≠ .waiting pending) :
    ∀ other pending, (other, CallState.waiting pending) ∈ s.calls.set caller (call, state) →
      pending.reply? = none := by
  intro other pending hmem
  rcases List.getElem?_of_mem hmem with ⟨i, hi⟩
  exact h.waiting other pending (List.mem_of_getElem? (getElem?_of_set hstate hi))

/-- As long as the store is a memory store, no call waits for an answer that is there. -/
theorem step_inMemory (h : s.InMemory) (hstep : s.step config moment = some next)
    (hchange : ∀ backend, moment = .change backend → ∃ store, backend = .memory store) :
    next.InMemory := by
  cases step_effect hstep with
  | hit =>
      refine ⟨h.store, fun other pending hmem => ?_⟩
      rcases List.mem_append.mp hmem with hold | hnew
      · exact h.waiting other pending hold
      · exact absurd (Prod.mk.inj (List.mem_singleton.mp hnew)).2 nofun
  | miss hheld htake =>
      rcases h.store with ⟨store, hstore⟩
      rw [hstore] at htake
      rcases Prod.mk.inj htake with ⟨hpending, hbackend⟩
      refine ⟨⟨store, hbackend.symm⟩, fun other pending hmem => ?_⟩
      rcases List.mem_append.mp hmem with hold | hnew
      · exact h.waiting other pending hold
      · rw [CallState.waiting.inj (Prod.mk.inj (List.mem_singleton.mp hnew)).2, ← hpending]
        rfl
  | answered hwaits hanswer =>
      rcases h.answer_eq hwaits with ⟨_, _, _, later, hlater⟩
      rw [hanswer] at hlater
      exact ⟨⟨later, hlater⟩, h.set_calls nofun⟩
  | lapsed => exact ⟨h.store, h.set_calls nofun⟩
  | dropped => exact ⟨h.store, h.set_calls nofun⟩
  | forgotten => exact ⟨h.store, h.waiting⟩
  | changed backend => exact ⟨hchange backend rfl, h.waiting⟩

/-- The same of a whole run in which whatever is done to the store leaves a memory store. -/
theorem run_inMemory (h : s.InMemory) (hrun : s.run config moments = some next)
    (hchange : ∀ backend, Moment.change backend ∈ moments → ∃ store, backend = .memory store) :
    next.InMemory :=
  run_preserves (P := fun _ s => s.InMemory) h
    (fun hmoments _ h hstep => step_inMemory h hstep fun backend hbackend => hchange backend (by
      rw [hmoments, hbackend]
      exact List.mem_append_right _ List.mem_cons_self)) hrun

theorem start_inMemory (store : MemoryStore) : (start (.memory store)).InMemory :=
  ⟨⟨store, rfl⟩, fun _ _ h => absurd h List.not_mem_nil⟩

end

end Sharing

/-- A memory store reported on a table at one of the moments, as its tables were then, and the
    catalog was built from the report. -/
def ReportedIn (config : ClientConfig) (s : Sharing) (table : String) (moments : List Moment)
    (catalog : IndexCatalog) : Prop :=
  ∃ before caller after reached tables descriptor,
    moments = before ++ .answer caller :: after ∧ s.run config before = some reached ∧
    reached.backend = .memory tables ∧ tables.report table = .ok descriptor ∧
    IndexCatalog.build descriptor config.threshold = .ok catalog

-- What a memory store answers is its report.
theorem AnsweredIn.reported {config : ClientConfig} {s : Sharing} {table : String}
    {moments : List Moment} {catalog : IndexCatalog} (h : AnsweredIn config s table moments catalog)
    (hmemory : s.InMemory)
    (hchange : ∀ backend, Moment.change backend ∈ moments → ∃ store, backend = .memory store) :
    ReportedIn config s table moments catalog := by
  rcases h with ⟨caller, pending, before, after, reached, call, descriptor, rfl, hreached, hwaits,
    rfl, hanswer, hbuild⟩
  have hin := Sharing.run_inMemory hmemory hreached fun backend hmem =>
    hchange backend (List.mem_append_left _ hmem)
  rcases hin.answer_eq hwaits with ⟨tables, htables, hreport, _⟩
  exact ⟨before, caller, after, reached, tables, descriptor, rfl, hreached, htables,
    hreport.symm.trans hanswer, hbuild⟩

namespace Sharing

/-- A call for the table waits for an answer that the store has produced already, and a catalog
    can be built from it. -/
def HoldsStale (config : ClientConfig) (s : Sharing) (table : String) : Prop :=
  ∃ (caller : Nat) (call : CatalogCall) (pending : Pending TableDescriptor)
    (descriptor : TableDescriptor) (catalog : IndexCatalog),
    s.calls[caller]? = some (call, CallState.waiting pending) ∧ call.table = table ∧
    pending.reply? = some (.ok descriptor) ∧
    IndexCatalog.build descriptor config.threshold = .ok catalog

section

variable {config : ClientConfig} {s forgotten : Sharing} {table : String} {moments : List Moment}
  {caller : Nat} {call : CatalogCall} {pending : Pending TableDescriptor} {catalog : IndexCatalog}

-- An answer that is there already is the one that comes.
theorem answer_eq_of_reply {backend : Backend} {reply : Except StoreError TableDescriptor}
    (h : pending.reply? = some reply) :
    backend.answer (.describe table) pending = (reply, backend) := by
  obtain ⟨stall, reply?⟩ := pending
  cases h
  rfl

-- A memory store produces no answer before it is due.
theorem InMemory.not_holdsStale (h : s.InMemory) :
    ¬ s.HoldsStale config table := by
  rintro ⟨_, call, pending, descriptor, _, hwaits, _, hreply, _⟩
  rw [h.waiting call pending (List.mem_of_getElem? hwaits)] at hreply
  exact absurd hreply nofun

/-- If no answer is under way that a catalog could be built from, an answer that comes later was
    produced later. -/
theorem producedIn_of_answeredIn (h : AnsweredIn config s table moments catalog)
    (hstale : ¬ s.HoldsStale config table) : ProducedIn config s table moments catalog := by
  rcases h with ⟨caller, pending, before, after, reached, call, descriptor, hmoments, hreached,
    hwaits, htable, hanswer, hbuild⟩
  refine ⟨caller, pending, ⟨before, after, reached, call, descriptor, hmoments, hreached, hwaits,
    htable, hanswer, hbuild⟩, ?_⟩
  rcases Nat.lt_or_ge caller s.calls.length with hlt | hge
  · cases hreply : pending.reply? with
    | none => exact Or.inr rfl
    | some reply =>
        rw [answer_eq_of_reply hreply] at hanswer
        exact absurd ⟨caller, call, pending, descriptor, catalog,
          (run_waiting hreached).2 caller call pending hlt hwaits, htable,
          hreply.trans (congrArg some hanswer), hbuild⟩ hstale
  · exact Or.inl hge

/-- What the next call gets, if the one that waits is answered first, was produced before. -/
theorem not_producedIn_late (hwaits : s.calls[caller]? = some (call, .waiting pending))
    (hreply : pending.reply? ≠ none) (ask : CatalogCall) :
    ¬ ProducedIn config s table [.answer caller, .ask ask] catalog := by
  rintro ⟨other, waited, ⟨before, after, reached, called, descriptor, hmoments, hreached, hwaited,
    _⟩, hnew⟩
  match before with
  | [] =>
      obtain rfl := Moment.answer.inj (List.cons.inj hmoments).1
      rw [← Option.some.inj hreached, hwaits, Option.some.injEq] at hwaited
      obtain rfl := CallState.waiting.inj (Prod.mk.inj hwaited).2
      have hlt := (List.getElem?_eq_some_iff.mp hwaits).1
      exact hnew.elim (Nat.not_le_of_lt hlt) hreply
  | [_] => exact absurd (List.cons.inj (List.cons.inj hmoments).2).1 nofun
  | _ :: _ :: _ => exact absurd (congrArg List.length hmoments) (by
      simp only [List.length_append, List.length_cons, List.length_nil]; omega)

/-- An answer that is under way gets into the cache if it comes before the next call, which is
    then given what was built from it. -/
theorem late_answer_reused (hnone : s.cache.get? call.table = none)
    (hwaits : s.calls[caller]? = some (call, .waiting pending)) {descriptor : TableDescriptor}
    (hreply : pending.reply? = some (.ok descriptor))
    (hbuild : IndexCatalog.build descriptor config.threshold = .ok catalog) :
    ∃ next, s.run config [.answer caller, .ask ⟨call.table, none⟩] = some next ∧
      next.calls.drop s.calls.length = [(⟨call.table, none⟩, .done (.ok (.catalog catalog)))] := by
  have hanswer : s.step config (.answer caller) =
      some (s.settled config caller call (.ok descriptor)) := by
    refine Option.map_eq_some_iff.mpr ⟨(call, pending), waiting?_eq_some.mpr hwaits, ?_⟩
    dsimp only
    rw [answer_eq_of_reply hreply]
    rfl
  have hheld : (s.settled config caller call (.ok descriptor)).cache.get? call.table =
      some catalog := by
    have hbuilt := builtFrom_eq_some.mpr ⟨descriptor, rfl, hbuild⟩
    rw [settled, accept_get?, if_pos rfl, hnone, Option.none_or, hbuilt]
  refine ⟨(s.settled config caller call (.ok descriptor)).joined ⟨call.table, none⟩
    (.done (.ok (.catalog catalog))), ?_, ?_⟩
  · rw [run, List.foldlM_cons, hanswer, Option.bind_eq_bind, Option.bind_some, List.foldlM_cons,
      step, hheld]
    rfl
  · have hlength : s.calls.length = (s.settled config caller call (.ok descriptor)).calls.length :=
      List.length_set.symm
    rw [joined, hlength]
    exact List.drop_left

end

/-- What calls get that are made after a table was forgotten, whatever happens before and after
    and in whatever order. Every call for the table that is made after it was forgotten and
    succeeds uses a catalog built from what the store produced since, just if at the time of
    forgetting no call for the table waited for an answer that the store had produced before and
    that a catalog can be built from. In any case what it was built from came later than the
    forgetting, and if the store is a memory store, this was its report on the table as it was
    when it came. -/
theorem forget_refreshes_iff {config : ClientConfig} {backend : Backend} {before : List Moment}
    {table : String} {reached forgotten : Sharing}
    (hbefore : (start backend).run config before = some reached)
    (hforget : reached.step config (.forget table) = some forgotten) :
    ((∀ after s, forgotten.run config after = some s →
        ∀ call reply,
          (call, CallState.done (.ok reply)) ∈ s.calls.drop forgotten.calls.length →
          call.table = table → ∃ catalog, call.reply (.ok catalog) = .ok reply ∧
            ProducedIn config forgotten table after catalog) ↔
      ¬ reached.HoldsStale config table) ∧
    ∀ after s, forgotten.run config after = some s →
      ∀ call reply, (call, CallState.done (.ok reply)) ∈ s.calls.drop forgotten.calls.length →
        call.table = table → ∃ catalog, call.reply (.ok catalog) = .ok reply ∧
        AnsweredIn config forgotten table after catalog ∧
        ((∃ store, backend = .memory store) →
          (∀ other, Moment.change other ∈ before ++ after → ∃ store, other = .memory store) →
          ReportedIn config forgotten table after catalog) := by
  refine ⟨⟨fun hfresh hstale => ?_, fun hstale after s hafter call reply hcall htable => ?_⟩,
    fun after s hafter call reply hcall htable => ?_⟩
  · rcases hstale with ⟨caller, call, pending, descriptor, catalog, hwaits, rfl, hreply, hbuild⟩
    obtain rfl := Option.some.inj hforget
    have hnone := (reached.cache.get?_remove call.table call.table).trans (if_pos rfl)
    rcases late_answer_reused (s := { reached with cache := (reached.cache.remove call.table).2 })
      hnone hwaits hreply hbuild with ⟨next, hrun, hcalls⟩
    rcases hfresh _ next hrun ⟨call.table, none⟩ (.catalog catalog)
      (hcalls ▸ List.mem_singleton.mpr rfl) rfl with ⟨used, _, hproduced⟩
    exact not_producedIn_late (s := { reached with cache := (reached.cache.remove call.table).2 })
      hwaits (by rw [hreply]; exact Option.some_ne_none _) _ hproduced
  · rcases answered_since_forgotten hforget hafter call reply hcall htable with
      ⟨catalog, hanswered, hreply⟩
    refine ⟨catalog, hreply, producedIn_of_answeredIn hanswered ?_⟩
    rw [← Option.some.inj hforget]
    exact hstale
  · rcases answered_since_forgotten hforget hafter call reply hcall htable with
      ⟨catalog, hanswered, hreply⟩
    refine ⟨catalog, hreply, hanswered, ?_⟩
    rintro ⟨store, rfl⟩ hchange
    have hreached := run_inMemory (start_inMemory store) hbefore fun other hother =>
      hchange other (List.mem_append_left after hother)
    have hforgotten := step_inMemory hreached hforget nofun
    exact hanswered.reported hforgotten fun other hother =>
      hchange other (List.mem_append_right before hother)

/-- A memory store with some of the films. -/
def filmsStore (n : Nat) : MemoryStore :=
  { MemoryStore.empty 2 with tables := [("films", someFilms n)] }

/-- Two calls miss the cache, and the second one is answered. -/
def beforeForgetting : List Moment := [.ask askFilms, .ask askFilms, .answer 1]

/-- A film is added and a third call is made. The first one is answered before it. -/
def afterForgetting : List Moment :=
  [.change (.memory (filmsStore 2)), .ask askFilms, .answer 0, .answer 2]

/-- The cache had a catalog of one film. The third call gets a catalog of two, which the first
    one brought: the memory store had produced nothing for it before. -/
theorem forget_refreshes_films : ∃ reached forgotten s,
    (start (.memory (filmsStore 1))).run .default beforeForgetting = some reached ∧
    reached.cache.get? "films" = some (filmsCatalog 1) ∧
    reached.step .default (.forget "films") = some forgotten ∧
    forgotten.run .default afterForgetting = some s ∧
    s.calls.drop forgotten.calls.length =
      [(askFilms, .done (.ok (.catalog (filmsCatalog 2))))] ∧
    ¬ reached.HoldsStale .default "films" ∧
    ProducedIn .default forgotten "films" afterForgetting (filmsCatalog 2) ∧
    ReportedIn .default forgotten "films" afterForgetting (filmsCatalog 2) := by
  have hmemory : ∀ other, Moment.change other ∈ beforeForgetting ++ afterForgetting →
      ∃ store, other = .memory store := by
    intro other hmem
    simp only [beforeForgetting, afterForgetting, List.cons_append, List.nil_append, List.mem_cons,
      reduceCtorEq, false_or, List.not_mem_nil, or_false, Moment.change.injEq] at hmem
    exact ⟨_, hmem⟩
  obtain ⟨reached, forgotten, s, hreached, hheld, hforget, hrun, hcalls⟩ :
      ∃ reached forgotten s : Sharing,
        (start (.memory (filmsStore 1))).run .default beforeForgetting = some reached ∧
        reached.cache.get? "films" = some (filmsCatalog 1) ∧
        reached.step .default (.forget "films") = some forgotten ∧
        forgotten.run .default afterForgetting = some s ∧
        s.calls.drop forgotten.calls.length =
          [(askFilms, .done (.ok (.catalog (filmsCatalog 2))))] :=
    ⟨_, _, _, rfl, rfl, rfl, rfl, rfl⟩
  have hstale : ¬ reached.HoldsStale .default "films" :=
    (run_inMemory (start_inMemory _) hreached fun other hother =>
      hmemory other (List.mem_append_left _ hother)).not_holdsStale
  have hlast : (askFilms, CallState.done (.ok (.catalog (filmsCatalog 2)))) ∈
      s.calls.drop forgotten.calls.length := hcalls ▸ List.mem_singleton.mpr rfl
  obtain ⟨hrefreshes, hlater⟩ := forget_refreshes_iff hreached hforget
  rcases hrefreshes.mpr hstale _ s hrun askFilms _ hlast rfl with ⟨made, hmade, hproduced⟩
  rcases hlater _ s hrun askFilms _ hlast rfl with ⟨told, htold, _, hreported⟩
  obtain rfl := CatalogReply.catalog.inj (Except.ok.inj hmade)
  obtain rfl := CatalogReply.catalog.inj (Except.ok.inj htold)
  exact ⟨reached, forgotten, s, hreached, hheld, hforget, hrun, hcalls, hstale, hproduced,
    hreported ⟨_, rfl⟩ hmemory⟩

/-- A store describes the films as one, and they are forgotten before this gets to the client.
    It is what the next call is given all the same. -/
theorem forget_keeps_stale_films : ∃ reached forgotten s,
    (start filmsScript).run .default [.ask askFilms] = some reached ∧
    reached.step .default (.forget "films") = some forgotten ∧
    forgotten.run .default [.answer 0, .ask askFilms] = some s ∧
    s.calls.drop forgotten.calls.length =
      [(askFilms, .done (.ok (.catalog (filmsCatalog 1))))] ∧
    reached.HoldsStale .default "films" ∧
    ¬ ProducedIn .default forgotten "films" [.answer 0, .ask askFilms] (filmsCatalog 1) := by
  refine ⟨_, _, _, rfl, rfl, rfl, rfl, ⟨0, askFilms, _, _, _, rfl, rfl, rfl, rfl⟩, ?_⟩
  exact not_producedIn_late rfl (Option.some_ne_none _) askFilms

end Sharing

end Session

end WideColumn
