import Mathlib.Data.List.Forall2
import WideColumn.Proofs.Session.Catalogs
import WideColumn.Session.Step

/-!
# Sessions as Runs of Moments

What a session does for the catalogs of a client, moment by moment.

The calls of a session are runs of moments. A call for a catalog that has to wait is a call that
is made and an answer or a deadline later on, and plans that are started together are calls that
are all made before the first answer. So what holds of all runs holds of sessions, and of plans
that are started together in particular (`planTogether_agree`).

A world shows the calls of a client if it has their store and their cache (`Mirrors`). The
time and the deadlines of a session choose between the moments and leave nothing else behind.
That no plan is left over when the plans are finished needs an argument: every round lets at
least one of them go on whose moment has come, and there are as many rounds as plans.

## Main definitions

* `Sharing.Mirrors`: A world has the store and the cache of a client's calls.
* `Sharing.Leads`: Calls, answers and deadlines lead from one state to another.
* `Stands`: How far a plan has come that was started with others, as a call.

## Theorems

* `catalog_leads`: Asking for a catalog is a run of moments.
* `startPlan_leads`, `resume_leads`: So is starting a plan, and letting it go on.
* `finishPlans_leads`, `planTogether_leads`: So are plans that are started together.
* `forget_mirrors`: Forgetting a table is one moment.
* `planTogether_agree`: Plans that are started together are made with one catalog.
-/

namespace WideColumn

namespace Session

namespace Run

-- Work that begins by reading the world, by changing it, or by other work.
theorem get_bind {α : Type} (rest : World → Run α) (world : World) :
    (get >>= rest : Run α) world = rest world world :=
  rfl

theorem modify_bind {α : Type} (change : World → World) (rest : PUnit → Run α) (world : World) :
    ((modify change : Run PUnit) >>= rest) world = rest ⟨⟩ (change world) :=
  rfl

theorem bind_of_eq {α β : Type} {work : Run α} {world next : World} {a : α}
    (h : work world = (a, next)) (rest : α → Run β) : (work >>= rest) world = rest a next :=
  congrArg (fun done : α × World => rest done.1 done.2) h

end Run

/-- A call is made or goes on. -/
def Moment.isCall : Moment → Bool
  | .forget _ => false
  | .change _ => false
  | _ => true

namespace Sharing

/-- The world has the store of the calls, and their cache as that of the client. -/
structure Mirrors (client : Client) (world : World) (s : Sharing) : Prop where
  backend_eq : s.backend = world.backend
  cache_eq : s.cache = world.cacheOf client
  has_cache : client.cache < world.caches.length

/-- Calls that are made and go on lead from one state to another. -/
def Leads (config : ClientConfig) (s t : Sharing) : Prop :=
  ∃ moments, (∀ moment ∈ moments, moment.isCall = true) ∧ s.run config moments = some t

section

variable {config : ClientConfig} {s t u : Sharing}

theorem Leads.refl (config : ClientConfig) (s : Sharing) : Leads config s s :=
  ⟨[], fun _ h => absurd h List.not_mem_nil, rfl⟩

theorem Leads.single (moment : Moment) (hcall : moment.isCall = true)
    (hstep : s.step config moment = some t) : Leads config s t := by
  refine ⟨[moment], fun other hother => ?_, ?_⟩
  · rw [List.mem_singleton.mp hother]
    exact hcall
  · rw [run, List.foldlM_cons, hstep]
    rfl

theorem Leads.trans (hst : Leads config s t) (htu : Leads config t u) : Leads config s u := by
  rcases hst with ⟨before, hbefore, hs⟩
  rcases htu with ⟨after, hafter, ht⟩
  refine ⟨before ++ after, fun moment hmoment => ?_, ?_⟩
  · exact (List.mem_append.mp hmoment).elim (hbefore moment) (hafter moment)
  · rw [run_append, hs]
    exact ht

end

section

variable {client : Client} {world : World} {s : Sharing}

-- Neither the time nor the warnings of a world matter.
theorem Mirrors.passed (h : Mirrors client world s) (now : Nat) (warnings : List String) :
    Mirrors client { world with now, warnings } s :=
  ⟨h.backend_eq, h.cache_eq, h.has_cache⟩

theorem Mirrors.with_backend (h : Mirrors client world s) (backend : Backend) :
    Mirrors client { world with backend } { s with backend } :=
  ⟨rfl, h.cache_eq, h.has_cache⟩

theorem Mirrors.with_calls (h : Mirrors client world s)
    (calls : List (CatalogCall × CallState))
    (answers : List (String × Except QueryError TableDescriptor)) :
    Mirrors client world { s with calls, answers } :=
  ⟨h.backend_eq, h.cache_eq, h.has_cache⟩

-- A cache that is set is the one of the client.
theorem Mirrors.with_cache (h : Mirrors client world s) (cache : Cache IndexCatalog) :
    Mirrors client (world.setCache client cache) { s with cache } := by
  refine ⟨h.backend_eq, ?_, ?_⟩
  · rw [World.cacheOf, World.setCache, List.getElem?_set_self h.has_cache]
    rfl
  · rw [World.setCache, List.length_set]
    exact h.has_cache

-- Setting it to what it is changes nothing.
theorem Mirrors.with_same_cache (h : Mirrors client world s) :
    Mirrors client (world.setCache client (world.cacheOf client)) s :=
  have hset := h.with_cache (world.cacheOf client)
  ⟨h.backend_eq, h.cache_eq.trans hset.cache_eq, hset.has_cache⟩

/-- Forgetting a table is one moment. -/
theorem forget_mirrors (h : Mirrors client world s) {name : String}
    (hclient : world.clients.get? name = some client) (table : String) :
    ∃ t, s.step client.config (.forget table) = some t ∧
      Mirrors client (Step.run (.forget name table) world).2 t := by
  have hforget : Step.run (.forget name table) world =
      (.truth ((world.cacheOf client).remove table).1.isSome,
        world.setCache client ((world.cacheOf client).remove table).2) := by
    simp only [Step.run, Step.withClient, Run.get_bind, hclient]
    rfl
  rw [hforget]
  exact ⟨_, rfl, h.cache_eq ▸ h.with_cache _⟩

end

section

variable {client : Client} {world : World} {s : Sharing} {call : CatalogCall}
  {pending : Pending TableDescriptor} {earlier later : List (CatalogCall × CallState)}

-- A call that is made finds the catalog, or waits as long as the store lets it.
theorem ask_hit (call : CatalogCall) {catalog : IndexCatalog} (h : Mirrors client world s)
    (hheld : (world.cacheOf client).get? call.table = some catalog) :
    ∃ t, Leads client.config s t ∧ Mirrors client world t ∧
      t.calls = s.calls ++ [(call, .done (call.reply (.ok catalog)))] := by
  rw [← h.cache_eq] at hheld
  refine ⟨_, .single (.ask call) rfl ?_, h.with_calls _ s.answers, rfl⟩
  rw [step, hheld]
  rfl

theorem ask_miss (call : CatalogCall) (h : Mirrors client world s)
    (hheld : (world.cacheOf client).get? call.table = none) :
    ∃ t, Leads client.config s t ∧
      (∀ now, Mirrors client
        { world with now, backend := (world.backend.takeUp (.describe call.table)).2 } t) ∧
      t.calls = s.calls ++
        [(call, .waiting (world.backend.takeUp (.describe call.table)).1)] := by
  rw [← h.cache_eq] at hheld
  refine ⟨_, .single (.ask call) rfl ?_,
    fun now => ((h.with_backend _).passed now world.warnings).with_calls _ s.answers, rfl⟩
  rw [step, hheld, h.backend_eq]
  rfl

theorem waiting?_of_calls
    (hcalls : s.calls = earlier ++ (call, .waiting pending) :: later) :
    s.waiting? earlier.length = some (call, pending) := by
  refine waiting?_eq_some.mpr ?_
  rw [hcalls, List.getElem?_append_right (Nat.le_refl _), Nat.sub_self, List.getElem?_cons_zero]

-- The call whose place is known changes there.
theorem set_of_calls {x y : CatalogCall × CallState} (hcalls : s.calls = earlier ++ x :: later) :
    s.calls.set earlier.length y = earlier ++ y :: later := by
  rw [hcalls, List.set_append_right _ _ (Nat.le_refl _), Nat.sub_self, List.set_cons_zero]

/-- The world after a description has come and before it is accepted, and the description. -/
def described (world : World) (table : String) (pending : Pending TableDescriptor) :
    Except StoreError TableDescriptor × World :=
  let (reply, backend) := world.backend.answer (.describe table) pending
  (reply, { world with backend })

/-- The answer to a call that waits, and what becomes of it, is one moment. -/
theorem answer_leads (h : Mirrors client world s)
    (hcalls : s.calls = earlier ++ (call, .waiting pending) :: later)
    {accepted : Except QueryError IndexCatalog × World}
    (haccepted : Run.acceptDescription client call.table
      ((described world call.table pending).1.mapError .store)
      (described world call.table pending).2 = accepted) :
    ∃ t, Leads client.config s t ∧ Mirrors client accepted.2 t ∧
      t.calls = earlier ++ (call, .done (call.reply accepted.1)) :: later := by
  subst haccepted
  have hbackend := h.with_backend (described world call.table pending).2.backend
  refine ⟨({ s with backend := (described world call.table pending).2.backend } : Sharing).settled
      client.config earlier.length call ((described world call.table pending).1.mapError .store),
    .single (.answer earlier.length) rfl ?_, ?_, ?_⟩
  · rw [step, waiting?_of_calls hcalls, Option.map_some, h.backend_eq]
    rfl
  · rw [Sharing.settled, h.cache_eq]
    exact (hbackend.with_cache _).with_calls _ _
  · rw [Sharing.settled, h.cache_eq]
    exact set_of_calls hcalls

/-- So is the end of its deadline. -/
theorem lapse_leads (h : Mirrors client world s)
    (hcalls : s.calls = earlier ++ (call, .waiting pending) :: later)
    (hdeadline : client.config.fetchTimeout.isSome = true) :
    ∃ t, Leads client.config s t ∧ Mirrors client world t ∧
      t.calls = earlier ++ (call, .done (.error .timeout)) :: later := by
  refine ⟨s.settled client.config earlier.length call (.error .timeout),
    .single (.lapse earlier.length) rfl ?_, ?_, ?_⟩
  · rw [step, if_pos hdeadline, waiting?_of_calls hcalls, Option.map_some]
  · exact h.with_calls _ _
  · exact set_of_calls hcalls

end

end Sharing

namespace Run

open Sharing

theorem sleep_eq (ms : Nat) (deadline : Option Nat) (world : World) :
    sleep ms deadline world =
      if ms = 0 then (true, world)
      else if deadline.all (world.now + ms ≤ ·) then (true, { world with now := world.now + ms })
      else (false, { world with now := max world.now (deadline.getD world.now) }) := by
  by_cases hms : ms = 0
  · subst hms
    rfl
  · rw [if_neg hms]
    by_cases hdue : deadline.all (world.now + ms ≤ ·) = true
    · rw [if_pos hdue]
      simp only [sleep, get_bind, hms, if_false, hdue, if_true]
      rfl
    · rw [if_neg hdue]
      simp only [sleep, get_bind, hms, if_false, hdue]
      rfl

-- A wait changes the time, and only one with a deadline can fail.
theorem sleep_spec (ms : Nat) (deadline : Option Nat) (world : World) :
    ∃ woke now, sleep ms deadline world = (woke, { world with now }) ∧
      (woke = false → deadline.isSome = true) := by
  rw [sleep_eq]
  by_cases hms : ms = 0
  · rw [if_pos hms]
    exact ⟨true, world.now, rfl, nofun⟩
  · rw [if_neg hms]
    by_cases hdue : deadline.all (world.now + ms ≤ ·) = true
    · rw [if_pos hdue]
      exact ⟨true, _, rfl, nofun⟩
    · rw [if_neg hdue]
      refine ⟨false, _, rfl, fun _ => ?_⟩
      cases deadline with
      | none => exact absurd rfl hdue
      | some end? => rfl

-- The deadline of a call is counted from the time it is made.
theorem callDeadline_bind {α : Type} (client : Client) (rest : Option Nat → Run α)
    (world : World) : (callDeadline client >>= rest) world =
      rest (client.config.fetchTimeout.map fun timeout => world.now + timeout.milliseconds) world :=
  rfl

/-- A call to the store is answered, or its deadline has come. -/
theorem call_cases (client : Client) (call : Call) (world : World) :
    ∃ now, (client.config.fetchTimeout.isSome = true ∧ Run.call client none call world =
        (.error .timeout, { world with now, backend := (world.backend.takeUp call).2 })) ∨
      Run.call client none call world =
        (((world.backend.takeUp call).2.answer call (world.backend.takeUp call).1).1.mapError
            .store,
          { world with
            now
            backend := ((world.backend.takeUp call).2.answer call
              (world.backend.takeUp call).1).2 }) := by
  rcases sleep_spec (world.backend.takeUp call).1.stall
    (client.config.fetchTimeout.map fun timeout => world.now + timeout.milliseconds)
    { world with backend := (world.backend.takeUp call).2 } with ⟨woke, now, hsleep, hdeadline⟩
  refine ⟨now, ?_⟩
  rw [Option.isSome_map] at hdeadline
  simp only [Run.call, callDeadline_bind, get_bind, modify_bind, earlier, bind_of_eq hsleep]
  cases woke with
  | false => exact Or.inl ⟨hdeadline rfl, rfl⟩
  | true => exact Or.inr rfl

section

variable {client : Client} {world : World} {s : Sharing}

theorem catalog_hit {table : String} {catalog : IndexCatalog} (deadline : Option Nat)
    (hheld : (world.cacheOf client).get? table = some catalog) :
    Run.catalog client deadline table world = (.ok catalog, world) := by
  simp only [Run.catalog, get_bind, hheld]
  rfl

theorem catalog_miss {table : String} (deadline : Option Nat)
    (hheld : (world.cacheOf client).get? table = none) :
    Run.catalog client deadline table world = acceptDescription client table
      (Run.call client deadline (.describe table) world).1
      (Run.call client deadline (.describe table) world).2 := by
  simp only [Run.catalog, get_bind, hheld]
  rfl

/-- Asking for a catalog is a run of moments: a call is made, and if it has to wait it is
    answered or its deadline comes. -/
theorem catalog_leads (h : Mirrors client world s) (call : CatalogCall) :
    ∃ t, Leads client.config s t ∧
      Mirrors client (Run.catalog client none call.table world).2 t ∧
      t.calls = s.calls ++
        [(call, .done (call.reply (Run.catalog client none call.table world).1))] := by
  cases hheld : (world.cacheOf client).get? call.table with
  | some catalog =>
      rw [catalog_hit none hheld]
      exact ask_hit call h hheld
  | none =>
      rcases ask_miss call h hheld with ⟨asked, hasked, hmirrors, hcalls⟩
      rw [catalog_miss none hheld]
      rcases call_cases client (.describe call.table) world with ⟨now, hcall⟩
      rcases hcall with ⟨hdeadline, hcall⟩ | hcall
      · rcases lapse_leads (hmirrors now) hcalls hdeadline with ⟨t, hlapsed, ht, hdone⟩
        rw [hcall]
        exact ⟨t, hasked.trans hlapsed, ht.with_same_cache, hdone⟩
      · rcases answer_leads (hmirrors now) hcalls rfl with ⟨t, hanswered, ht, hdone⟩
        rw [hcall]
        exact ⟨t, hasked.trans hanswered, ht, hdone⟩

/-- Planning once the catalog is known changes the warnings only, and comes to the reply of the
    call. -/
theorem planFrom_spec (table : String) (e : Expression)
    (obtained : Except QueryError IndexCatalog) (world : World) :
    ∃ warnings, (planFrom table e obtained world).2 = { world with warnings } ∧
      (planFrom table e obtained world).1.map .plan =
        CatalogCall.reply ⟨table, some e⟩ obtained := by
  cases obtained with
  | error failure => exact ⟨world.warnings, rfl, rfl⟩
  | ok catalog => exact ⟨_, rfl, rfl⟩

/-- So planning an expression is a run of moments. -/
theorem plan_leads (h : Mirrors client world s) (table : String) (e : Expression) :
    ∃ t, Leads client.config s t ∧ Mirrors client (Run.plan client none table e world).2 t ∧
      t.calls = s.calls ++
        [(⟨table, some e⟩, .done ((Run.plan client none table e world).1.map .plan))] := by
  rcases catalog_leads h ⟨table, some e⟩ with ⟨t, hleads, hmirrors, hcalls⟩
  rcases planFrom_spec table e (Run.catalog client none table world).1
    (Run.catalog client none table world).2 with ⟨warnings, hworld, hreply⟩
  have hplan : Run.plan client none table e world = planFrom table e
      (Run.catalog client none table world).1 (Run.catalog client none table world).2 := rfl
  rw [hplan, hworld, hreply]
  exact ⟨t, hleads, hmirrors.passed _ warnings, hcalls⟩

end

/-- How far a plan has come that was started with others, as a call for its table. A plan that
    waits under a deadline has it from the client. -/
inductive Stands (config : ClientConfig) (table : String) : CatalogCall × CallState → Started → Prop
  | done (e : Expression) (result : Except QueryError QueryPlan) :
      Stands config table (⟨table, some e⟩, .done (result.map .plan)) (.done result)
  | waiting (pending : Pending TableDescriptor) (wake : Nat) (deadline : Option Nat)
      (e : Expression) (hdeadline : deadline.isSome = true → config.fetchTimeout.isSome = true) :
      Stands config table (⟨table, some e⟩, .waiting pending) (.waiting pending wake deadline e)

section

variable {client : Client} {world : World} {s : Sharing} {table : String}
  {earlier later : List (CatalogCall × CallState)}

-- A plan whose description is due comes to its end in one moment, and in no time.
theorem resumePlan_leads {pending : Pending TableDescriptor} {e : Expression}
    (h : Mirrors client world s)
    (hcalls : s.calls = earlier ++ (⟨table, some e⟩, .waiting pending) :: later) :
    ∃ t, Leads client.config s t ∧ Mirrors client (resumePlan client table pending e world).2 t ∧
      t.calls = earlier ++ (⟨table, some e⟩,
        .done ((resumePlan client table pending e world).1.map .plan)) :: later ∧
      (resumePlan client table pending e world).2.now = world.now := by
  rcases answer_leads h hcalls rfl with ⟨t, hleads, hmirrors, hdone⟩
  have hresume : resumePlan client table pending e world = planFrom table e
      (acceptDescription client table ((described world table pending).1.mapError .store)
        (described world table pending).2).1
      (acceptDescription client table ((described world table pending).1.mapError .store)
        (described world table pending).2).2 := rfl
  rcases planFrom_spec table e (acceptDescription client table
      ((described world table pending).1.mapError .store) (described world table pending).2).1
    (acceptDescription client table ((described world table pending).1.mapError .store)
      (described world table pending).2).2 with ⟨warnings, hworld, hreply⟩
  rw [hresume, hworld, hreply]
  exact ⟨t, hleads, hmirrors.passed _ warnings, hdone, rfl⟩

/-- Starting a plan is a run of moments: a call is made, and if it has not to wait it is
    answered. -/
theorem startPlan_leads (h : Mirrors client world s) (table : String) (e : Expression) :
    ∃ t x, Leads client.config s t ∧ Mirrors client (startPlan client table e world).2 t ∧
      t.calls = s.calls ++ [x] ∧ x.1 = ⟨table, some e⟩ ∧
      Stands client.config table x (startPlan client table e world).1 := by
  cases hheld : (world.cacheOf client).get? table with
  | some catalog =>
      have hstart : startPlan client table e world =
          (.done (planFrom table e (.ok catalog) world).1,
            (planFrom table e (.ok catalog) world).2) := by
        simp only [startPlan, get_bind, hheld]
        rfl
      rcases ask_hit ⟨table, some e⟩ h hheld with ⟨t, hleads, hmirrors, hcalls⟩
      rcases planFrom_spec table e (.ok catalog) world with ⟨warnings, hworld, hreply⟩
      rw [hstart]
      refine ⟨t, _, hleads, ?_, hcalls, rfl, ?_⟩
      · rw [hworld]
        exact hmirrors.passed _ warnings
      · rw [← hreply]
        exact .done e _
  | none =>
      rcases ask_miss ⟨table, some e⟩ h hheld with ⟨asked, hasked, hmirrors, hcalls⟩
      by_cases hstall : (world.backend.takeUp (.describe table)).1.stall = 0
      · have hstart : startPlan client table e world =
            (.done (resumePlan client table (world.backend.takeUp (.describe table)).1 e
                { world with backend := (world.backend.takeUp (.describe table)).2 }).1,
              (resumePlan client table (world.backend.takeUp (.describe table)).1 e
                { world with backend := (world.backend.takeUp (.describe table)).2 }).2) := by
          simp only [startPlan, get_bind, hheld, callDeadline_bind, modify_bind, hstall, if_true]
          rfl
        rcases resumePlan_leads (hmirrors world.now) hcalls with
          ⟨t, hleads, hdone, hcalls, _⟩
        rw [hstart]
        exact ⟨t, _, hasked.trans hleads, hdone, hcalls, rfl, .done e _⟩
      · have hstart : startPlan client table e world =
            (.waiting (world.backend.takeUp (.describe table)).1
              (world.now + (world.backend.takeUp (.describe table)).1.stall)
              (client.config.fetchTimeout.map fun timeout => world.now + timeout.milliseconds) e,
              { world with backend := (world.backend.takeUp (.describe table)).2 }) := by
          simp only [startPlan, get_bind, hheld, callDeadline_bind, modify_bind, hstall, if_false]
          rfl
        rw [hstart]
        refine ⟨asked, _, hasked, hmirrors world.now, hcalls, rfl, .waiting _ _ _ e fun hsome => ?_⟩
        rw [Option.isSome_map] at hsome
        exact hsome

/-- Letting a plan go on is a run of moments: it is answered if its description is due, and else
    its deadline may have come. No time passes, and it waits on only if neither is so. -/
theorem resume_leads {x : CatalogCall × CallState} {plan : Started} (h : Mirrors client world s)
    (hcalls : s.calls = earlier ++ x :: later) (hplan : Stands client.config table x plan) :
    ∃ t y, Leads client.config s t ∧ Mirrors client (resume client table plan world).2 t ∧
      t.calls = earlier ++ y :: later ∧ y.1 = x.1 ∧
      Stands client.config table y (resume client table plan world).1 ∧
      (resume client table plan world).2.now = world.now ∧
      ∀ moment, (resume client table plan world).1.moment? = some moment →
        plan.moment? = some moment ∧ world.now < moment := by
  cases hplan with
  | done e result => exact ⟨s, _, .refl _ s, h, hcalls, rfl, .done e result, rfl, nofun⟩
  | waiting pending wake deadline e hdeadline =>
      by_cases hwake : wake ≤ world.now
      · have hresume : resume client table (.waiting pending wake deadline e) world =
            (.done (resumePlan client table pending e world).1,
              (resumePlan client table pending e world).2) := by
          simp only [resume, get_bind, hwake, if_true]
          rfl
        rcases resumePlan_leads h hcalls with ⟨t, hleads, hmirrors, hdone, hnow⟩
        rw [hresume]
        exact ⟨t, _, hleads, hmirrors, hdone, rfl, .done e _, hnow, nofun⟩
      · by_cases hlapse : deadline.any (· ≤ world.now) = true
        · have hresume : resume client table (.waiting pending wake deadline e) world =
              (.done (.error .timeout), world) := by
            simp only [resume, get_bind, hwake, if_false, hlapse, if_true]
            rfl
          have hsome : deadline.isSome = true := by
            cases deadline with
            | none => exact hlapse
            | some moment => rfl
          rcases lapse_leads h hcalls (hdeadline hsome) with ⟨t, hleads, hmirrors, hdone⟩
          rw [hresume]
          exact ⟨t, _, hleads, hmirrors, hdone, rfl, .done e (.error .timeout), rfl, nofun⟩
        · have hresume : resume client table (.waiting pending wake deadline e) world =
              (.waiting pending wake deadline e, world) := by
            simp only [resume, get_bind, hwake, if_false, hlapse]
            rfl
          rw [hresume]
          refine ⟨s, _, .refl _ s, h, hcalls, rfl, .waiting pending wake deadline e hdeadline, rfl,
            fun moment hmoment => ⟨hmoment, ?_⟩⟩
          cases deadline with
          | none =>
              rw [← Option.some.inj hmoment]
              exact Nat.lt_of_not_le hwake
          | some last =>
              rw [← Option.some.inj hmoment]
              refine Nat.lt_min.mpr ⟨Nat.lt_of_not_le hwake, Nat.lt_of_not_le fun hle => hlapse ?_⟩
              exact decide_eq_true hle

end

section

variable {client : Client} {table : String}

-- Work on the elements of a list is done one after the other.
theorem mapM_cons_eq {α β : Type} (work : α → Run β) (a : α) (rest : List α) (world : World) :
    (a :: rest).mapM work world = ((work a world).1 :: (rest.mapM work (work a world).2).1,
      (rest.mapM work (work a world).2).2) := by
  rw [List.mapM_cons]
  rfl

/-- Starting several plans is a run of moments. -/
theorem startPlans_leads {world : World} {s : Sharing} (h : Mirrors client world s)
    (table : String) (es : List Expression) :
    ∃ t xs, Leads client.config s t ∧ Mirrors client (es.mapM (startPlan client table) world).2 t ∧
      t.calls = s.calls ++ xs ∧
      xs.map Prod.fst = es.map (fun e => ⟨table, some e⟩) ∧
      List.Forall₂ (Stands client.config table) xs (es.mapM (startPlan client table) world).1 := by
  induction es generalizing world s with
  | nil => exact ⟨s, [], .refl _ s, h, (List.append_nil _).symm, rfl, .nil⟩
  | cons e es ih =>
      rcases startPlan_leads h table e with ⟨t, x, hleads, hmirrors, hcalls, hx, hstands⟩
      rcases ih hmirrors with ⟨u, xs, hrest, hlast, hlater, hxs, hall⟩
      rw [mapM_cons_eq]
      refine ⟨u, x :: xs, hleads.trans hrest, hlast, ?_, ?_, .cons hstands hall⟩
      · rw [hlater, hcalls, List.append_assoc, List.singleton_append]
      · rw [List.map_cons, List.map_cons, hx, hxs]

/-- Letting all plans go on is a run of moments, and those that wait on have their moments
    behind the present time. -/
theorem resumeAll_leads {world : World} {s : Sharing} {earlier xs : List (CatalogCall × CallState)}
    {plans : List Started} (h : Mirrors client world s) (hcalls : s.calls = earlier ++ xs)
    (hplans : List.Forall₂ (Stands client.config table) xs plans) :
    ∃ t ys, Leads client.config s t ∧
      Mirrors client (plans.mapM (resume client table) world).2 t ∧ t.calls = earlier ++ ys ∧
      ys.map Prod.fst = xs.map Prod.fst ∧
      List.Forall₂ (Stands client.config table) ys (plans.mapM (resume client table) world).1 ∧
      ((plans.mapM (resume client table) world).1.filterMap Started.moment?).length ≤
        ((plans.filterMap Started.moment?).filter (world.now < ·)).length := by
  induction hplans generalizing world s earlier with
  | nil => exact ⟨s, [], .refl _ s, h, hcalls, rfl, .nil, Nat.le_refl _⟩
  | @cons x plan xs plans hplan _ ih =>
      rcases resume_leads h hcalls hplan with
        ⟨t, y, hleads, hmirrors, hdone, hy, hstands, hnow, hmoment⟩
      have hcons : t.calls = (earlier ++ [y]) ++ xs := by
        rw [hdone, List.append_assoc, List.singleton_append]
      rcases ih hmirrors hcons with ⟨u, ys, hrest, hlast, hlater, hys, hall, hcount⟩
      rw [mapM_cons_eq]
      refine ⟨u, y :: ys, hleads.trans hrest, hlast, ?_, ?_, .cons hstands hall, ?_⟩
      · rw [hlater, List.append_assoc, List.singleton_append]
      · rw [List.map_cons, List.map_cons, hy, hys]
      · rw [hnow] at hcount
        cases hgoes : (resume client table plan world).1.moment? with
        | none =>
            have hsublist := ((List.sublist_cons_self plan plans).filterMap
              Started.moment?).filter (world.now < ·)
            rw [List.filterMap_cons_none hgoes]
            exact Nat.le_trans hcount hsublist.length_le
        | some moment =>
            rcases hmoment moment hgoes with ⟨hwaits, hlt⟩
            have hlater : decide (world.now < moment) = true := decide_eq_true hlt
            rw [List.filterMap_cons_some hgoes, List.filterMap_cons_some hwaits, List.filter_cons,
              if_pos hlater, List.length_cons, List.length_cons]
            exact Nat.succ_le_succ hcount

/-- Finishing plans is a run of moments, and none is left over if there are as many rounds as
    plans that wait. -/
theorem finishPlans_leads (rounds : Nat) {world : World} {s : Sharing}
    {earlier xs : List (CatalogCall × CallState)} {plans : List Started}
    (h : Mirrors client world s) (hcalls : s.calls = earlier ++ xs)
    (hplans : List.Forall₂ (Stands client.config table) xs plans)
    (hrounds : (plans.filterMap Started.moment?).length ≤ rounds) :
    ∃ t ys, Leads client.config s t ∧
      Mirrors client (finishPlans client table rounds plans world).2 t ∧
      t.calls = earlier ++ ys ∧ ys.map Prod.fst = xs.map Prod.fst ∧
      List.Forall₂ (Stands client.config table) ys
        (finishPlans client table rounds plans world).1 ∧
      ∀ plan ∈ (finishPlans client table rounds plans world).1, plan.moment? = none := by
  induction rounds generalizing world s xs plans with
  | zero =>
      have hnone := List.eq_nil_of_length_eq_zero (Nat.le_zero.mp hrounds)
      exact ⟨s, xs, .refl _ s, h, hcalls, rfl, hplans, List.filterMap_eq_nil_iff.mp hnone⟩
  | succ rounds ih =>
      cases hmin : (plans.filterMap Started.moment?).min? with
      | none =>
          have hfinish : finishPlans client table (rounds + 1) plans world = (plans, world) := by
            simp only [finishPlans, hmin]
            rfl
          have hnone := List.min?_eq_none_iff.mp hmin
          rw [hfinish]
          exact ⟨s, xs, .refl _ s, h, hcalls, rfl, hplans, List.filterMap_eq_nil_iff.mp hnone⟩
      | some moment =>
          have hfinish : finishPlans client table (rounds + 1) plans world =
              finishPlans client table rounds
                (plans.mapM (resume client table) { world with now := max world.now moment }).1
                (plans.mapM (resume client table) { world with now := max world.now moment }).2 := by
            simp only [finishPlans, hmin, modify_bind]
            rfl
          rcases resumeAll_leads (h.passed (max world.now moment) world.warnings) hcalls hplans with
            ⟨t, ys, hleads, hmirrors, hdone, hys, hall, hcount⟩
          -- The moment that has come is one of those that the plans waited for.
          have hless : ((plans.filterMap Started.moment?).filter
              (max world.now moment < ·)).length < (plans.filterMap Started.moment?).length :=
            List.length_filter_lt_length_iff_exists.mpr ⟨moment, List.min?_mem hmin, by
              rw [decide_eq_true_eq]; exact Nat.not_lt.mpr (Nat.le_max_right _ _)⟩
          have hfewer := Nat.lt_of_le_of_lt hcount (Nat.lt_of_lt_of_le hless hrounds)
          rcases ih hmirrors hdone hall (Nat.le_of_lt_succ hfewer) with
            ⟨u, zs, hrest, hlast, hlater, hzs, hfinal, hnone⟩
          rw [hfinish]
          exact ⟨u, zs, hleads.trans hrest, hlast, hlater, hzs.trans hys, hfinal, hnone⟩

/-- A plan that has come to its end, as a call. -/
def planned (table : String) (pair : Expression × Except QueryError QueryPlan) :
    CatalogCall × CallState :=
  (⟨table, some pair.1⟩, .done (pair.2.map .plan))

-- Plans that have come to their end are calls that have.
theorem calls_of_stands {config : ClientConfig} {es : List Expression}
    {xs : List (CatalogCall × CallState)} {plans : List Started}
    (hplans : List.Forall₂ (Stands config table) xs plans)
    (hxs : xs.map Prod.fst = es.map fun e => ⟨table, some e⟩)
    (hdone : ∀ plan ∈ plans, plan.moment? = none) :
    ∃ results, plans = results.map Started.done ∧ xs = (es.zip results).map (planned table) := by
  induction hplans generalizing es with
  | nil => exact ⟨[], rfl, by rw [List.zip_nil_right, List.map_nil]⟩
  | @cons x plan xs plans hplan _ ih =>
      cases es with
      | nil => exact absurd hxs nofun
      | cons e es =>
          rcases List.cons.inj hxs with ⟨hx, hrest⟩
          rcases ih hrest fun other hother => hdone other (List.mem_cons_of_mem plan hother) with
            ⟨results, rfl, rfl⟩
          cases hplan with
          | done _ result =>
              rw [CatalogCall.mk.injEq, Option.some.injEq] at hx
              refine ⟨result :: results, rfl, ?_⟩
              rw [List.zip_cons_cons, List.map_cons, planned, hx.2]
          | waiting pending wake deadline =>
              have hnone := hdone _ List.mem_cons_self
              cases deadline with
              | none => exact absurd hnone nofun
              | some last => exact absurd hnone nofun

/-- Plans that are started together are calls in one run of moments, and every plan comes to
    what its call comes to. -/
theorem planTogether_leads {world : World} {s : Sharing} (h : Mirrors client world s)
    (table : String) (es : List Expression) :
    ∃ t, Leads client.config s t ∧ Mirrors client (planTogether client table es world).2 t ∧
      (planTogether client table es world).1.length = es.length ∧
      t.calls = s.calls ++
        (es.zip (planTogether client table es world).1).map (planned table) := by
  rcases startPlans_leads h table es with ⟨t, xs, hleads, hmirrors, hcalls, hxs, hall⟩
  rcases finishPlans_leads (es.mapM (startPlan client table) world).1.length hmirrors hcalls hall
    (List.length_filterMap_le _ _) with ⟨u, ys, hrest, hlast, hlater, hys, hfinal, hnone⟩
  rcases calls_of_stands hfinal (hys.trans hxs) hnone with ⟨results, hresults, rfl⟩
  have htogether : planTogether client table es world =
      (results, (finishPlans client table (es.mapM (startPlan client table) world).1.length
        (es.mapM (startPlan client table) world).1
        (es.mapM (startPlan client table) world).2).2) := by
    refine Prod.ext ((congrArg (List.map _) hresults).trans ?_) rfl
    rw [List.map_map]
    exact List.map_id results
  have hlength : results.length = es.length := by
    have hcount := congrArg List.length (hys.trans hxs)
    have hpairs := hfinal.length_eq
    simp only [hresults, List.length_map] at hcount hpairs
    exact hpairs.symm.trans hcount
  rw [htogether]
  exact ⟨u, hleads.trans hrest, hlast, hlength, hlater⟩

/-- Plans that are started together are made with one catalog. All of them that succeed use the
    catalog that the cache has for the table afterwards, whether it was there before or not. -/
theorem planTogether_agree (client : Client) (table : String) (es : List Expression)
    {world : World} (hcache : client.cache < world.caches.length) :
    (planTogether client table es world).1.length = es.length ∧
    ∀ pair ∈ es.zip (planTogether client table es world).1, ∀ plan, pair.2 = .ok plan →
      ∃ catalog, ((planTogether client table es world).2.cacheOf client).get? table =
        some catalog ∧ catalog.plan table pair.1 = .ok plan := by
  have hmirrors : Mirrors client world ⟨world.backend, world.cacheOf client, [], []⟩ :=
    ⟨rfl, rfl, hcache⟩
  rcases planTogether_leads hmirrors table es with
    ⟨t, ⟨moments, hcalls, hrun⟩, hlast, hlength, hends⟩
  refine ⟨hlength, fun pair hpair plan hplan => ?_⟩
  have hforget : ∀ table, Moment.forget table ∉ moments := fun table hmem =>
    absurd (hcalls _ hmem) Bool.false_ne_true
  have hagreed := run_agreed hrun hforget (idle_agreed rfl rfl)
  have hmem : planned table pair ∈ t.calls := by
    rw [hends, List.nil_append]
    exact List.mem_map_of_mem hpair
  rcases hagreed.replied _ _ hmem with ⟨e, herror⟩ | ⟨catalog, hheld, hreply⟩
  · rw [hplan] at herror
    exact absurd herror nofun
  · refine ⟨catalog, hlast.cache_eq ▸ hheld, ?_⟩
    rw [hplan] at hreply
    change Except.ok (CatalogReply.plan plan) = (catalog.plan table pair.1).map .plan at hreply
    cases hmade : catalog.plan table pair.1 with
    | error e =>
        rw [hmade] at hreply
        exact absurd hreply nofun
    | ok made =>
        rw [hmade] at hreply
        rw [CatalogReply.plan.inj (Except.ok.inj hreply)]

end

end Run

end Session

end WideColumn
