import WideColumn.Proofs.Store.Writes
import WideColumn.Session.World

/-!
# Calls That Share a Cache

What a client and its clones keep of the tables that they are asked about at the same time.

A call looks into the cache, and if the catalog is not there it has the table described and
waits. Everything else runs in between: other calls for the same table find the cache empty
as well, and the store may describe the table to each of them in another way, fail or never
answer. `Sharing.step` takes one such moment, out of the same parts that a session is run
with, and nothing is assumed about their order.

The catalog in the cache is the first one that could be built from what the store answered.
This is one equation between the cache and the list of answers (`Agreed.kept_first`), and it
is all that every step has to keep. Calls that never overlap are counted instead: for a
table, the calls that wait and the answers that a catalog could be built from are at most one
together, since a call waits only as long as there is no such answer.

A clone of a client has the settings and the cache of the client, so calls are not told apart
by who makes them.

## Main definitions

* `CatalogCall`, `CatalogReply`: What is asked of a client that needs a catalog.
* `Moment`, `Sharing.step`, `Sharing.run`: Calls, answers and everything in between.
* `built`: The catalogs that could be built from the answers for a table.
* `Sharing.Agreed`: What every step keeps.
* `Apart`: No call for a table is made while another one for it waits.

## Theorems

* `accept_get?`, `accept_eq_ok`: What accepting a description does to the cache.
* `run_preserves`: What every step keeps holds after every run.
* `step_cache`: When the cache changes, and that what is in it stays.
* `step_agreed`, `run_agreed`: The cache has the first catalog that could be built.
* `step_single`: Where calls do not overlap, one catalog is built for a table.
* `run_catalogs_agree`: What calls get in a run in which no table is forgotten.
-/

namespace WideColumn

namespace Cache

variable {α : Type}

theorem get?_insertIfAbsent (cache : Cache α) (name other : String) (content : α) :
    (cache.insertIfAbsent name content).2.get? other =
      if other = name then (cache.get? name).or (some content) else cache.get? other := by
  rw [insertIfAbsent]
  cases hheld : cache.get? name with
  | some held =>
      by_cases hother : other = name
      · rw [if_pos hother, hother]
        exact hheld
      · rw [if_neg hother]
  | none => exact Keyed.get?_insert cache.entries name other content

theorem get?_remove (cache : Cache α) (name other : String) :
    (cache.remove name).2.get? other = if other = name then none else cache.get? other := by
  refine (Keyed.get?_restrict cache.entries (· != name) other).trans ?_
  by_cases hother : other = name
  · rw [if_pos hother, if_neg (by rw [hother, bne_self_eq_false]; exact Bool.false_ne_true)]
  · rw [if_neg hother, if_pos (bne_iff_ne.mpr hother)]
    rfl

end Cache

theorem mapError_eq_ok {ε δ α : Type} {f : ε → δ} {x : Except ε α} {a : α} :
    x.mapError f = .ok a ↔ x = .ok a := by
  cases x with
  | error e => exact iff_of_false nofun nofun
  | ok b => exact ⟨fun h => congrArg Except.ok (Except.ok.inj h), fun h => h ▸ rfl⟩

/-- The catalog of a table as it was described, if there is one. -/
def builtFrom (threshold : Binary64) : Except QueryError TableDescriptor → Option IndexCatalog
  | .error _ => none
  | .ok descriptor => (IndexCatalog.build descriptor threshold).toOption

theorem builtFrom_eq_some {threshold : Binary64} {answer : Except QueryError TableDescriptor}
    {catalog : IndexCatalog} : builtFrom threshold answer = some catalog ↔
      ∃ descriptor, answer = .ok descriptor ∧
        IndexCatalog.build descriptor threshold = .ok catalog := by
  cases answer with
  | error e => exact ⟨nofun, fun ⟨_, h, _⟩ => absurd h nofun⟩
  | ok descriptor =>
      rw [builtFrom]
      constructor
      · intro h
        refine ⟨descriptor, rfl, ?_⟩
        cases hbuild : IndexCatalog.build descriptor threshold with
        | error defect => rw [hbuild] at h; exact absurd h nofun
        | ok built => rw [hbuild] at h; exact congrArg Except.ok (Option.some.inj h)
      · rintro ⟨_, hdescriptor, hbuild⟩
        rw [Except.ok.inj hdescriptor, hbuild]
        rfl

section Accepting

variable {threshold : Binary64} {table : String} {answer : Except QueryError TableDescriptor}
  {cache : Cache IndexCatalog} {catalog : IndexCatalog}

-- Without a catalog the cache stays, and otherwise the catalog is kept unless there is one.
theorem accept_cases (threshold : Binary64) (table : String)
    (answer : Except QueryError TableDescriptor) (cache : Cache IndexCatalog) :
    (builtFrom threshold answer = none ∧
      ∃ e, accept threshold table answer cache = (.error e, cache)) ∨
    ∃ catalog, builtFrom threshold answer = some catalog ∧
      accept threshold table answer cache =
        (.ok (cache.insertIfAbsent table catalog).1, (cache.insertIfAbsent table catalog).2) := by
  cases answer with
  | error e => exact Or.inl ⟨rfl, e, rfl⟩
  | ok descriptor =>
      cases hbuild : IndexCatalog.build descriptor threshold with
      | error defect =>
          refine Or.inl ⟨?_, .invalidDescriptor defect, ?_⟩
          · rw [builtFrom, hbuild]
            rfl
          · rw [accept, hbuild]
      | ok catalog =>
          refine Or.inr ⟨catalog, ?_, ?_⟩
          · rw [builtFrom, hbuild]
            rfl
          · rw [accept, hbuild]

/-- After an answer is accepted, the cache has what it had for the table, or else the catalog
    that could be built. -/
theorem accept_get? (other : String) : (accept threshold table answer cache).2.get? other =
    if other = table then (cache.get? table).or (builtFrom threshold answer)
    else cache.get? other := by
  rcases accept_cases threshold table answer cache with ⟨hnone, e, haccept⟩ | ⟨c, hsome, haccept⟩
  · rw [haccept, hnone, Option.or_none]
    by_cases hother : other = table
    · rw [if_pos hother, hother]
    · rw [if_neg hother]
  · rw [haccept, hsome]
    exact cache.get?_insertIfAbsent table other c

/-- The catalog that comes of an answer is the one in the cache. -/
theorem accept_eq_ok (h : (accept threshold table answer cache).1 = .ok catalog) :
    (accept threshold table answer cache).2.get? table = some catalog := by
  rcases accept_cases threshold table answer cache with ⟨_, e, haccept⟩ | ⟨c, _, haccept⟩
  · rw [haccept] at h
    exact absurd h nofun
  · rw [haccept, Except.ok.injEq] at h
    rw [haccept, cache.get?_insertIfAbsent, if_pos rfl, ← h, Cache.insertIfAbsent]
    cases cache.get? table with
    | some held => rfl
    | none => rfl

-- What is in the cache stays there.
theorem accept_keeps {other : String} (h : cache.get? other = some catalog) :
    (accept threshold table answer cache).2.get? other = some catalog := by
  rw [accept_get?]
  by_cases hother : other = table
  · rw [if_pos hother, ← hother, h, Option.some_or]
  · rw [if_neg hother, h]

end Accepting

namespace Session

/-- What a client is asked for: the catalog of a table, or a plan made with it. -/
structure CatalogCall where
  table : String
  expression : Option Expression

/-- What a call is answered with. -/
inductive CatalogReply where
  | catalog (catalog : IndexCatalog)
  | plan (plan : QueryPlan)

/-- What a call comes to once the catalog is known. There is no wait in it. -/
def CatalogCall.reply (call : CatalogCall) :
    Except QueryError IndexCatalog → Except QueryError CatalogReply
  | .error e => .error e
  | .ok catalog =>
    match call.expression with
    | none => .ok (.catalog catalog)
    | some e => (catalog.plan call.table e).map .plan

/-- How far a call has come. -/
inductive CallState where
  /-- The table is being described. -/
  | waiting (pending : Pending TableDescriptor)
  /-- It was given up by whoever made it. -/
  | dropped
  | done (reply : Except QueryError CatalogReply)

/-- What happens between a client, its clones and the store. A call is named by how many were
    made before it. -/
inductive Moment where
  | ask (call : CatalogCall)
  /-- The store answers a call that waits. -/
  | answer (caller : Nat)
  /-- The deadline of a call that waits has come. -/
  | lapse (caller : Nat)
  | drop (caller : Nat)
  | forget (table : String)
  /-- Something else is done to the store. -/
  | change (backend : Backend)

/-- The calls for catalogs of a client and its clones. -/
structure Sharing where
  backend : Backend
  cache : Cache IndexCatalog
  calls : List (CatalogCall × CallState)
  /-- What has come for the calls, each with the table that was to be described. -/
  answers : List (String × Except QueryError TableDescriptor)

/-- The catalogs that could be built from the answers for a table, in order. -/
def built (threshold : Binary64) (table : String)
    (answers : List (String × Except QueryError TableDescriptor)) : List IndexCatalog :=
  answers.filterMap fun answer =>
    if answer.1 = table then builtFrom threshold answer.2 else none

/-- The call is for a table and waits. -/
def waitsFor (table : String) : CatalogCall × CallState → Bool
  | (call, .waiting _) => call.table == table
  | _ => false

namespace Sharing

/-- A client at first has an empty cache. -/
def start (backend : Backend) : Sharing := ⟨backend, .empty, [], []⟩

/-- The call of a number, if it waits. -/
def waiting? (s : Sharing) (caller : Nat) : Option (CatalogCall × Pending TableDescriptor) :=
  match s.calls[caller]? with
  | some (call, .waiting pending) => some (call, pending)
  | _ => none

/-- One more call, which has come so far. -/
def joined (s : Sharing) (call : CatalogCall) (state : CallState) : Sharing :=
  { s with calls := s.calls ++ [(call, state)] }

/-- What a call has waited for has come and is accepted. -/
def settled (config : ClientConfig) (s : Sharing) (caller : Nat) (call : CatalogCall)
    (answer : Except QueryError TableDescriptor) : Sharing :=
  let accepted := accept config.threshold call.table answer s.cache
  { s with
    cache := accepted.2
    calls := s.calls.set caller (call, .done (call.reply accepted.1))
    answers := s.answers ++ [(call.table, answer)] }

/-- One moment. Only a call that waits is answered, lapses or is dropped, and none lapses if
    the client sets no deadline. -/
def step (config : ClientConfig) (s : Sharing) : Moment → Option Sharing
  | .ask call =>
    match s.cache.get? call.table with
    | some catalog => some (s.joined call (.done (call.reply (.ok catalog))))
    | none =>
      let (pending, backend) := s.backend.takeUp (.describe call.table)
      some ({ s with backend }.joined call (.waiting pending))
  | .answer caller => (s.waiting? caller).map fun (call, pending) =>
    let (reply, backend) := s.backend.answer (.describe call.table) pending
    { s with backend }.settled config caller call (reply.mapError .store)
  | .lapse caller =>
    if config.fetchTimeout.isSome then
      (s.waiting? caller).map fun (call, _) => s.settled config caller call (.error .timeout)
    else none
  | .drop caller => (s.waiting? caller).map fun (call, _) =>
    { s with calls := s.calls.set caller (call, .dropped) }
  | .forget table => some { s with cache := (s.cache.remove table).2 }
  | .change backend => some { s with backend }

/-- One moment after the other. -/
def run (config : ClientConfig) (s : Sharing) (moments : List Moment) : Option Sharing :=
  moments.foldlM (step config) s

theorem waiting?_eq_some {s : Sharing} {caller : Nat} {call : CatalogCall}
    {pending : Pending TableDescriptor} :
    s.waiting? caller = some (call, pending) ↔
      s.calls[caller]? = some (call, .waiting pending) := by
  rw [waiting?]
  constructor
  · intro h
    split at h
    next hcall => rw [hcall, ← (Prod.mk.inj (Option.some.inj h)).1,
      ← (Prod.mk.inj (Option.some.inj h)).2]
    next => exact absurd h nofun
  · intro h
    rw [h]

/-- The ways that a moment can go. -/
inductive Effect (config : ClientConfig) (s : Sharing) : Moment → Sharing → Prop
  | hit {call : CatalogCall} {catalog : IndexCatalog}
      (hheld : s.cache.get? call.table = some catalog) :
      Effect config s (.ask call) (s.joined call (.done (call.reply (.ok catalog))))
  | miss {call : CatalogCall} {pending : Pending TableDescriptor} {backend : Backend}
      (hheld : s.cache.get? call.table = none)
      (htake : s.backend.takeUp (.describe call.table) = (pending, backend)) :
      Effect config s (.ask call) ({ s with backend }.joined call (.waiting pending))
  | answered {caller : Nat} {call : CatalogCall} {pending : Pending TableDescriptor}
      {reply : Except StoreError TableDescriptor} {backend : Backend}
      (hwaits : s.calls[caller]? = some (call, .waiting pending))
      (hanswer : s.backend.answer (.describe call.table) pending = (reply, backend)) :
      Effect config s (.answer caller)
        ({ s with backend }.settled config caller call (reply.mapError .store))
  | lapsed {caller : Nat} {call : CatalogCall} {pending : Pending TableDescriptor}
      (hdeadline : config.fetchTimeout.isSome = true)
      (hwaits : s.calls[caller]? = some (call, .waiting pending)) :
      Effect config s (.lapse caller) (s.settled config caller call (.error .timeout))
  | dropped {caller : Nat} {call : CatalogCall} {pending : Pending TableDescriptor}
      (hwaits : s.calls[caller]? = some (call, .waiting pending)) :
      Effect config s (.drop caller)
        { s with calls := s.calls.set caller (call, .dropped) }
  | forgotten (table : String) :
      Effect config s (.forget table) { s with cache := (s.cache.remove table).2 }
  | changed (backend : Backend) : Effect config s (.change backend) { s with backend }

theorem step_effect {config : ClientConfig} {s next : Sharing} {moment : Moment}
    (h : s.step config moment = some next) : Effect config s moment next := by
  cases moment with
  | ask call =>
      rw [step] at h
      cases hheld : s.cache.get? call.table with
      | some catalog =>
          rw [hheld] at h
          exact Option.some.inj h ▸ .hit hheld
      | none =>
          rw [hheld] at h
          exact Option.some.inj h ▸ .miss hheld rfl
  | answer caller =>
      rcases Option.map_eq_some_iff.mp h with ⟨⟨call, pending⟩, hwaits, hnext⟩
      exact hnext ▸ .answered (waiting?_eq_some.mp hwaits) rfl
  | lapse caller =>
      rw [step, Option.ite_none_right_eq_some] at h
      rcases Option.map_eq_some_iff.mp h.2 with ⟨⟨call, pending⟩, hwaits, hnext⟩
      exact hnext ▸ .lapsed h.1 (waiting?_eq_some.mp hwaits)
  | drop caller =>
      rcases Option.map_eq_some_iff.mp h with ⟨⟨call, pending⟩, hwaits, hnext⟩
      exact hnext ▸ .dropped (waiting?_eq_some.mp hwaits)
  | forget table => exact Option.some.inj h ▸ .forgotten table
  | change backend => exact Option.some.inj h ▸ .changed backend

section Runs

variable {config : ClientConfig} {s next last : Sharing} {moment : Moment}
  {before after moments : List Moment}

theorem run_append : s.run config (before ++ after) =
    (s.run config before).bind (·.run config after) :=
  List.foldlM_append

theorem run_snoc (hbefore : s.run config before = some next)
    (hstep : next.step config moment = some last) :
    s.run config (before ++ [moment]) = some last := by
  rw [run_append, hbefore, Option.bind_some, run, List.foldlM_cons, hstep]
  rfl

/-- What holds at first and is kept by every step of a run holds after it. What holds may
    speak of the moments so far. -/
theorem run_preserves {P : List Moment → Sharing → Prop} (hstart : P [] s)
    (hstep : ∀ {before : List Moment} {moment : Moment} {after : List Moment}
        {reached next : Sharing},
      moments = before ++ moment :: after → s.run config before = some reached → P before reached →
      reached.step config moment = some next → P (before ++ [moment]) next)
    (hrun : s.run config moments = some last) : P moments last := by
  -- Of the moments some are past, and what they lead to is kept along with them.
  have hsplit : ∀ (after before : List Moment) (reached : Sharing), moments = before ++ after →
      s.run config before = some reached → P before reached →
      reached.run config after = some last → P moments last := by
    intro after
    induction after with
    | nil =>
        intro before reached hmoments _ hreached hlast
        rw [hmoments, List.append_nil, ← Option.some.inj hlast]
        exact hreached
    | cons moment after ih =>
        intro before reached hmoments hbefore hreached hlast
        rw [run, List.foldlM_cons] at hlast
        rcases Option.bind_eq_some_iff.mp hlast with ⟨next, hnext, hrest⟩
        refine ih (before ++ [moment]) next ?_ (run_snoc hbefore hnext)
          (hstep hmoments hbefore hreached hnext) hrest
        rw [hmoments, List.append_assoc, List.singleton_append]
  exact hsplit moments [] s rfl rfl hstart hrun

end Runs

/-- The answer to a call puts a catalog into the cache, which had none for the table. -/
structure Lands (config : ClientConfig) (s : Sharing) (caller : Nat) (call : CatalogCall)
    (catalog : IndexCatalog) (next : Sharing) : Prop where
  absent : s.cache.get? call.table = none
  inserted : next.cache = (s.cache.insertIfAbsent call.table catalog).2
  answered : ∃ pending descriptor, s.calls[caller]? = some (call, .waiting pending) ∧
    (s.backend.answer (.describe call.table) pending).1 = .ok descriptor ∧
    IndexCatalog.build descriptor config.threshold = .ok catalog

/-- What every step keeps as long as no table is forgotten: the cache has what it had for a
    table at first, or else the first catalog that could be built for it, and every call that
    came to an end failed or has used what the cache has. -/
structure Agreed (config : ClientConfig) (first : Cache IndexCatalog) (s : Sharing) : Prop where
  kept_first : ∀ table, s.cache.get? table =
    (first.get? table).or (built config.threshold table s.answers).head?
  replied : ∀ call reply, (call, CallState.done reply) ∈ s.calls →
    (∃ e, reply = .error e) ∨
      ∃ catalog, s.cache.get? call.table = some catalog ∧ reply = call.reply (.ok catalog)

section

variable {config : ClientConfig} {first : Cache IndexCatalog} {s next : Sharing}
  {moment : Moment} {caller : Nat} {call : CatalogCall} {state : CallState}

theorem built_append (threshold : Binary64) (table : String)
    (answers : List (String × Except QueryError TableDescriptor)) (other : String)
    (answer : Except QueryError TableDescriptor) :
    built threshold table (answers ++ [(other, answer)]) = built threshold table answers ++
      (if other = table then builtFrom threshold answer else none).toList := by
  rw [built, List.filterMap_append, built]
  congr 1

/-- A step that forgets no table leaves what is in the cache. It leaves the whole cache, unless
    an answer lands. -/
theorem step_cache (hstep : s.step config moment = some next)
    (hforget : ∀ table, moment ≠ .forget table) :
    (∀ table catalog, s.cache.get? table = some catalog →
      next.cache.get? table = some catalog) ∧
    (next.cache = s.cache ∨ ∃ caller call catalog,
      moment = .answer caller ∧ s.Lands config caller call catalog next) := by
  cases step_effect hstep with
  | hit | miss | dropped | changed => exact ⟨fun _ _ h => h, Or.inl rfl⟩
  | forgotten table => exact absurd rfl (hforget table)
  | lapsed => exact ⟨fun _ _ => accept_keeps, Or.inl rfl⟩
  | @answered caller call pending reply backend hwaits hanswer =>
      refine ⟨fun _ _ => accept_keeps, ?_⟩
      rcases accept_cases config.threshold call.table (reply.mapError .store) s.cache with
        ⟨_, e, haccept⟩ | ⟨catalog, hbuilt, haccept⟩
      · exact Or.inl (congrArg Prod.snd haccept)
      · cases hheld : s.cache.get? call.table with
        | some held =>
            refine Or.inl ((congrArg Prod.snd haccept).trans ?_)
            rw [Cache.insertIfAbsent, hheld]
        | none =>
            refine Or.inr ⟨caller, call, catalog, rfl, hheld, congrArg Prod.snd haccept, pending,
              ?_⟩
            rcases builtFrom_eq_some.mp hbuilt with ⟨descriptor, hreply, hbuild⟩
            exact ⟨descriptor, hwaits,
              (congrArg Prod.fst hanswer).trans (mapError_eq_ok.mp hreply), hbuild⟩

-- Before anything was asked.
theorem idle_agreed (hcalls : s.calls = []) (hanswers : s.answers = []) :
    s.Agreed config s.cache := by
  refine ⟨fun table => ?_, fun other reply hmem => ?_⟩
  · rw [hanswers]
    exact Option.or_none.symm
  · rw [hcalls] at hmem
    exact absurd hmem List.not_mem_nil

-- A call may join that has not come to an end, or has used what the cache has.
theorem Agreed.joined (h : s.Agreed config first)
    (hstate : ∀ reply, state = .done reply →
      ∃ catalog, s.cache.get? call.table = some catalog ∧ reply = call.reply (.ok catalog)) :
    (s.joined call state).Agreed config first := by
  refine ⟨h.kept_first, fun other reply hmem => ?_⟩
  rcases List.mem_append.mp hmem with hold | hnew
  · exact h.replied other reply hold
  · rcases Prod.mk.inj (List.mem_singleton.mp hnew) with ⟨rfl, hreply⟩
    exact Or.inr (hstate reply hreply.symm)

-- What has come can only be the first for its table if the cache had nothing.
theorem Agreed.settled (h : s.Agreed config first) (caller : Nat) (call : CatalogCall)
    (answer : Except QueryError TableDescriptor) :
    (s.settled config caller call answer).Agreed config first := by
  refine ⟨fun table => ?_, fun other reply hmem => ?_⟩
  · refine accept_get? table |>.trans ?_
    rw [Sharing.settled, built_append, List.head?_append, ← Option.or_assoc, ← h.kept_first table]
    by_cases htable : table = call.table
    · rw [if_pos htable, if_pos htable.symm, htable, Option.head?_toList]
    · rw [if_neg htable, if_neg (Ne.symm htable)]
      exact (Option.or_none).symm
  · rcases List.mem_or_eq_of_mem_set hmem with hold | hnew
    · exact (h.replied other reply hold).imp id fun ⟨catalog, hheld, hreply⟩ =>
        ⟨catalog, accept_keeps hheld, hreply⟩
    · rw [Prod.mk.injEq, CallState.done.injEq] at hnew
      rcases hnew with ⟨rfl, rfl⟩
      cases haccepted : (accept config.threshold other.table answer s.cache).1 with
      | error e => exact Or.inl ⟨e, rfl⟩
      | ok catalog => exact Or.inr ⟨catalog, accept_eq_ok haccepted, rfl⟩

-- The store does not matter.
theorem Agreed.with_backend (h : s.Agreed config first) (backend : Backend) :
    ({ s with backend } : Sharing).Agreed config first := ⟨h.kept_first, h.replied⟩

/-- The cache has the first catalog that could be built, after every step that forgets no
    table. -/
theorem step_agreed (h : s.Agreed config first) (hstep : s.step config moment = some next)
    (hforget : ∀ table, moment ≠ .forget table) : next.Agreed config first := by
  cases step_effect hstep with
  | hit hheld => exact h.joined fun reply hreply => ⟨_, hheld, (CallState.done.inj hreply).symm⟩
  | miss => exact (h.with_backend _).joined fun reply hreply => absurd hreply nofun
  | answered => exact (h.with_backend _).settled _ _ _
  | lapsed => exact h.settled _ _ _
  | dropped =>
      refine ⟨h.kept_first, fun other reply hmem => ?_⟩
      rcases List.mem_or_eq_of_mem_set hmem with hold | hnew
      · exact h.replied other reply hold
      · exact absurd (Prod.mk.inj hnew).2 nofun
  | forgotten table => exact absurd rfl (hforget table)
  | changed backend => exact h.with_backend backend

-- A call that ends its wait is one less that waits for its table.
theorem countP_set_waiting {calls : List (CatalogCall × CallState)}
    {pending : Pending TableDescriptor} (hwaits : calls[caller]? = some (call, .waiting pending))
    (state : CallState) (hstate : ∀ pending, state ≠ .waiting pending) (table : String) :
    (calls.set caller (call, state)).countP (waitsFor table) +
      (if call.table = table then 1 else 0) = calls.countP (waitsFor table) := by
  rcases List.getElem?_eq_some_iff.mp hwaits with ⟨hlt, hcall⟩
  have hends : waitsFor table (call, state) = false := by
    cases state with
    | waiting pending => exact absurd rfl (hstate pending)
    | dropped => rfl
    | done reply => rfl
  have hone : waitsFor table calls[caller] = decide (call.table = table) := by
    rw [hcall]
    exact (Bool.beq_eq_decide_eq call.table table)
  have hcounted : (if decide (call.table = table) then 1 else 0) ≤
      calls.countP (waitsFor table) := by
    by_cases htable : call.table = table
    · rw [decide_eq_true htable, if_pos rfl]
      exact List.countP_pos_iff.mpr ⟨_, List.getElem_mem hlt, hone.trans (decide_eq_true htable)⟩
    · rw [decide_eq_false htable, if_neg Bool.false_ne_true]
      exact Nat.zero_le _
  rw [List.countP_set hlt, hone, hends, if_neg Bool.false_ne_true]
  simp only [decide_eq_true_eq] at hcounted ⊢
  omega

/-- Where calls do not overlap: for every table, the calls that wait and the answers that a
    catalog could be built from are at most one together. -/
def Single (config : ClientConfig) (s : Sharing) : Prop :=
  ∀ table, s.calls.countP (waitsFor table) +
    (built config.threshold table s.answers).length ≤ 1

-- What has come is one more answer for the table and one call less.
theorem Single.settled (h : s.Single config) {pending : Pending TableDescriptor}
    (hwaits : s.calls[caller]? = some (call, .waiting pending))
    (answer : Except QueryError TableDescriptor) :
    (s.settled config caller call answer).Single config := by
  intro table
  have hcount := countP_set_waiting hwaits (.done (call.reply
    (accept config.threshold call.table answer s.cache).1)) nofun table
  have hbuilt : (if call.table = table then builtFrom config.threshold answer
      else none).toList.length ≤ if call.table = table then 1 else 0 := by
    by_cases htable : call.table = table
    · rw [if_pos htable, if_pos htable]
      exact Option.length_toList_le
    · rw [if_neg htable]
      exact Nat.zero_le _
  have hone := h table
  simp only [Sharing.settled, built_append, List.length_append]
  omega

/-- A call that is made while no other one for its table waits leaves at most one catalog for
    each table. -/
theorem step_single (hagreed : s.Agreed config first) (h : s.Single config)
    (hstep : s.step config moment = some next)
    (hapart : ∀ call, moment = .ask call → s.calls.countP (waitsFor call.table) = 0) :
    next.Single config := by
  cases step_effect hstep with
  | @hit call catalog hheld =>
      intro table
      rw [Sharing.joined, List.countP_append]
      exact h table
  | @miss call pending backend hheld htake =>
      intro table
      have hnone : (built config.threshold call.table s.answers) = [] := by
        rw [hagreed.kept_first, Option.or_eq_none_iff] at hheld
        exact List.head?_eq_none_iff.mp hheld.2
      have hwaiting := hapart call rfl
      simp only [Sharing.joined, List.countP_append]
      by_cases htable : call.table = table
      · rw [← htable, hwaiting, hnone, Nat.zero_add]
        exact List.countP_le_length
      · have hother : waitsFor table (call, .waiting pending) = false :=
          beq_eq_false_iff_ne.mpr htable
        rw [List.countP_cons_of_neg (ne_true_of_eq_false hother)]
        exact h table
  | answered hwaits hanswer => exact Single.settled (s := { s with backend := _ }) h hwaits _
  | lapsed hdeadline hwaits => exact h.settled hwaits _
  | dropped hwaits =>
      intro table
      have hcount := countP_set_waiting hwaits .dropped nofun table
      have hone := h table
      simp only
      omega
  | forgotten | changed => exact h

end

/-- In a run, no call for a table is made while another one for it waits. -/
def Apart (config : ClientConfig) (s : Sharing) (moments : List Moment) : Prop :=
  ∀ before call after reached, moments = before ++ .ask call :: after →
    s.run config before = some reached →
    ∀ other pending, (other, CallState.waiting pending) ∈ reached.calls → other.table ≠ call.table

-- A table for which no call waits counts none.
theorem countP_waitsFor_eq_zero {calls : List (CatalogCall × CallState)} {table : String}
    (h : ∀ call pending, (call, CallState.waiting pending) ∈ calls → call.table ≠ table) :
    calls.countP (waitsFor table) = 0 := by
  refine List.countP_eq_zero.mpr fun ⟨call, state⟩ hmem hwaits => ?_
  cases state with
  | waiting pending => exact h call pending hmem (beq_iff_eq.mp hwaits)
  | dropped | done => exact absurd hwaits Bool.false_ne_true

-- A run in which no table is forgotten has no moment that forgets one.
theorem ne_forget {before after moments : List Moment} {moment : Moment}
    (hforget : ∀ table, Moment.forget table ∉ moments)
    (hmoments : moments = before ++ moment :: after) (table : String) :
    moment ≠ .forget table := by
  rintro rfl
  rw [hmoments] at hforget
  exact hforget table (List.mem_append_right before List.mem_cons_self)

/-- The cache has the first catalog that could be built, after every run in which no table is
    forgotten. -/
theorem run_agreed {config : ClientConfig} {first : Cache IndexCatalog} {s last : Sharing}
    {moments : List Moment} (hrun : s.run config moments = some last)
    (hforget : ∀ table, Moment.forget table ∉ moments) (h : s.Agreed config first) :
    last.Agreed config first :=
  run_preserves (P := fun _ s => s.Agreed config first) h
    (fun hmoments _ h hstep => step_agreed h hstep (ne_forget hforget hmoments)) hrun

/-- What calls get in a run in which no table is forgotten, whatever else happens in it and in
    whatever order. All of them that succeed have used one catalog of their table, which is the
    first one that could be built from what the store answered, and which the cache has at the
    end. What is in the cache at some time stays, and the cache changes only when an answer
    comes for a table it has not got and a catalog can be built. Where no two calls for a table
    overlap, only one catalog is built for it. -/
theorem run_catalogs_agree {config : ClientConfig} {backend : Backend} {moments : List Moment}
    {s : Sharing} (hrun : (start backend).run config moments = some s)
    (hforget : ∀ table, Moment.forget table ∉ moments) :
    (∀ call reply, (call, CallState.done (.ok reply)) ∈ s.calls → ∃ catalog,
      (built config.threshold call.table s.answers).head? = some catalog ∧
      call.reply (.ok catalog) = .ok reply) ∧
    (∀ table, s.cache.get? table = (built config.threshold table s.answers).head?) ∧
    (∀ before moment after reached next, moments = before ++ moment :: after →
      (start backend).run config before = some reached →
      reached.step config moment = some next →
      (∀ table catalog, reached.cache.get? table = some catalog →
        next.cache.get? table = some catalog) ∧
      (next.cache = reached.cache ∨ ∃ caller call catalog,
        moment = .answer caller ∧ reached.Lands config caller call catalog next)) ∧
    (Apart config (start backend) moments →
      ∀ table, (built config.threshold table s.answers).length ≤ 1) := by
  have hstart : (start backend).Agreed config .empty :=
    idle_agreed (s := start backend) rfl rfl
  have hagreed := run_agreed hrun hforget hstart
  refine ⟨fun call reply hmem => ?_, hagreed.kept_first, ?_, fun hapart table => ?_⟩
  · rcases hagreed.replied call _ hmem with ⟨e, herror⟩ | ⟨catalog, hheld, hreply⟩
    · exact absurd herror nofun
    · exact ⟨catalog, (hagreed.kept_first call.table).symm.trans hheld, hreply.symm⟩
  · exact fun before moment after reached next hmoments _ hstep =>
      step_cache hstep (ne_forget hforget hmoments)
  · have hboth : s.Agreed config .empty ∧ s.Single config :=
      run_preserves (P := fun _ s => s.Agreed config .empty ∧ s.Single config)
        ⟨hstart, fun _ => Nat.zero_le 1⟩
        (fun hmoments hbefore h hstep =>
          ⟨step_agreed h.1 hstep (ne_forget hforget hmoments),
            step_single h.1 h.2 hstep fun call hcall =>
              countP_waitsFor_eq_zero (hapart _ call _ _ (hcall ▸ hmoments) hbefore)⟩) hrun
    exact Nat.le_trans (Nat.le_add_left _ _) (hboth.2 table)

/-- A table of some of the films, without indexes. -/
def someFilms (n : Nat) : Table := ⟨{ filmSchema with indexes := [] }, filmTable.items.take n⟩

/-- What the table is described as, and the catalog of it. -/
def filmsReport (n : Nat) : TableDescriptor := (someFilms n).schema.describe (someFilms n).items

/-- The catalog of such a table. -/
def filmsCatalog (n : Nat) : IndexCatalog := ⟨"films", [primaryIndex filmSchema.keys n]⟩

/-- A store that describes the films as one, then as two, and then fails. -/
def filmsScript : Backend :=
  .scripted ⟨[⟨0, .ok (filmsReport 1)⟩, ⟨0, .ok (filmsReport 2)⟩,
    ⟨0, .error (.unavailable "films")⟩], [], [], [], 0, 0, []⟩

/-- A call for the catalog of the films. -/
def askFilms : CatalogCall := ⟨"films", none⟩

/-- Three calls for the films miss the cache and are answered in the order opposite to that in
    which they were made. A fourth one comes after them. -/
def filmsOverlapping : List Moment :=
  [.ask askFilms, .ask ⟨"films", some (.ofCalls [.filter "director" (.equal (.string "a"))])⟩,
    .ask askFilms, .answer 2, .answer 1, .answer 0, .ask askFilms]

/-- Two calls for the films one after the other. -/
def filmsInTurn : List Moment := [.ask askFilms, .answer 0, .ask askFilms]

theorem filmsInTurn_apart : Apart .default (start filmsScript) filmsInTurn := by
  intro before call after reached hmoments hbefore other pending hwaits
  match before with
  | [] =>
      rw [← Option.some.inj hbefore] at hwaits
      exact absurd hwaits List.not_mem_nil
  | [_] => exact absurd (List.cons.inj (List.cons.inj hmoments).2).1 nofun
  | [_, _] =>
      obtain ⟨rfl, hrest⟩ := List.cons.inj hmoments
      obtain ⟨rfl, _⟩ := List.cons.inj hrest
      rw [← Option.some.inj hbefore] at hwaits
      exact absurd (Prod.mk.inj (List.mem_singleton.mp hwaits)).2 nofun
  | _ :: _ :: _ :: _ => exact absurd (congrArg List.length hmoments) (by
      simp only [filmsInTurn, List.length_append, List.length_cons, List.length_nil]; omega)

/-- All calls that succeed get the catalog of two films, which was built first. In turn only
    one catalog is built. -/
theorem run_catalogs_agree_films : ∃ s turned,
    (start filmsScript).run .default filmsOverlapping = some s ∧
    (∀ table, Moment.forget table ∉ filmsOverlapping) ∧
    built ClientConfig.default.threshold "films" s.answers = [filmsCatalog 2, filmsCatalog 1] ∧
    s.calls.length = 4 ∧
    (∀ call reply, (call, CallState.done (.ok reply)) ∈ s.calls → call.table = "films" →
      call.reply (.ok (filmsCatalog 2)) = .ok reply) ∧
    (start filmsScript).run .default filmsInTurn = some turned ∧
    (built ClientConfig.default.threshold "films" turned.answers).length ≤ 1 := by
  have hforget : ∀ table, Moment.forget table ∉ filmsOverlapping := fun table hmem => by
    simp only [filmsOverlapping, List.mem_cons, reduceCtorEq, List.not_mem_nil, or_self] at hmem
  have hturned : ∀ table, Moment.forget table ∉ filmsInTurn := fun table hmem => by
    simp only [filmsInTurn, List.mem_cons, reduceCtorEq, List.not_mem_nil, or_self] at hmem
  obtain ⟨s, hrun, hbuilt, hlength⟩ : ∃ s : Sharing,
      (start filmsScript).run .default filmsOverlapping = some s ∧
      built ClientConfig.default.threshold "films" s.answers = [filmsCatalog 2, filmsCatalog 1] ∧
      s.calls.length = 4 := ⟨_, rfl, rfl, rfl⟩
  obtain ⟨turned, hturn⟩ : ∃ turned,
      (start filmsScript).run .default filmsInTurn = some turned := ⟨_, rfl⟩
  refine ⟨s, turned, hrun, hforget, hbuilt, hlength, fun call reply hmem htable => ?_, hturn,
    (run_catalogs_agree hturn hturned).2.2.2 filmsInTurn_apart "films"⟩
  rcases (run_catalogs_agree hrun hforget).1 call reply hmem with ⟨catalog, hfirst, hreply⟩
  rw [htable, hbuilt, List.head?_cons, Option.some.injEq] at hfirst
  rw [hfirst, hreply]

end Sharing

end Session

end WideColumn
