import WideColumn.Proofs.Cursor.Draining
import WideColumn.Proofs.Cursor.Sources
import WideColumn.Proofs.Session.Together

/-!
# Cursors in a Session

What a session hands out of a cursor is what a cursor in use hands out.

A session keeps its cursors by name, next to the store, the caches and the clock, and decides
for each pull how many pages it may go through. A `Delivery` knows none of this: the state of its
source may be anything. Here it is the whole world of a session. A pull of the session is then
one call of a delivery, since writing exchanges down changes nothing (`pull_hands`), and a drain
is a row of them, by induction on the pulls that are left (`drain_hands`).

The cursors that are kept are the one thing that a session changes behind the back of the
source. The source is blind to them (`source_blind`), so what it answers in two worlds that
differ in nothing else is the same, and a delivery goes on from step to step although its own
world knows nothing of the names. By the same comparison a memory store that answers at once can
stand in for the world, if the client knows the table (`source_matches_memory`).

## Main definitions

* `Session.Run.Hands`: Work of a session that is a row of pulls.
* `Session.Run.Serves`: A memory store answers the cursor of a session at once.
* `Session.Run.Blind`: Work that does not look at the cursors that are kept.
* `Session.Step.Uses`: A step pulls a cursor or limits what it fetches.
* `Session.Step.Follows`: A cursor in use stands for one of a session.

## Theorems

* `pull_hands`, `drain_hands`, `stream_hands`: What a session does with an open cursor.
* `run_serves`: A cursor of a session against a memory store alone.
* `source_blind`: The source of a cursor does not look at the cursors that are kept.
* `step_follows`, `run_follows`: A step with a cursor is a row of calls, and so are many.
* `query_run`, `query_serves`: What a session is given of a cursor is what a run of a delivery
  hands out.
-/

namespace WideColumn

namespace Session

namespace Run

/-- What is done with an open cursor is a row of pulls, each with so many pages at most. The
    records are what the pulls hand out, and the cursor and the world are left as by them,
    whatever was asked and handed out before. -/
def Hands (opened : OpenCursor) (world : World) (deadline : Option Nat)
    (records : List (Except QueryError Record)) (left : OpenCursor) (later : World) : Prop :=
  left = { opened with cursor := left.cursor } ∧
  ∀ exchanges handed, ∃ (most : List Nat) (exchanged : List Exchange)
    (given : List (Handed Record)),
    (most.map (CursorCall.pull deadline)).foldl
        (Delivery.step (source opened) opened.form.decode)
        ⟨opened.cursor, world, exchanges, handed⟩ =
      ⟨left.cursor, later, exchanged, handed ++ given⟩ ∧
    records = given.map (·.record)

section

variable {opened left last : OpenCursor} {world later final : World} {deadline : Option Nat}
  {records more : List (Except QueryError Record)}

-- Nothing is done.
theorem Hands.refl (opened : OpenCursor) (world : World) (deadline : Option Nat) :
    Hands opened world deadline [] opened world :=
  ⟨rfl, fun exchanges handed => ⟨[], exchanges, [], by rw [List.append_nil]; rfl, rfl⟩⟩

-- One row of pulls after another. The source does not depend on how far the cursor has come.
theorem Hands.trans (hfirst : Hands opened world deadline records left later)
    (hrest : Hands left later deadline more last final) :
    Hands opened world deadline (records ++ more) last final := by
  rcases hfirst with ⟨hleft, hfirst⟩
  rcases hrest with ⟨hlast, hrest⟩
  rw [hleft] at hlast hrest
  refine ⟨hlast, fun exchanges handed => ?_⟩
  rcases hfirst exchanges handed with ⟨most, exchanged, given, hrun, rfl⟩
  rcases hrest exchanged (handed ++ given) with ⟨next, asked, handing, hthen, rfl⟩
  refine ⟨most ++ next, asked, given ++ handing, ?_, List.map_append.symm⟩
  rw [List.map_append, List.foldl_append, hrun, ← List.append_assoc]
  exact hthen

/-- A pull of a session is one call of a cursor in use, which goes through as many pages as the
    session lets it. -/
theorem pull_hands (opened : OpenCursor) (deadline : Option Nat) (world : World) :
    Hands opened world deadline [(pull opened deadline world).1.1] (pull opened deadline world).1.2
      (pull opened deadline world).2 := by
  refine ⟨rfl, fun exchanges handed => ?_⟩
  have hpages := Cursor.pull_logged (source opened) deadline
    ((cursorPages opened world).1 + deadline.getD 0) opened.cursor world exchanges
  generalize hlogged : opened.cursor.pull ((source opened).fetch deadline)
    ((cursorPages opened world).1 + deadline.getD 0) (world, exchanges) = pulled at hpages
  rcases pulled with ⟨⟨given, cursor⟩, after, exchanged⟩
  have hpull : pull opened deadline world =
      ((given.record opened.form.decode, { opened with cursor }), after) := by
    rw [pull, show fetch opened deadline = _ from funext (fetch_eq opened deadline)]
    exact congrArg (fun pulled : (Cursor.Pull × Cursor) × World =>
      ((pulled.1.1.record opened.form.decode, { opened with cursor := pulled.1.2 }), pulled.2))
      hpages
  refine ⟨[(cursorPages opened world).1 + deadline.getD 0], exchanged,
    [⟨given.item?, given.record opened.form.decode⟩], ?_, ?_⟩
  · rw [hpull, List.map_singleton, List.foldl_cons, List.foldl_nil]
    exact Delivery.step_pull opened.form.decode
      (d := ⟨opened.cursor, world, exchanges, handed⟩) hlogged
  · rw [hpull]
    rfl

/-- A drain is a row of pulls, and gives what they hand out. -/
theorem drain_hands (pulls : Nat) (opened : OpenCursor) (world : World) :
    Hands opened world none (drain pulls opened world).1.1 (drain pulls opened world).1.2
      (drain pulls opened world).2 := by
  induction pulls generalizing opened world with
  | zero => exact Hands.refl opened world none
  | succ pulls ih =>
      have hfirst := pull_hands opened none world
      rcases hpull : pull opened none world with ⟨⟨record, left⟩, later⟩
      rw [hpull] at hfirst
      rw [drain]
      simp only [bind, StateT.bind, hpull]
      split
      · exact hfirst
      · exact hfirst.trans (ih left later)

/-- A pull gave something other than the end. -/
def beforeEnd : Except QueryError Record → Bool
  | .ok _ => true
  | .error e => !e.isComplete

/-- So is a stream. Its cursor is gone afterwards, and it keeps the end to itself. -/
theorem stream_hands (pulls : Nat) (opened : OpenCursor) (world : World) :
    ∃ records left, Hands opened world none records left (stream pulls opened world).2 ∧
      (stream pulls opened world).1 = records.filter beforeEnd := by
  induction pulls generalizing opened world with
  | zero => exact ⟨[], opened, Hands.refl opened world none, rfl⟩
  | succ pulls ih =>
      have hfirst := pull_hands opened none world
      rcases hpull : pull opened none world with ⟨⟨record, left⟩, later⟩
      rw [hpull] at hfirst
      rw [stream]
      simp only [bind, StateT.bind, hpull]
      cases record with
      | ok record =>
          rcases ih left later with ⟨records, last, hrest, hgiven⟩
          exact ⟨_, last, hfirst.trans hrest, congrArg (Except.ok record :: ·) hgiven⟩
      | error e =>
          have hkept : (if e.isComplete = true then [] else [Except.error e]) =
              [Except.error e].filter beforeEnd := by
            rw [List.filter_cons, List.filter_nil, beforeEnd]
            cases e.isComplete <;> rfl
          exact ⟨_, left, hfirst, hkept⟩

/-- A memory store answers the cursor of a session at once: it has no latency, and the client
    has a catalog of the table, with which the cursor is planned as the request. -/
structure Serves (opened : OpenCursor) (request : QueryRequest) (world : World)
    (store : MemoryStore) : Prop where
  backend_eq : world.backend = .memory store
  latency_eq : store.latency = none
  planned : ∃ catalog plan, (world.cacheOf opened.client).get? opened.table = some catalog ∧
    catalog.plan opened.table opened.expression = .ok plan ∧ plan.request = request

-- Being asked for a page leaves the latency.
theorem latency_execute (store : MemoryStore) (asked : QueryRequest) :
    (store.execute asked).2.latency = store.latency := by
  rw [MemoryStore.execute]
  cases store.throttles <;> rfl

/-- Such a store does for the cursor what the world does. -/
theorem source_matches_memory (opened : OpenCursor) (request : QueryRequest) :
    (source opened).Matches (Serves opened request) (MemoryStore.source request) where
  plan deadline := by
    rintro world store ⟨hbackend, hlatency, catalog, planned, hheld, hplan, rfl⟩
    have hsource : (source opened).plan deadline world = (.ok planned.request,
        { world with warnings := world.warnings ++ catalog.planWarnings opened.expression }) := by
      have hplanned := bind_of_eq (catalog_hit deadline hheld)
        (planFrom opened.table opened.expression)
      rw [source]
      refine (bind_of_eq (hplanned.trans (modify_bind _ _ world)) _).trans ?_
      rw [hplan]
      rfl
    rw [hsource]
    exact ⟨rfl, hbackend, hlatency, catalog, planned, hheld, hplan, rfl⟩
  execute deadline asked := by
    rintro world store ⟨hbackend, hlatency, hplanned⟩
    have hexecute := source_execute opened deadline asked hlatency world
    rw [← hbackend] at hexecute
    rw [hexecute]
    refine ⟨rfl, rfl, ?_, hplanned⟩
    rw [← hlatency, MemoryStore.source]
    exact latency_execute store asked

/-- So whatever is called of the cursor comes to the same against that store alone. -/
theorem run_serves {request : QueryRequest} {store : MemoryStore}
    (h : Serves opened request world store) (opening : Option Item) (calls : List CursorCall) :
    (Delivery.run (source opened) opened.form.decode opening world calls).Agrees
      (Serves opened request)
      (Delivery.run (MemoryStore.source request) opened.form.decode opening store calls) :=
  Delivery.foldl_agrees opened.form.decode (source_matches_memory opened request)
    ⟨rfl, h, rfl, rfl⟩ calls

end

/-- Work that does not look at the cursors that are kept, and leaves them as they are. -/
def Blind {α : Type} (work : Run α) : Prop :=
  ∀ world cursors,
    work { world with cursors } = ((work world).1, { (work world).2 with cursors })

namespace Blind

variable {α β : Type}

theorem pure (a : α) : Blind (pure a) := fun _ _ => rfl

theorem bind {work : Run α} {rest : α → Run β} (hwork : Blind work)
    (hrest : ∀ a, Blind (rest a)) : Blind (work >>= rest) := by
  intro world cursors
  rw [bind_of_eq (hwork world cursors)]
  exact hrest (work world).1 (work world).2 cursors

-- The world may be read, as long as what is read of it is not the cursors.
theorem read {rest : World → Run β}
    (hsame : ∀ (world : World) cursors, rest { world with cursors } = rest world)
    (hrest : ∀ world, Blind (rest world)) : Blind (get >>= rest) := by
  intro world cursors
  rw [get_bind, get_bind, hsame]
  exact hrest world world cursors

end Blind

section

variable (client : Client) (deadline : Option Nat)

theorem sleep_blind (ms : Nat) : Blind (sleep ms deadline) := by
  intro world cursors
  rw [sleep_eq, sleep_eq]
  split
  · rfl
  · split
    · rfl
    · rfl

theorem call_blind (request : Call) : Blind (call client deadline request) := by
  refine Blind.bind (Blind.read (fun _ _ => rfl) fun _ => Blind.pure _) fun end? => ?_
  refine Blind.read (fun _ _ => rfl) fun world => ?_
  refine Blind.bind (fun _ _ => rfl) fun _ => (sleep_blind _ _).bind fun woke => ?_
  cases woke with
  | false => exact Blind.pure _
  | true =>
      refine Blind.read (fun _ _ => rfl) fun world => ?_
      exact Blind.bind (fun _ _ => rfl) fun _ => Blind.pure _

theorem plan_blind (table : String) (e : Expression) :
    Blind (plan client deadline table e) := by
  refine Blind.bind (Blind.read (fun _ _ => rfl) fun world => ?_) fun catalog => ?_
  · cases (world.cacheOf client).get? table with
    | some held => exact Blind.pure _
    | none => exact (call_blind client deadline _).bind fun answer _ _ => rfl
  · cases catalog with
    | error e => exact Blind.pure _
    | ok catalog => exact Blind.bind (fun _ _ => rfl) fun _ => Blind.pure _

end

/-- The worlds differ in nothing but the cursors that are kept. -/
def SameButCursors (world other : World) : Prop :=
  ∃ cursors, other = { world with cursors }

theorem SameButCursors.keep {world other : World} (h : SameButCursors world other)
    (cursors : Keyed OpenCursor) : SameButCursors world { other with cursors } := by
  rcases h with ⟨_, rfl⟩
  exact ⟨cursors, rfl⟩

theorem Blind.alike {α : Type} {work : Run α} (h : Blind work) :
    Alike SameButCursors work work := by
  rintro world _ ⟨cursors, rfl⟩
  rw [h world cursors]
  exact ⟨rfl, cursors, rfl⟩

/-- The source of an open cursor is blind to the cursors that are kept. -/
theorem source_blind (opened : OpenCursor) :
    (source opened).Matches SameButCursors (source opened) where
  plan deadline := ((plan_blind opened.client deadline opened.table opened.expression).bind
    fun _ => Blind.pure _).alike
  execute deadline request := (call_blind opened.client deadline (.execute request)).alike

end Run

/-- The records in an outcome, and the error if there is none. -/
def Outcome.given : Outcome → List (Except QueryError Record)
  | .record handed => [.ok handed]
  | .failed e => [.error e]
  | .records handed => handed
  | _ => []

namespace Step

/-- A step pulls the cursor of a name, or limits what it fetches. -/
inductive Uses (name : String) : Step → Prop
  | next : Uses name (.next name)
  | nextWithin (ms : Nat) : Uses name (.nextWithin name ms)
  | drain (pulls : Nat) : Uses name (.drain name pulls)
  | setMaxPages (pages : Option Nat) : Uses name (.setMaxPages name pages)
  | setLimit (rows : Option Nat) : Uses name (.setLimit name rows)

/-- A cursor in use stands for the one that a session keeps by a name. -/
structure Follows (name : String) (opened : OpenCursor) (world : World)
    (d : Delivery World Record) : Prop where
  kept : world.cursors.get? name = some { opened with cursor := d.cursor }
  same : Run.SameButCursors d.state world

/-- Calls lead from one cursor in use to another, and hand out these records. -/
def Leads (opened : OpenCursor) (d : Delivery World Record)
    (records : List (Except QueryError Record)) (next : Delivery World Record) : Prop :=
  ∃ (calls : List CursorCall) (given : List (Handed Record)),
    calls.foldl (Delivery.step (Run.source opened) opened.form.decode) d = next ∧
    next.handed = d.handed ++ given ∧ records = given.map (·.record)

section

variable {name : String} {opened left : OpenCursor} {world later : World}
  {d next last : Delivery World Record} {records more : List (Except QueryError Record)}

theorem Leads.refl (opened : OpenCursor) (d : Delivery World Record) : Leads opened d [] d :=
  ⟨[], [], rfl, (List.append_nil _).symm, rfl⟩

theorem Leads.trans (hfirst : Leads opened d records next) (hrest : Leads opened next more last) :
    Leads opened d (records ++ more) last := by
  rcases hfirst with ⟨calls, given, hrun, hhanded, rfl⟩
  rcases hrest with ⟨others, handing, hthen, hlast, rfl⟩
  refine ⟨calls ++ others, given ++ handing, ?_, ?_, List.map_append.symm⟩
  · rw [List.foldl_append, hrun]
    exact hthen
  · rw [hlast, hhanded, List.append_assoc]

-- What is done with a cursor that is kept.
theorem withCursor_eq {work : OpenCursor → Run (Outcome × OpenCursor)} {outcome : Outcome}
    (hkept : world.cursors.get? name = some opened)
    (hwork : work opened world = ((outcome, left), later)) :
    withCursor name work world =
      (outcome, { later with cursors := later.cursors.insert name left }) := by
  rw [withCursor, Run.get_bind, hkept]
  exact Run.bind_of_eq hwork _

-- Pulls take the cursor in use along with the one that is kept.
theorem Follows.hands (h : Follows name opened world d) {deadline : Option Nat}
    (hhands : Run.Hands { opened with cursor := d.cursor } world deadline records left later) :
    ∃ next, Leads opened d records next ∧
      Follows name opened { later with cursors := later.cursors.insert name left } next := by
  rcases hhands with ⟨hleft, hpulls⟩
  rcases hpulls d.exchanges d.handed with ⟨most, exchanged, given, hrun, hrecords⟩
  have hagrees := Delivery.foldl_agrees opened.form.decode (Run.source_blind opened)
    (d := d) (e := ⟨d.cursor, world, d.exchanges, d.handed⟩) ⟨rfl, h.same, rfl, rfl⟩
    (most.map (CursorCall.pull deadline))
  have hsource : (most.map (CursorCall.pull deadline)).foldl
      (Delivery.step (Run.source opened) opened.form.decode)
      ⟨d.cursor, world, d.exchanges, d.handed⟩ = ⟨left.cursor, later, exchanged,
        d.handed ++ given⟩ := hrun
  rw [hsource] at hagrees
  refine ⟨_, ⟨most.map (CursorCall.pull deadline), given, rfl, hagrees.handed_eq, hrecords⟩, ?_, ?_⟩
  · rw [Keyed.get?_insert, if_pos rfl, hagrees.cursor_eq, hleft]
  · exact hagrees.state.keep _

-- So do the calls that set what is fetched.
theorem Follows.changes (h : Follows name opened world d) (call : CursorCall)
    {change : Cursor → Cursor}
    (hstep : d.step (Run.source opened) opened.form.decode call =
      { d with cursor := change d.cursor }) :
    ∃ next, Leads opened d (changeCursor name change world).1.given next ∧
      Follows name opened (changeCursor name change world).2 next := by
  have hchanged : changeCursor name change world = (.done, { world with
      cursors := world.cursors.insert name { opened with cursor := change d.cursor } }) :=
    withCursor_eq h.kept rfl
  rw [hchanged]
  refine ⟨{ d with cursor := change d.cursor }, ⟨[call], [], hstep,
    (List.append_nil _).symm, rfl⟩, ?_, h.same.keep _⟩
  rw [Keyed.get?_insert, if_pos rfl]

/-- A step that uses a cursor is a row of calls, and what it comes to are the records that these
    hand out. -/
theorem step_follows (h : Follows name opened world d) {step : Step} (huse : Uses name step) :
    ∃ next, Leads opened d (Step.run step world).1.given next ∧
      Follows name opened (Step.run step world).2 next := by
  have hpull : ∀ deadline, ∃ next,
      Leads opened d (pullRecord name deadline world).1.given next ∧
      Follows name opened (pullRecord name deadline world).2 next := by
    intro deadline
    have hhands := Run.pull_hands { opened with cursor := d.cursor } deadline world
    rcases hpulled : Run.pull { opened with cursor := d.cursor } deadline world with
      ⟨⟨record, left⟩, later⟩
    rw [hpulled] at hhands
    have hstep : pullRecord name deadline world = (.ofExcept .record record,
        { later with cursors := later.cursors.insert name left }) :=
      withCursor_eq h.kept (Run.bind_of_eq hpulled _)
    have hgiven : (Outcome.ofExcept .record record).given = [record] := by
      cases record <;> rfl
    rw [hstep, hgiven]
    exact h.hands hhands
  cases huse with
  | next =>
      rw [Step.run]
      exact hpull none
  | nextWithin ms =>
      rw [Step.run, Run.get_bind]
      exact hpull (some (world.now + ms))
  | drain pulls =>
      have hhands := Run.drain_hands pulls { opened with cursor := d.cursor } world
      rcases hdrained : Run.drain pulls { opened with cursor := d.cursor } world with
        ⟨⟨records, left⟩, later⟩
      rw [hdrained] at hhands
      have hstep : Step.run (.drain name pulls) world = (.records records,
          { later with cursors := later.cursors.insert name left }) := by
        rw [Step.run]
        exact withCursor_eq h.kept (Run.bind_of_eq hdrained _)
      rw [hstep]
      exact h.hands hhands
  | setMaxPages pages =>
      rw [Step.run]
      exact h.changes (.setMaxPages pages) rfl
  | setLimit rows =>
      rw [Step.run]
      exact h.changes (.setLimit rows) rfl

/-- So is every row of such steps: the records that a session is given of a cursor are those
    that a cursor in use hands out. -/
theorem run_follows (h : Follows name opened world d) (steps : List Step)
    (huses : ∀ step ∈ steps, Uses name step) :
    ∃ next, Leads opened d ((steps.mapM Step.run world).1.flatMap Outcome.given) next ∧
      Follows name opened (steps.mapM Step.run world).2 next := by
  induction steps generalizing world d with
  | nil => exact ⟨d, Leads.refl opened d, h⟩
  | cons step rest ih =>
      rcases step_follows h (huses step List.mem_cons_self) with ⟨next, hleads, hfollows⟩
      rcases ih hfollows fun other hother => huses other (List.mem_cons_of_mem _ hother) with
        ⟨last, hrest, hlast⟩
      rw [Run.mapM_cons_eq]
      exact ⟨last, hleads.trans hrest, hlast⟩

/-- What a session is given of a cursor that it opens and uses is what a cursor in use hands
    out, from its first record on. -/
theorem query_run {client : String} {asker : Client} (hclient : world.clients.get? client = some asker)
    (name table : String) (e : Expression) (form : RecordForm) (steps : List Step)
    (huses : ∀ step ∈ steps, Uses name step) :
    ∃ calls : List CursorCall,
      (steps.mapM Step.run (Step.run (.query name client table e form) world).2).1.flatMap
          Outcome.given =
        (Delivery.run (Run.source ⟨asker, table, e, form, .fresh⟩) form.decode none world
          calls).handed.map (·.record) ∧
      Follows name ⟨asker, table, e, form, .fresh⟩
        (steps.mapM Step.run (Step.run (.query name client table e form) world).2).2
        (Delivery.run (Run.source ⟨asker, table, e, form, .fresh⟩) form.decode none world
          calls) := by
  have hquery : Step.run (.query name client table e form) world = (.done, { world with
      cursors := world.cursors.insert name ⟨asker, table, e, form, .fresh⟩ }) := by
    rw [Step.run, withClient, Run.get_bind, hclient]
    rfl
  have hstart : Follows name ⟨asker, table, e, form, .fresh⟩
      (Step.run (.query name client table e form) world).2 (Delivery.start none world) := by
    rw [hquery]
    refine ⟨?_, _, rfl⟩
    rw [Keyed.get?_insert, if_pos rfl]
    rfl
  rcases run_follows hstart steps huses with ⟨_, ⟨calls, given, rfl, hhanded, hgiven⟩, hfollows⟩
  exact ⟨calls, hgiven.trans (congrArg (List.map (·.record)) hhanded.symm), hfollows⟩

/-- With a memory store that answers at once this is what a cursor against that store hands
    out. -/
theorem query_serves {client : String} {asker : Client}
    (hclient : world.clients.get? client = some asker) (name table : String) (e : Expression)
    (form : RecordForm) {request : QueryRequest} {store : MemoryStore}
    (hserves : Run.Serves ⟨asker, table, e, form, .fresh⟩ request world store)
    (steps : List Step) (huses : ∀ step ∈ steps, Uses name step) :
    ∃ calls : List CursorCall,
      (steps.mapM Step.run (Step.run (.query name client table e form) world).2).1.flatMap
          Outcome.given =
        (Delivery.run (MemoryStore.source request) form.decode none store
          calls).handed.map (·.record) := by
  rcases query_run hclient name table e form steps huses with ⟨calls, hgiven, _⟩
  have hagrees := Run.run_serves hserves none calls
  exact ⟨calls, hgiven.trans (congrArg (List.map (·.record)) hagrees.handed_eq)⟩

end

end Step

end Session

end WideColumn
