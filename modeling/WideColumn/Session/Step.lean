import WideColumn.Session.World

/-!
# Session Steps

What a session does, one step after the other, and what each step comes to.

Steps work on the store itself, on clients or on cursors. Clients and cursors
are named, and a name that is used again stands for the new one from then on.

## Main definitions

* `Step`: The steps.
* `Outcome`: What a step comes to.
* `Step.run`: Taking a step.
-/

namespace WideColumn

namespace Session

/-- A step, with the names of the clients and cursors that it is about. -/
inductive Step where
  /-- Work on a memory store behind the clients' backs. -/
  | createTable (schema : TableSchema)
  | load (table : String) (items : List Item)
  | setLatency (ms : Option Nat)
  | throttle (pages : Nat)
  /-- Call the store directly. -/
  | call (call : Call)
  | newClient (name : String) (config : ClientConfig)
  | cloneClient (name source : String)
  | catalog (client table : String)
  | forget (client table : String)
  | cachedTables (client : String)
  | plan (client table : String) (e : Expression)
  | planTogether (client table : String) (es : List Expression)
  | get (client table : String) (key : Json) (form : RecordForm)
  | put (client table : String) (record : Json)
  | query (cursor client table : String) (e : Expression) (form : RecordForm)
  | next (cursor : String)
  | nextWithin (cursor : String) (ms : Nat)
  | drain (cursor : String) (pulls : Nat)
  | setMaxPages (cursor : String) (pages : Option Nat)
  | setLimit (cursor : String) (rows : Option Nat)
  | setStartKey (cursor : String) (key : Item)
  | showRequest (cursor : String)
  | stream (cursor : String)

/-- What a step comes to. -/
inductive Outcome where
  | done
  | truth (b : Bool)
  | count (n : Nat)
  | item (item : Option Item)
  | descriptor (d : TableDescriptor)
  | page (page : Page)
  | settings (config : ClientConfig)
  | catalog (catalog : IndexCatalog)
  | plan (plan : QueryPlan)
  | plans (plans : List (Except QueryError QueryPlan))
  | record (record : Record)
  | records (records : List (Except QueryError Record))
  | request (request : Option QueryRequest)
  | refused (e : StoreError)
  | failed (e : QueryError)
  /-- No client or cursor of that name, or no such step on this store. -/
  | unknown

namespace Outcome

/-- The outcome of something that may fail. -/
def ofExcept {α : Type} (f : α → Outcome) : Except QueryError α → Outcome
  | .ok a => f a
  | .error e => failed e

/-- The outcome of an answer of the store. -/
def ofAnswer : (call : Call) → Except StoreError call.Answer → Outcome
  | _, .error e => refused e
  | .describe _, .ok d => descriptor d
  | .execute _, .ok p => page p
  | .getItem _ _, .ok i => item i
  | .putItem _ _, .ok _ => done

end Outcome

namespace Step

/-- Work on the store itself, which must be a memory store. -/
def onMemory (work : MemoryStore → Outcome × MemoryStore) : Run Outcome := do
  match (← MonadState.get).backend with
  | .memory store =>
    let (outcome, store) := work store
    modify fun world => { world with backend := .memory store }
    return outcome
  | .scripted _ => return .unknown

/-- Work for the client of a name. -/
def withClient (name : String) (work : Client → Run Outcome) : Run Outcome := do
  match (← MonadState.get).clients.get? name with
  | some client => work client
  | none => return .unknown

/-- Work with a cursor, which is kept as the work leaves it. -/
def withCursor (name : String) (work : OpenCursor → Run (Outcome × OpenCursor)) :
    Run Outcome := do
  match (← MonadState.get).cursors.get? name with
  | some opened =>
    let (outcome, opened) ← work opened
    modify fun world => { world with cursors := world.cursors.insert name opened }
    return outcome
  | none => return .unknown

/-- Change a cursor without pulling it. -/
def changeCursor (name : String) (change : Cursor → Cursor) : Run Outcome :=
  withCursor name fun opened =>
    return (.done, { opened with cursor := change opened.cursor })

/-- Pull a record under a deadline. -/
def pullRecord (name : String) (deadline : Option Nat) : Run Outcome :=
  withCursor name fun opened => do
    let (record, opened) ← Run.pull opened deadline
    return (.ofExcept .record record, opened)

/-- Get the record of a key, which is given as it would be written. -/
def getRecord (client : Client) (table : String) (key : Json) (form : RecordForm) :
    Run (Except QueryError Record) := do
  match toItem key with
  | .error e => return .error (.codec e)
  | .ok key =>
    match ← Run.call client none (.getItem table key) with
    | .error e => return .error e
    | .ok none => return .error .itemNotFound
    | .ok (some item) => return (form.decode item).mapError .codec

/-- Put a record, in place of any that is kept under the same key. -/
def putRecord (client : Client) (table : String) (record : Json) :
    Run (Except QueryError Unit) := do
  match toItem record with
  | .error e => return .error (.codec e)
  | .ok item => Run.call client none (.putItem table item)

/-- Take a step, and say what it comes to. -/
def run : Step → Run Outcome
  | createTable schema => onMemory fun store => (.done, store.create schema)
  | load table items => onMemory fun store =>
    match store.load table items with
    | (.ok (), store) => (.done, store)
    | (.error e, store) => (.refused e, store)
  | setLatency ms => onMemory fun store => (.done, { store with latency := ms })
  | throttle pages => onMemory fun store => (.done, { store with throttles := pages })
  | call c => return .ofAnswer c (← Run.callDirectly c)
  | newClient name config => do
    modify fun world => world.addClient name config
    return .settings config
  | cloneClient name source => withClient source fun client => do
    modify fun world => { world with clients := world.clients.insert name client }
    return .settings client.config
  | catalog client table => withClient client fun client =>
    return .ofExcept .catalog (← Run.catalog client none table)
  | forget client table => withClient client fun client => do
    let world ← MonadState.get
    let (forgotten, cache) := (world.cacheOf client).remove table
    modify fun world => world.setCache client cache
    return .truth forgotten.isSome
  | cachedTables client => withClient client fun client =>
    return .count ((← MonadState.get).cacheOf client).size
  | plan client table e => withClient client fun client =>
    return .ofExcept .plan (← Run.plan client none table e)
  | planTogether client table es => withClient client fun client =>
    return .plans (← Run.planTogether client table es)
  | get client table key form => withClient client fun client =>
    return .ofExcept .record (← getRecord client table key form)
  | put client table record => withClient client fun client =>
    return .ofExcept (fun _ => .done) (← putRecord client table record)
  | query cursor client table e form => withClient client fun client => do
    let opened : OpenCursor := ⟨client, table, e, form, .fresh⟩
    modify fun world => { world with cursors := world.cursors.insert cursor opened }
    return .done
  | next cursor => pullRecord cursor none
  | nextWithin cursor ms => do pullRecord cursor (some ((← MonadState.get).now + ms))
  | drain cursor pulls => withCursor cursor fun opened => do
    let (records, opened) ← Run.drain pulls opened
    return (.records records, opened)
  | setMaxPages cursor pages => changeCursor cursor (·.setMaxPages pages)
  | setLimit cursor rows => changeCursor cursor (·.setLimit rows)
  | setStartKey cursor key => changeCursor cursor (·.setStartKey key)
  | showRequest cursor => withCursor cursor fun opened =>
    return (.request opened.cursor.request, opened)
  | stream cursor => do
    let world ← MonadState.get
    match world.cursors.get? cursor with
    | none => return .unknown
    | some opened =>
      let records ← Run.stream (← Run.cursorPulls opened) opened
      modify fun world => { world with cursors := world.cursors.restrict (· != cursor) }
      return .records records

end Step

end Session

end WideColumn
