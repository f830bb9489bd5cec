import WideColumn.Session.Backend
import WideColumn.Client
import WideColumn.Config
import WideColumn.Cursor
import WideColumn.Codec.Movie

/-!
# The World of a Session

Clients and cursors against a store, under a clock of their own.

Only waiting for a store takes time. Work under a deadline goes on as long as
everything it waits for ends by the deadline. At the very moment of the deadline
it may still resume, and it is given up only if it would have to wait again. What
it did until then stays done: a call that was taken up is used up, a catalog that
was accepted is kept, a page that was received is held.

A client has its settings and a cache, which clones of it share. Caches are
therefore kept apart from clients, and a client names the one it uses.

## Main definitions

* `World`: Everything a session changes.
* `Run.sleep`, `Run.call`: Waiting, and calling the store under deadlines.
* `Run.catalog`, `Run.plan`, `Run.fetch`, `Run.pull`: What clients and cursors do.
* `Run.planTogether`: Plans that are started together.
-/

namespace WideColumn

namespace Session

/-- How the records of a query are decoded. -/
inductive RecordForm where
  | raw
  | json
  | movie
deriving DecidableEq

/-- A record as a caller gets it. -/
inductive Record where
  | item (item : Item)
  | json (j : Json)

/-- The record that an item holds. -/
def RecordForm.decode (form : RecordForm) (item : Item) : Except CodecError Record :=
  match form with
  | .raw => (Codec.raw.decode item).map .item
  | .json => (Codec.json.decode item).map .json
  | .movie => (Movie.codec.decode item).map fun movie => .json movie.write

/-- A client: its settings and the number of its cache. -/
structure Client where
  config : ClientConfig
  cache : Nat

/-- A cursor with what it asks for and whom it asks. -/
structure OpenCursor where
  client : Client
  table : String
  expression : Expression
  form : RecordForm
  cursor : Cursor

/-- Everything a session changes. -/
structure World where
  /-- The time in milliseconds. -/
  now : Nat
  backend : Backend
  caches : List (Cache IndexCatalog)
  clients : Keyed Client
  cursors : Keyed OpenCursor
  /-- The warnings so far, in order. -/
  warnings : List String

namespace World

/-- What a client has in its cache, which it may share with others. -/
def cacheOf (world : World) (client : Client) : Cache IndexCatalog :=
  world.caches[client.cache]?.getD .empty

/-- The world with another content of a client's cache. -/
def setCache (world : World) (client : Client) (cache : Cache IndexCatalog) : World :=
  { world with caches := world.caches.set client.cache cache }

/-- The world with one more client, which has an empty cache of its own. -/
def addClient (world : World) (name : String) (config : ClientConfig) : World :=
  { world with
    caches := world.caches ++ [.empty]
    clients := world.clients.insert name ⟨config, world.caches.length⟩ }

/-- A world at time zero. Its only client is named `main`. -/
def start (backend : Backend) (config : ClientConfig) : World :=
  addClient ⟨0, backend, [], [], [], []⟩ "main" config

end World

/-- Work that changes the world. -/
abbrev Run := StateM World

/-- The earlier of two deadlines. -/
def earlier : Option Nat → Option Nat → Option Nat
  | some a, some b => some (min a b)
  | some a, none => some a
  | none, b => b

namespace Run

/-- Wait. The result says whether the wait ended by the deadline, and if it did
    not the time is the deadline's. No time at all is no wait. -/
def sleep (ms : Nat) (deadline : Option Nat) : Run Bool := do
  let world ← get
  let wake := world.now + ms
  if ms = 0 then return true
  else if deadline.all (wake ≤ ·) then
    set { world with now := wake }
    return true
  else
    set { world with now := max world.now (deadline.getD world.now) }
    return false

/-- The deadline that a client sets for a call that is made now. -/
def callDeadline (client : Client) : Run (Option Nat) := do
  let world ← get
  return client.config.fetchTimeout.map fun timeout => world.now + timeout.milliseconds

/-- Call the store, on nobody's behalf and without a deadline. -/
def callDirectly (call : Call) : Run (Except StoreError call.Answer) := do
  let (pending, backend) := (← get).backend.takeUp call
  modify fun world => { world with backend := backend }
  let _ ← sleep pending.stall none
  let (reply, backend) := (← get).backend.answer call pending
  modify fun world => { world with backend := backend }
  return reply

/-- Call the store for a client, under the client's deadline and another one. -/
def call (client : Client) (deadline : Option Nat) (call : Call) :
    Run (Except QueryError call.Answer) := do
  let deadline := earlier deadline (← callDeadline client)
  let (pending, backend) := (← get).backend.takeUp call
  modify fun world => { world with backend := backend }
  if ← sleep pending.stall deadline then
    let (reply, backend) := (← get).backend.answer call pending
    modify fun world => { world with backend := backend }
    return reply.mapError .store
  else return .error .timeout

/-- Take the description of a table into a client's cache. -/
def acceptDescription (client : Client) (table : String)
    (answer : Except QueryError TableDescriptor) : Run (Except QueryError IndexCatalog) := do
  let world ← get
  let (result, cache) := accept client.config.threshold table answer (world.cacheOf client)
  set (world.setCache client cache)
  return result

/-- The catalog of a table, from the cache or by describing the table. -/
def catalog (client : Client) (deadline : Option Nat) (table : String) :
    Run (Except QueryError IndexCatalog) := do
  match ((← get).cacheOf client).get? table with
  | some catalog => return .ok catalog
  | none => acceptDescription client table (← call client deadline (.describe table))

/-- Plan an expression once the catalog is known, and note the warnings. -/
def planFrom (table : String) (e : Expression) (catalog : Except QueryError IndexCatalog) :
    Run (Except QueryError QueryPlan) := do
  match catalog with
  | .error failure => return .error failure
  | .ok catalog =>
    modify fun world => { world with warnings := world.warnings ++ catalog.planWarnings e }
    return catalog.plan table e

/-- Plan an expression for a client, which has the table described if it does not know it. -/
def plan (client : Client) (deadline : Option Nat) (table : String) (e : Expression) :
    Run (Except QueryError QueryPlan) := do
  planFrom table e (← catalog client deadline table)

/-- The next page of a cursor and the request that asked for it. -/
def fetch (opened : OpenCursor) (deadline : Option Nat) (c : Cursor) :
    Run (Except QueryError (QueryRequest × Page)) :=
  let planRequest : Run (Except QueryError QueryRequest) := do
    let planned ← plan opened.client deadline opened.table opened.expression
    return planned.map (·.request)
  c.fetch planRequest fun request => call opened.client deadline (.execute request)

/-- How many pages a cursor can go through before it ends. Where the keys to resume
    after come round again only the number of wanted pages ends it. -/
def cursorPages (opened : OpenCursor) : Run Nat :=
  return (← get).backend.pageBound + opened.cursor.pagesLeft?.getD 0

/-- How many records a cursor can give before it ends, and the end. -/
def cursorPulls (opened : OpenCursor) : Run Nat := do
  let pages ← cursorPages opened
  return opened.cursor.page.length + pages * (← get).backend.itemBound + 1

/-- The next record of a cursor. Empty pages whose keys come round again can also end
    at the deadline: each of them took time, so there are no more of them than
    milliseconds. -/
def pull (opened : OpenCursor) (deadline : Option Nat) :
    Run (Except QueryError Record × OpenCursor) := do
  let pages := (← cursorPages opened) + deadline.getD 0
  let (result, cursor) ← opened.cursor.pull (fetch opened deadline) pages
  return (result.record opened.form.decode, { opened with cursor := cursor })

/-- Pull until the end is reported, at most a number of times. The end is part of
    the result. -/
def drain : Nat → OpenCursor → Run (List (Except QueryError Record) × OpenCursor)
  | 0, opened => return ([], opened)
  | n + 1, opened => do
    let (record, opened) ← pull opened none
    match record with
    | .error (.parsingComplete completion) =>
      return ([.error (.parsingComplete completion)], opened)
    | record =>
      let (records, opened) ← drain n opened
      return (record :: records, opened)

/-- Pull until the end or the first failure, at most a number of times. The end
    is not part of the result, and a failure is. -/
def stream : Nat → OpenCursor → Run (List (Except QueryError Record))
  | 0, _ => return []
  | n + 1, opened => do
    match ← pull opened none with
    | (.ok record, opened) => return .ok record :: (← stream n opened)
    | (.error e, _) => return if e.isComplete then [] else [.error e]

/-- A plan that was started together with others. -/
inductive Started where
  | done (result : Except QueryError QueryPlan)
  /-- It waits for a description until a time, under a deadline. -/
  | waiting (pending : Pending TableDescriptor) (wake : Nat) (deadline : Option Nat)
      (e : Expression)

namespace Started

/-- The next moment at which something happens to the plan. -/
def moment? : Started → Option Nat
  | done _ => none
  | waiting _ wake deadline _ => earlier (some wake) deadline

end Started

/-- Finish a plan whose description is due. -/
def resumePlan (client : Client) (table : String) (pending : Pending TableDescriptor)
    (e : Expression) : Run (Except QueryError QueryPlan) := do
  let (reply, backend) := (← get).backend.answer (.describe table) pending
  modify fun world => { world with backend := backend }
  planFrom table e (← acceptDescription client table (reply.mapError .store))

/-- Start a plan. It is finished at once unless it has to wait. -/
def startPlan (client : Client) (table : String) (e : Expression) : Run Started := do
  match ((← get).cacheOf client).get? table with
  | some catalog => return .done (← planFrom table e (.ok catalog))
  | none =>
    let deadline ← callDeadline client
    let (pending, backend) := (← get).backend.takeUp (.describe table)
    modify fun world => { world with backend := backend }
    if pending.stall = 0 then return .done (← resumePlan client table pending e)
    else return .waiting pending ((← get).now + pending.stall) deadline e

/-- Let a plan go on at the present time, if its wait is over or its deadline has
    come. -/
def resume (client : Client) (table : String) (started : Started) : Run Started := do
  match started with
  | .done result => return .done result
  | .waiting pending wake deadline e =>
    let now := (← get).now
    if wake ≤ now then return .done (← resumePlan client table pending e)
    else if deadline.any (· ≤ now) then return .done (.error .timeout)
    else return .waiting pending wake deadline e

/-- Go on from one moment to the next, at each of which at least one plan is
    finished. -/
def finishPlans (client : Client) (table : String) :
    Nat → List Started → Run (List Started)
  | 0, plans => return plans
  | rounds + 1, plans => do
    match (plans.filterMap Started.moment?).min? with
    | none => return plans
    | some moment =>
      modify fun world => { world with now := max world.now moment }
      finishPlans client table rounds (← plans.mapM (resume client table))

/-- Start plans together and let each go on as soon as it can. Whenever several
    can, they go on in the order in which they were started. -/
def planTogether (client : Client) (table : String) (es : List Expression) :
    Run (List (Except QueryError QueryPlan)) := do
  let started ← es.mapM (startPlan client table)
  let finished ← finishPlans client table started.length started
  return finished.map fun plan =>
    match plan with
    | .done result => result
    | .waiting _ _ _ _ => .error .timeout

end Run

end Session

end WideColumn
