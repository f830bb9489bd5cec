import WideColumn.Store.Memory

/-!
# Backends

The stores that a session runs against, and the calls made to them.

A call is taken up and answered at two moments, with a wait between them. A
memory store looks at its tables when it answers, and counts the call then. A
scripted store has its answers laid out in advance: it uses one up, and counts
and notes the call, as soon as the call is taken up.

## Main definitions

* `Call`, `Call.Answer`: The calls and what they are answered with.
* `Script`: A store with its answers laid out.
* `Backend`: The two kinds of stores.
* `Backend.takeUp`, `Backend.answer`: The two moments of a call.
-/

namespace WideColumn

/-- What a store can be called for. -/
inductive Call where
  | describe (table : String)
  | execute (request : QueryRequest)
  | getItem (table : String) (key : Item)
  | putItem (table : String) (item : Item)

/-- What a call is answered with. -/
def Call.Answer : Call → Type
  | .describe _ => TableDescriptor
  | .execute _ => Page
  | .getItem _ _ => Option Item
  | .putItem _ _ => Unit

/-- An answer that was laid out. -/
structure Scripted (α : Type) where
  /-- How many milliseconds it takes. -/
  stall : Nat
  reply : Except StoreError α

/-- A call that was taken up and not yet answered. -/
structure Pending (α : Type) where
  /-- How many milliseconds it takes. -/
  stall : Nat
  /-- The answer, if it does not depend on when it is given. -/
  reply? : Option (Except StoreError α)

/-- A store with its answers laid out, in a list for each kind of call. -/
structure Script where
  describes : List (Scripted TableDescriptor)
  pages : List (Scripted Page)
  gets : List (Scripted (Option Item))
  puts : List (Scripted Unit)
  describeCalls : Nat
  executeCalls : Nat
  /-- The calls, in order. -/
  seen : List Call

/-- What a script answers when no answer is left. -/
def scriptExhausted : StoreError :=
  .validation (.other "script exhausted")

/-- The first answer that is left. When none is, the call is refused. -/
def Scripted.first {α : Type} : List (Scripted α) → Pending α
  | [] => ⟨0, some (.error scriptExhausted)⟩
  | answer :: _ => ⟨answer.stall, some answer.reply⟩

namespace Script

/-- Take up a call: use up an answer, count the call and note it. -/
def takeUp (script : Script) (call : Call) : Pending call.Answer × Script :=
  let noted := { script with seen := script.seen ++ [call] }
  match call with
  | .describe _ =>
    (Scripted.first script.describes,
      { noted with
        describes := script.describes.tail, describeCalls := script.describeCalls + 1 })
  | .execute _ =>
    (Scripted.first script.pages,
      { noted with pages := script.pages.tail, executeCalls := script.executeCalls + 1 })
  | .getItem _ _ => (Scripted.first script.gets, { noted with gets := script.gets.tail })
  | .putItem _ _ => (Scripted.first script.puts, { noted with puts := script.puts.tail })

end Script

/-- A store that a session runs against. -/
inductive Backend where
  | memory (store : MemoryStore)
  | scripted (script : Script)

namespace MemoryStore

/-- Answer a call from the tables as they are now. -/
def answer (store : MemoryStore) : (call : Call) → Except StoreError call.Answer × MemoryStore
  | .describe table => store.describe table
  | .execute request => store.execute request
  | .getItem table key => (store.getItem table key, store)
  | .putItem table item =>
    match store.putItem table item with
    | .ok store => (.ok (), store)
    | .error e => (.error e, store)

/-- How many milliseconds a call takes. Only descriptions and pages take any. -/
def stall (store : MemoryStore) : Call → Nat
  | .describe _ => store.latency.getD 0
  | .execute _ => store.latency.getD 0
  | .getItem _ _ => 0
  | .putItem _ _ => 0

end MemoryStore

namespace Backend

/-- Take up a call. Only a script has the answer then, and only it counts the call already. -/
def takeUp (backend : Backend) (call : Call) : Pending call.Answer × Backend :=
  match backend with
  | memory store => (⟨store.stall call, none⟩, memory store)
  | scripted script =>
    let (pending, script) := script.takeUp call
    (pending, scripted script)

/-- Answer a call that was taken up. -/
def answer (backend : Backend) (call : Call) (pending : Pending call.Answer) :
    Except StoreError call.Answer × Backend :=
  match pending.reply?, backend with
  | some reply, backend => (reply, backend)
  | none, memory store =>
    let (reply, store) := store.answer call
    (reply, memory store)
  | none, scripted script => (.error scriptExhausted, scripted script)

/-- How many descriptions and how many pages were asked for. -/
def callCounts : Backend → Nat × Nat
  | memory store => (store.describeCalls, store.executeCalls)
  | scripted script => (script.describeCalls, script.executeCalls)

/-- How many pages in a row can come before one of them has no successor or resumes
    after a key that an earlier one resumed after. Keys to resume after belong to
    items, and a script has no more pages than were laid out. -/
def pageBound : Backend → Nat
  | memory store => (store.tables.map fun entry => entry.2.items.length).foldl (· + ·) 0 + 2
  | scripted script => script.pages.length + 1

/-- How many items a page can have. -/
def itemBound : Backend → Nat
  | memory store => (store.tables.map fun entry => entry.2.items.length).foldl (· + ·) 0
  | scripted script =>
    let lengths := script.pages.map fun answer =>
      match answer.reply with
      | .ok page => page.items.length
      | .error _ => 0
    lengths.foldl (· + ·) 0

end Backend

end WideColumn
