import WideColumn.Proofs.Store.Finding
import WideColumn.Proofs.Store.Queries
import WideColumn.Proofs.Value.Json
import WideColumn.Session.Step

/-!
# Keeping Records

A client gives back the records that it was given.

Three parts of the library take part in that. A record is written as an item, the item
replaces the one with its key, and what is looked up is read back as a record. They fit
together just as far as JSON values survive being stored, so every statement here compares
records as they are stored. `getRecord_after_puts` is the law of a keyed store: whatever
is written before and after, a record is found under its key until another one of that
key is written.

Records that differ as JSON values but not as they are stored are one record to the store.
`counters_overwritten` has two of them. Their numbers are beyond the signed integers.

## Main definitions

* `SameKey`: Records agree on the fields of a key.
* `Session.Puts`: Records that are written one after the other.

## Theorems

* `hasKey_entriesOfJson`: Keys of records and keys of the items they are written as.
* `Puts.preserves`: What every write keeps holds after all of them.
* `getRecord_after_puts`: A record is found until its key is written again.
-/

namespace WideColumn

/-- Two records have the same fields under the attributes of a key. -/
def SameKey (keys : IndexKeys) (a b : Keyed Json) : Prop :=
  ∀ attr ∈ keys.attrs, Json.sameOptional (a.get? attr) (b.get? attr) = true

-- The fields of a record's key have the key.
theorem sameKey_restrict (keys : IndexKeys) (record : Keyed Json) :
    SameKey keys (Json.storedMembers (record.restrict keys.attrs.contains))
      (Json.storedMembers record) := by
  intro attr hattr
  have hcontains : keys.attrs.contains attr = true := List.contains_iff_mem.mpr hattr
  rw [Json.get?_storedMembers, Json.get?_storedMembers, Keyed.get?_restrict, if_pos hcontains]
  exact Json.sameOptional_self _

namespace Table

/-- A record has the key of another one just if the items have that they are written as. -/
theorem hasKey_entriesOfJson (table : Table) (a b : Keyed Json) :
    table.hasKey (Value.entriesOfJson a) (Value.entriesOfJson b) = true ↔
      SameKey table.schema.keys (Json.storedMembers b) (Json.storedMembers a) := by
  rw [hasKey_iff]
  simp only [Value.sameOptional_entriesOfJson]
  rfl

end Table

namespace Session

/-- Records are written to a table one after the other, and every write succeeds. Each may
    come from a client of its own. -/
inductive Puts (name : String) : World → List (Keyed Json) → World → Prop
  | nil (world : World) : Puts name world [] world
  | cons {world next last : World} {record : Keyed Json} {rest : List (Keyed Json)}
      (client : Client) :
      Step.putRecord client name (.object record) world = (.ok (), next) →
      Puts name next rest last → Puts name world (record :: rest) last

-- A memory store takes no time to write a record. The world changes in the store only.
theorem putRecord_memory {world : World} {store : MemoryStore}
    (hbackend : world.backend = .memory store) (client : Client) (name : String)
    (record : Keyed Json) :
    Step.putRecord client name (.object record) world =
      ((store.answer (.putItem name (Value.entriesOfJson record))).1.mapError .store,
        { world with
          backend := .memory (store.answer (.putItem name (Value.entriesOfJson record))).2 }) := by
  obtain ⟨now, backend, caches, clients, cursors, warnings⟩ := world
  cases hbackend
  rfl

-- Nor does it to find one, and nothing changes at all.
theorem getRecord_memory {world : World} {store : MemoryStore}
    (hbackend : world.backend = .memory store) {name : String} {key : Keyed Json} {item : Item}
    (hfound : store.getItem name (Value.entriesOfJson key) = .ok (some item)) (client : Client) :
    Step.getRecord client name (.object key) .json world = (.ok (.json (fromItem item)), world) := by
  have hcall : Run.call client none (.getItem name (Value.entriesOfJson key)) world =
      ((store.getItem name (Value.entriesOfJson key)).mapError .store, world) := by
    obtain ⟨now, backend, caches, clients, cursors, warnings⟩ := world
    cases hbackend
    rfl
  have hitem : toItem (.object key) = .ok (Value.entriesOfJson key) := rfl
  rw [hfound] at hcall
  simp only [Step.getRecord, hitem, bind, StateT.bind, hcall]
  rfl

/-- A record that was written with success was written to the store. -/
theorem putItem_of_putRecord {world next : World} {store : MemoryStore}
    (hbackend : world.backend = .memory store) {client : Client} {name : String}
    {record : Keyed Json}
    (hput : Step.putRecord client name (.object record) world = (.ok (), next)) :
    ∃ written, store.putItem name (Value.entriesOfJson record) = .ok written ∧
      next.backend = .memory written := by
  have hanswer := (putRecord_memory hbackend client name record).symm.trans hput
  have hreply := congrArg Prod.fst hanswer
  have hnext := congrArg (fun result => result.2.backend) hanswer
  simp only [MemoryStore.answer] at hreply hnext
  cases hwritten : store.putItem name (Value.entriesOfJson record) with
  | error e =>
      simp only [hwritten] at hreply
      exact absurd hreply nofun
  | ok written =>
      simp only [hwritten] at hnext
      exact ⟨written, rfl, hnext.symm⟩

namespace Puts

theorem split {name : String} {world last : World} {before after : List (Keyed Json)}
    (h : Puts name world (before ++ after) last) :
    ∃ next, Puts name world before next ∧ Puts name next after last := by
  induction before generalizing world with
  | nil => exact ⟨world, .nil world, h⟩
  | cons record rest ih =>
      cases h with
      | cons client hput hrest =>
          rcases ih hrest with ⟨next, hbefore, hafter⟩
          exact ⟨next, .cons client hput hbefore, hafter⟩

/-- What every write keeps of a store holds after all of them. -/
theorem preserves {name : String} {P : MemoryStore → Prop} {records : List (Keyed Json)}
    (hstep : ∀ record ∈ records, ∀ store written : MemoryStore, P store →
      store.putItem name (Value.entriesOfJson record) = .ok written → P written)
    {world last : World} (h : Puts name world records last) {store : MemoryStore}
    (hbackend : world.backend = .memory store) (hstore : P store) :
    ∃ written, last.backend = .memory written ∧ P written := by
  induction h generalizing store with
  | nil world => exact ⟨store, hbackend, hstore⟩
  | cons client hput hrest ih =>
      rcases putItem_of_putRecord hbackend hput with ⟨written, hwritten, hnext⟩
      exact ih (fun record hrecord => hstep record (List.mem_cons_of_mem _ hrecord)) hnext
        (hstep _ List.mem_cons_self store written hstore hwritten)

end Puts

/-- A record is found until its key is written again. Whatever records are written to a
    table before and after it, reading by the fields of its key gives it back as it is stored,
    if no record after it has the same key as it is stored. A record without natural numbers
    beyond the signed integers is stored as it is. -/
theorem getRecord_after_puts {world written : World} {store : MemoryStore}
    (hbackend : world.backend = .memory store) {name : String} {table : Table}
    (htable : store.table name = .ok table) {before after : List (Keyed Json)}
    {record : Keyed Json} (hputs : Puts name world (before ++ record :: after) written)
    (hafter : ∀ later ∈ after,
      ¬ SameKey table.schema.keys (Json.storedMembers later) (Json.storedMembers record))
    {key : Keyed Json}
    (hkey : SameKey table.schema.keys (Json.storedMembers key) (Json.storedMembers record))
    (client : Client) :
    Step.getRecord client name (.object key) .json written =
        (.ok (.json (Json.object record).stored), written) ∧
      ((Json.object record).fits = true → (Json.object record).stored = .object record) := by
  refine ⟨?_, Json.stored_of_fits _⟩
  have hkeys : ∀ (held : Table), held.schema = table.schema → ∀ a b : Keyed Json,
      held.hasKey (Value.entriesOfJson a) (Value.entriesOfJson b) = true ↔
        SameKey table.schema.keys (Json.storedMembers b) (Json.storedMembers a) :=
    fun held hschema a b => hschema ▸ Table.hasKey_entriesOfJson held a b
  -- Writing a later record leaves what is found under the key.
  have hstep : ∀ later ∈ after, ∀ store written : MemoryStore,
      (store.Holds name table.schema ∧ store.getItem name (Value.entriesOfJson key) =
        .ok (some (Value.entriesOfJson record))) →
      store.putItem name (Value.entriesOfJson later) = .ok written →
      (written.Holds name table.schema ∧ written.getItem name (Value.entriesOfJson key) =
        .ok (some (Value.entriesOfJson record))) := by
    rintro later hlater store written ⟨⟨held, hheld, hschema⟩, hget⟩ hput
    have hnot : ¬ held.hasKey (Value.entriesOfJson key) (Value.entriesOfJson later) = true :=
      fun h => hafter later hlater ((hkeys held hschema record later).mp
        (Table.hasKey_trans ((hkeys held hschema record key).mpr hkey) h))
    refine ⟨MemoryStore.putItem_holds ⟨held, hheld, hschema⟩ hput, ?_⟩
    rw [MemoryStore.getItem_putItem_of_not hheld hput hnot]
    exact hget
  rcases hputs.split with ⟨middle, hbefore, hrest⟩
  rcases hbefore.preserves (P := fun store => store.Holds name table.schema)
      (fun _ _ _ _ hholds hput => MemoryStore.putItem_holds hholds hput) hbackend
      ⟨table, htable, rfl⟩ with ⟨reached, hreached, held, hheld, hschema⟩
  cases hrest with
  | cons writer hput hlater =>
      rcases putItem_of_putRecord hreached hput with ⟨taken, htaken, hnext⟩
      have hsame : held.hasKey (Value.entriesOfJson key) (Value.entriesOfJson record) = true := by
        rw [Table.hasKey_comm]
        exact (hkeys held hschema record key).mpr hkey
      have hfound := MemoryStore.getItem_putItem hheld htaken hsame
      rcases hlater.preserves hstep hnext
          ⟨MemoryStore.putItem_holds ⟨held, hheld, hschema⟩ htaken, hfound⟩ with
        ⟨final, hfinal, _, hget⟩
      have hjson : fromItem (Value.entriesOfJson record) = (Json.object record).stored :=
        Value.toJson_ofJson (.object record)
      rw [getRecord_memory hfinal hget, hjson]

/-- Counters by number. -/
def counterSchema : TableSchema where
  name := "counters"
  keys := ⟨"id", none⟩
  indexes := []

/-- A counter with its owner. -/
def counter (id : UInt64) (owner : String) : Keyed Json :=
  [("id", .number (.natural id)), ("owner", .string owner)]

/-- A table of counters without any, and one client. -/
def counterWorld : World :=
  .start (.memory ((MemoryStore.empty 100).create counterSchema)) .default

/-- The only client of that world. -/
def counterClient : Client := ⟨.default, 0⟩

/-- The world after counters are written. -/
def afterCounters (counters : List (Keyed Json)) : World :=
  counters.foldl (fun world counter =>
    (Step.putRecord counterClient "counters" (.object counter) world).2) counterWorld

/-- The first counter is found after it changes its owner and the second one is written. -/
theorem getRecord_after_puts_counters :
    counterWorld.backend = .memory ((MemoryStore.empty 100).create counterSchema) ∧
    ((MemoryStore.empty 100).create counterSchema).table "counters" = .ok ⟨counterSchema, []⟩ ∧
    Puts "counters" counterWorld ([counter 1 "a"] ++ counter 1 "b" :: [counter 2 "c"])
      (afterCounters [counter 1 "a", counter 1 "b", counter 2 "c"]) ∧
    Step.getRecord counterClient "counters"
        (.object ((counter 1 "b").restrict counterSchema.keys.attrs.contains)) .json
        (afterCounters [counter 1 "a", counter 1 "b", counter 2 "c"]) =
      (.ok (.json (.object (counter 1 "b"))),
        afterCounters [counter 1 "a", counter 1 "b", counter 2 "c"]) := by
  have hputs : Puts "counters" counterWorld ([counter 1 "a"] ++ counter 1 "b" :: [counter 2 "c"])
      (afterCounters [counter 1 "a", counter 1 "b", counter 2 "c"]) :=
    .cons counterClient rfl (.cons counterClient rfl (.cons counterClient rfl (.nil _)))
  have hafter : ∀ later ∈ [counter 2 "c"], ¬ SameKey counterSchema.keys
      (Json.storedMembers later) (Json.storedMembers (counter 1 "b")) := fun later hlater h => by
    rw [List.mem_singleton.mp hlater] at h
    exact absurd (h "id" List.mem_cons_self) Bool.false_ne_true
  have htable : ((MemoryStore.empty 100).create counterSchema).table "counters" =
      .ok ⟨counterSchema, []⟩ := rfl
  refine ⟨rfl, htable, hputs, ?_⟩
  have hfound := getRecord_after_puts rfl htable hputs hafter
    (sameKey_restrict counterSchema.keys (counter 1 "b")) counterClient
  rw [hfound.2 rfl] at hfound
  exact hfound.1

/-- Of two counters with numbers beyond the signed integers the second overwrites the first,
    though the numbers differ. -/
theorem counters_overwritten :
    Puts "counters" counterWorld
      [counter 0x8000000000000000 "a", counter 0x8000000000000001 "b"]
      (afterCounters [counter 0x8000000000000000 "a", counter 0x8000000000000001 "b"]) ∧
    ¬ SameKey counterSchema.keys (counter 0x8000000000000001 "b")
      (counter 0x8000000000000000 "a") ∧
    ∃ found, Step.getRecord counterClient "counters"
        (.object ((counter 0x8000000000000000 "a").restrict counterSchema.keys.attrs.contains))
        .json (afterCounters [counter 0x8000000000000000 "a", counter 0x8000000000000001 "b"]) =
      (.ok (.json found),
        afterCounters [counter 0x8000000000000000 "a", counter 0x8000000000000001 "b"]) ∧
      found.same (.object (counter 0x8000000000000000 "a")) = false :=
  ⟨.cons counterClient rfl (.cons counterClient rfl (.nil _)),
    fun h => absurd (h "id" List.mem_cons_self) Bool.false_ne_true, _, rfl, rfl⟩

end Session

end WideColumn
