import WideColumn.Proofs.Cursor.Draining
import WideColumn.Proofs.Scan.Pages
import WideColumn.Proofs.Store.Queries

/-!
# Where Paging Ends

Whether the pages of a query come to an end.

A page resumes after the key that the one before it reported, so paging ends if every
page leaves fewer rows than the one before it. It does where the order of the rows is
transitive: the rows after a key that was just reported came after the earlier ones too,
and the row of the key is not among them. Ties do no harm to that. They can lose rows,
which is another matter, and so lists and maps may stand under the sort key.

The order of rows is as transitive as the order of the values that place them.
`Coherent` asks that of the stored values and no others. It holds wherever the numbers
under each attribute have one form, by `coherent_of_uniform`. Where integers stand
beside doubles it can fail. An integer goes to its nearest double before the two are
compared, so two integers that differ can both tie with one double, as all numbers do with
what is no number, and what ties is ordered by the key of the table instead.
`pages_never_end` goes round such a cycle.

## Main definitions

* `IndexView.Coherent`: The values that place rows have a transitive order.
* `cyclicReadings`, `cyclicKeys`: Readings that are paged through in a circle.

## Theorems

* `coherent_of_uniform`: Numbers of one form are coherent.
* `order_transCmp`: The order of coherent rows is lawful.
* `length_remaining_lt`: A page leaves fewer rows than the one before it.
* `fetches_end_of_coherent`: There are no more pages than rows.
* `paging_ends`: Paging ends where the order is transitive.
* `pages_never_end`: Paging that does not end where it is not.
-/

namespace WideColumn

open Value (NumberForm)

namespace IndexView

/-- The values under each attribute that places rows have a transitive order. -/
def Coherent (view : IndexView) (items : List Item) : Prop :=
  ∀ attr ∈ view.orderAttrs, ∀ a ∈ items, ∀ b ∈ items, ∀ c ∈ items,
    (Value.keyOrder (a.get? attr) (b.get? attr)).isLE = true →
    (Value.keyOrder (b.get? attr) (c.get? attr)).isLE = true →
    (Value.keyOrder (a.get? attr) (c.get? attr)).isLE = true

/-- Numbers of one form are coherent, whatever stands beside them. -/
theorem coherent_of_uniform {view : IndexView} {items : List Item}
    (h : ∀ attr ∈ view.orderAttrs, ∃ form : NumberForm,
      ∀ item ∈ items, ∀ v, item.get? attr = some v → v.Uniform form) :
    view.Coherent items := by
  intro attr hattr a ha b hb c hc
  rcases h attr hattr with ⟨form, hform⟩
  rw [Value.keyOrder_eq_order_place_of_uniform (hform a ha) (hform b hb),
    Value.keyOrder_eq_order_place_of_uniform (hform b hb) (hform c hc),
    Value.keyOrder_eq_order_place_of_uniform (hform a ha) (hform c hc)]
  exact Std.TransCmp.isLE_trans

-- Positions compare place by place, so their order is lawful where that of each place is.
theorem positionOrder_transCmp {items : List Item} (attrs : List String)
    (h : ∀ attr ∈ attrs, ∀ a ∈ items, ∀ b ∈ items, ∀ c ∈ items,
      (Value.keyOrder (a.get? attr) (b.get? attr)).isLE = true →
      (Value.keyOrder (b.get? attr) (c.get? attr)).isLE = true →
      (Value.keyOrder (a.get? attr) (c.get? attr)).isLE = true) :
    Std.TransCmp fun a b : {item // item ∈ items} =>
      positionOrder (attrs.map a.1.get?) (attrs.map b.1.get?) := by
  induction attrs with
  | nil => exact { eq_swap := rfl, isLE_trans := fun _ _ => rfl }
  | cons attr rest ih =>
      have hhead : Std.TransCmp fun a b : {item // item ∈ items} =>
          Value.keyOrder (a.1.get? attr) (b.1.get? attr) :=
        { eq_swap := fun {a b} => (Value.keyOrder_swap (b.1.get? attr) (a.1.get? attr)).symm
          isLE_trans := fun {a b c} =>
            h attr List.mem_cons_self a.1 a.2 b.1 b.2 c.1 c.2 }
      have hrest := ih fun other hother => h other (List.mem_cons_of_mem attr hother)
      exact inferInstanceAs (Std.TransCmp (compareLex
        (fun a b : {item // item ∈ items} => Value.keyOrder (a.1.get? attr) (b.1.get? attr))
        fun a b : {item // item ∈ items} =>
          positionOrder (rest.map a.1.get?) (rest.map b.1.get?)))

/-- The order of coherent rows is lawful. -/
theorem order_transCmp {view : IndexView} {items : List Item} (h : view.Coherent items) :
    Std.TransCmp fun a b : {item // item ∈ items} => view.order a.1 b.1 :=
  positionOrder_transCmp view.orderAttrs h

-- So coherent rows are bound to be sorted.
theorem sortable_of_coherent {view : IndexView} {request : QueryRequest} {items : List Item}
    (h : view.Coherent (view.rows request items)) : view.sortable request items = true :=
  sortable_iff.mpr (Or.inr (order_transCmp h))

section

variable {view : IndexView} {items : List Item} (hcoherent : view.Coherent items)
  (request : QueryRequest)

include hcoherent

theorem isAfter_trans {a b c : Item} (ha : a ∈ items) (hb : b ∈ items) (hc : c ∈ items)
    (hab : view.isAfter request a b = true) (hbc : view.isAfter request b c = true) :
    view.isAfter request a c = true := by
  have hlaws := order_transCmp hcoherent
  rw [isAfter, beq_iff_eq] at hab hbc ⊢
  cases hforward : request.forward with
  | true =>
      simp only [hforward, if_true] at hab hbc ⊢
      exact hlaws.gt_trans (a := ⟨c, hc⟩) (b := ⟨b, hb⟩) (c := ⟨a, ha⟩) hbc hab
  | false =>
      simp only [hforward, Bool.false_eq_true, if_false] at hab hbc ⊢
      exact hlaws.lt_trans (a := ⟨c, hc⟩) (b := ⟨b, hb⟩) (c := ⟨a, ha⟩) hbc hab

theorem isAfter_irrefl {a : Item} (ha : a ∈ items) : view.isAfter request a a = false := by
  have hlaws := order_transCmp hcoherent
  have hrefl : Std.ReflCmp fun a b : {item // item ∈ items} => view.order a.1 b.1 := inferInstance
  have hself : view.order a a = .eq := hrefl.compare_self (a := ⟨a, ha⟩)
  rw [isAfter, hself]
  cases request.forward <;> rfl

end

section

variable {view : IndexView} {request : QueryRequest} {items : List Item}
  (hcoherent : view.Coherent (view.rows request items))

include hcoherent

-- After the key of a row that was left those of the rows that were left remain that come
-- after it.
theorem remaining_itemKey_of_mem {start : Option Item}
    (hstart : ∀ key, start = some key → ∃ last ∈ view.rows request items, key = view.itemKey last)
    {row : Item} (hrow : row ∈ view.remaining { request with startKey := start } items) :
    view.remaining { request with startKey := some (view.itemKey row) } items =
      (view.remaining { request with startKey := start } items).filter
        (view.isAfter request row) := by
  have hkey : view.remaining { request with startKey := some (view.itemKey row) } items =
      (view.ordered request items).filter (view.isAfter request row) :=
    List.filter_congr fun other _ => isAfter_itemKey view request row other
  have hordered : ∀ other ∈ view.ordered request items, other ∈ view.rows request items :=
    fun other => (view.ordered_perm request items).mem_iff.mp
  cases start with
  | none => exact hkey
  | some key =>
      rcases hstart key rfl with ⟨last, hlast, rfl⟩
      have hbefore : view.remaining { request with startKey := some (view.itemKey last) } items =
          (view.ordered request items).filter (view.isAfter request last) :=
        List.filter_congr fun other _ => isAfter_itemKey view request last other
      rw [hbefore] at hrow
      rw [hkey, hbefore, List.filter_filter]
      refine List.filter_congr fun other hother => ?_
      rcases List.mem_filter.mp hrow with ⟨hmem, hafter⟩
      by_cases h : view.isAfter request row other = true
      · rw [isAfter_trans hcoherent request hlast (hordered row hmem) (hordered other hother)
          hafter h, Bool.and_true]
      · rw [Bool.not_eq_true] at h
        rw [h, Bool.false_and]

/-- After the key of a row that was left fewer rows are left: not that row, for one. -/
theorem length_remaining_lt {start : Option Item}
    (hstart : ∀ key, start = some key → ∃ last ∈ view.rows request items, key = view.itemKey last)
    {row : Item} (hrow : row ∈ view.remaining { request with startKey := start } items) :
    (view.remaining { request with startKey := some (view.itemKey row) } items).length <
      (view.remaining { request with startKey := start } items).length := by
  have hmem : row ∈ view.rows request items :=
    (view.ordered_perm request items).mem_iff.mp (mem_remaining.mp hrow).1
  rw [remaining_itemKey_of_mem hcoherent hstart hrow, List.length_filter_lt_length_iff_exists]
  exact ⟨row, hrow, by rw [isAfter_irrefl hcoherent request hmem]; exact Bool.false_ne_true⟩

/-- Where the order is transitive there are no more pages than rows, and one page if there
    are no rows. -/
theorem fetches_end_of_coherent {limits : Nat → Nat} (hlimits : ∀ i, 1 ≤ limits i) :
    ∃ last, (view.fetches request items limits (max 1 (view.rows request items).length)
        none).getLast? = some last ∧ (last.page view).lastKey = none := by
  refine fetches_end (R := fun start => ∀ key, start = some key →
    ∃ last ∈ view.rows request items, key = view.itemKey last) ?_ _ limits none hlimits
    (fun _ h => absurd h (by simp only [reduceCtorEq, not_false_eq_true]))
    (Nat.le_max_left _ _) ?_
  · intro start limit key hstart hlimit hkey
    rcases lastKey_cases view { request with startKey := start } hlimit items with
      ⟨_, row, hrow, hlast⟩ | ⟨_, hlast⟩
    · rw [hlast, Option.some.injEq] at hkey
      have hleft := List.mem_of_getElem? hrow
      rw [← hkey]
      refine ⟨fun next hnext => ⟨row, ?_, (Option.some.inj hnext).symm⟩,
        length_remaining_lt hcoherent hstart hleft⟩
      exact (view.ordered_perm request items).mem_iff.mp (mem_remaining.mp hleft).1
    · rw [hlast] at hkey
      exact absurd hkey (by simp only [reduceCtorEq, not_false_eq_true])
  · have hrows : (view.remaining { request with startKey := none } items).length =
        (view.rows request items).length := (view.ordered_perm request items).length_eq
    rw [hrows]
    exact Nat.le_max_right _ _

end

end IndexView

/-- Paging ends where the order is transitive. Whatever writes led to the table, if the
    values that place the rows of a request have a transitive order, then its pages come to
    one that reports no key, under any limits, and there are no more of them than rows, or
    one if there are no rows. So a cursor without a page cap ends, and has fetched no more
    pages than that. -/
theorem paging_ends {pageSize : Nat} (hpageSize : 1 ≤ pageSize) {writes : List Write}
    {request : QueryRequest} {table : Table}
    (htable : (MemoryStore.afterWrites pageSize writes).table request.table = .ok table)
    {view : IndexView} (hview : table.view request = .ok view)
    (hcoherent : view.Coherent (view.rows request table.items)) :
    let most := max 1 (view.rows request table.items).length
    (∀ limits : Nat → Nat, (∀ i, 1 ≤ limits i) →
      ∃ last, (view.fetches request table.items limits most none).getLast? = some last ∧
        (last.page view).lastKey = none) ∧
    ∀ limit deadline : Option Nat, limit ≠ some 0 → ∃ items : List Item,
      let drained := Delivery.run (MemoryStore.source request) Codec.raw.decode none
        (MemoryStore.afterWrites pageSize writes)
        (Delivery.drainCalls none limit deadline most (items.length + 1))
      drained.handed = items.map (fun item => ⟨some item, .ok item⟩) ++
          [⟨none, .error (.parsingComplete .allItemsParsed)⟩] ∧
        drained.exchanges.length ≤ most := by
  intro most
  refine ⟨fun limits hlimits => IndexView.fetches_end_of_coherent hcoherent hlimits,
    fun limit deadline hlimit => ?_⟩
  have hsize : 1 ≤ pageRows limit pageSize := pageRows_pos hlimit hpageSize
  have hend := IndexView.fetches_end_of_coherent hcoherent fun _ => hsize
  have hahead := IndexView.pagesAhead_of_fetches view request table.items hsize most 0 none
    (Or.inl rfl) hend
  have hlength := IndexView.length_fetches_le view request table.items most
    (fun _ => pageRows limit pageSize) none
  rw [← List.length_map (Fetch.page view)] at hlength
  have hdrained := Delivery.run_drainCalls Codec.raw.decode
    (MemoryStore.afterWrites_steady htable hview (IndexView.sortable_of_coherent hcoherent))
    (MemoryStore.runQuery_afterWrites hpageSize htable hview hlimit) hahead hlength deadline rfl
  exact ⟨_, hdrained.handed_eq, hdrained.exchanges_length ▸ hlength⟩

/-- A reading of one sensor. -/
def reading (id : Int64) (level : Value) : Item :=
  [("id", .integer id), ("level", level), ("sensor", .string "a")]

/-- Readings by number, with an index by sensor and level. -/
def readingSchema : TableSchema where
  name := "readings"
  keys := ⟨"id", none⟩
  indexes := [.global "byLevel" ⟨"sensor", some "level"⟩ .all]

/-- The index of readings by sensor and level. -/
def readingsByLevel : IndexView := ⟨⟨"sensor", some "level"⟩, ⟨"id", none⟩, .all⟩

/-- The readings of the sensor, highest level first. -/
def highestReadings : QueryRequest where
  table := "readings"
  index := some "byLevel"
  key := ⟨"sensor", .string "a", none⟩
  filter := none
  projection := none
  forward := false
  consistent := false
  limit := none
  startKey := none

/-- Readings of which two tie: their levels are lists. -/
def tiedReadings : Table where
  schema := readingSchema
  items := [reading 0 (.list []), reading 1 (.integer 5), reading 2 (.list [.null]),
    reading 3 .null]

theorem coherent_tiedReadings : readingsByLevel.Coherent
    (readingsByLevel.rows highestReadings tiedReadings.items) := by
  have hreadings : ∀ item ∈ tiedReadings.items, ∃ id level,
      item = reading id level ∧ level.Uniform .integer := by
    simp only [tiedReadings, List.forall_mem_cons, List.not_mem_nil, false_implies, implies_true,
      and_true]
    exact ⟨⟨0, _, rfl, trivial⟩, ⟨1, _, rfl, rfl⟩, ⟨2, _, rfl, trivial⟩, ⟨3, _, rfl, trivial⟩⟩
  refine IndexView.coherent_of_uniform fun attr _ => ⟨.integer, fun item hitem v hv => ?_⟩
  rcases hreadings item (List.mem_filter.mp hitem).1 with ⟨id, level, rfl, hlevel⟩
  have hmem := Keyed.mem_of_get?_eq_some hv
  simp only [reading, List.mem_cons, List.not_mem_nil, or_false, Prod.mk.injEq] at hmem
  rcases hmem with ⟨_, rfl⟩ | ⟨_, rfl⟩ | ⟨_, rfl⟩
  · exact rfl
  · exact hlevel
  · trivial

/-- The tied readings are paged through in four pages at most. -/
theorem paging_ends_tiedReadings :
    1 ≤ 2 ∧
    (MemoryStore.afterWrites 2 [.create readingSchema,
      .load "readings" tiedReadings.items]).table highestReadings.table = .ok tiedReadings ∧
    tiedReadings.view highestReadings = .ok readingsByLevel ∧
    readingsByLevel.Coherent (readingsByLevel.rows highestReadings tiedReadings.items) ∧
    (∀ limits : Nat → Nat, (∀ i, 1 ≤ limits i) →
      ∃ last, (readingsByLevel.fetches highestReadings tiedReadings.items limits 4
          none).getLast? = some last ∧ (last.page readingsByLevel).lastKey = none) ∧
    ∀ limit deadline : Option Nat, limit ≠ some 0 → ∃ items : List Item,
      let drained := Delivery.run (MemoryStore.source highestReadings) Codec.raw.decode none
        (MemoryStore.afterWrites 2 [.create readingSchema, .load "readings" tiedReadings.items])
        (Delivery.drainCalls none limit deadline 4 (items.length + 1))
      drained.handed = items.map (fun item => ⟨some item, .ok item⟩) ++
          [⟨none, .error (.parsingComplete .allItemsParsed)⟩] ∧
        drained.exchanges.length ≤ 4 := by
  have htable : (MemoryStore.afterWrites 2 [.create readingSchema,
      .load "readings" tiedReadings.items]).table highestReadings.table = .ok tiedReadings := rfl
  exact ⟨Nat.le_succ 1, htable, rfl, coherent_tiedReadings,
    paging_ends (Nat.le_succ 1) htable rfl coherent_tiedReadings⟩

/-- Readings with a double among integers. The first and the last level are 2 to the power
    53, the second is greater by one, and the third is 2 to the power 53 as a double. -/
def cyclicReadings : Table where
  schema := readingSchema
  items := [reading 0 (.integer 9007199254740992), reading 1 (.integer 9007199254740993),
    reading 2 (.float ⟨0x4340000000000000⟩), reading 3 (.integer 9007199254740992)]

/-- The keys that come round when these readings are paged through one by one. -/
def cyclicKeys : List Item :=
  [reading 1 (.integer 9007199254740993), reading 2 (.float ⟨0x4340000000000000⟩),
    reading 3 (.integer 9007199254740992)]

-- The last reading ties with the double and the double with the second reading, and of
-- readings that tie the later one comes first. The second reading is above the last.
theorem lastKey_cyclicReadings {start : Option Item}
    (hstart : ∀ key, start = some key → key ∈ cyclicKeys) :
    ∃ key ∈ cyclicKeys, (readingsByLevel.scan { highestReadings with startKey := start } 1
      cyclicReadings.items).lastKey = some key := by
  have hfirst := List.mem_cons_self (a := reading 1 (.integer 9007199254740993))
    (l := cyclicKeys.tail)
  have hsecond : reading 2 (.float ⟨0x4340000000000000⟩) ∈ cyclicKeys :=
    List.mem_cons_of_mem _ List.mem_cons_self
  have hthird : reading 3 (.integer 9007199254740992) ∈ cyclicKeys :=
    List.mem_cons_of_mem _ (List.mem_cons_of_mem _ List.mem_cons_self)
  cases start with
  | none => exact ⟨_, hthird, rfl⟩
  | some key =>
      have hkey := hstart key rfl
      simp only [cyclicKeys, List.mem_cons, List.not_mem_nil, or_false] at hkey
      rcases hkey with rfl | rfl | rfl
      · exact ⟨_, hthird, rfl⟩
      · exact ⟨_, hfirst, rfl⟩
      · exact ⟨_, hsecond, rfl⟩

/-- Paging that does not end. Four rows match, and there are as many pages as are asked
    for, all of which report a key. -/
theorem pages_never_end :
    (MemoryStore.afterWrites 100 [.create readingSchema,
      .load "readings" cyclicReadings.items]).table highestReadings.table = .ok cyclicReadings ∧
    cyclicReadings.view highestReadings = .ok readingsByLevel ∧
    (readingsByLevel.rows highestReadings cyclicReadings.items).length = 4 ∧
    ∀ count, (readingsByLevel.fetches highestReadings cyclicReadings.items (fun _ => 1) count
        none).length = count ∧
      ∀ f ∈ readingsByLevel.fetches highestReadings cyclicReadings.items (fun _ => 1) count none,
        (f.page readingsByLevel).lastKey ≠ none := by
  refine ⟨rfl, rfl, rfl, fun count => ?_⟩
  -- The start is generalised to all that come round, as it changes from page to page.
  have hround : ∀ start : Option Item, (∀ key, start = some key → key ∈ cyclicKeys) →
      (readingsByLevel.fetches highestReadings cyclicReadings.items (fun _ => 1) count
        start).length = count ∧
      ∀ f ∈ readingsByLevel.fetches highestReadings cyclicReadings.items (fun _ => 1) count start,
        (f.page readingsByLevel).lastKey ≠ none := by
    induction count with
    | zero => exact fun _ _ => ⟨rfl, fun _ hf => absurd hf List.not_mem_nil⟩
    | succ count ih =>
        intro start hstart
        rcases lastKey_cyclicReadings hstart with ⟨key, hmem, hkey⟩
        rcases ih (some key) (fun next hnext => Option.some.inj hnext ▸ hmem) with
          ⟨hlength, hkeys⟩
        simp only [IndexView.fetches, Fetch.page, hkey]
        refine ⟨by rw [List.length_cons, hlength], fun f hf => ?_⟩
        rcases List.mem_cons.mp hf with rfl | hrest
        · rw [hkey]
          exact Option.some_ne_none key
        · exact hkeys f hrest
  exact hround none fun _ h => absurd h (by simp only [reduceCtorEq, not_false_eq_true])

end WideColumn
