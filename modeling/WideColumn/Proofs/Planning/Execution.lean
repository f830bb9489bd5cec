import WideColumn.Client
import WideColumn.Proofs.Planning.Answers
import WideColumn.Proofs.Store.Queries

/-!
# Execution of Plans

What is planned can be executed.

A planner and a store decide the same things apart from each other. Both want one
value of the partition key, the planner when it chooses an index and again when it
makes the request. Both refuse consistent reads of an index that is partitioned on
its own. And they name indexes: the planner by the names of a report, the store by
the first index of a name in the schema. If the store refused what the planner
accepts, it would be over one of these.

It does not. The index that is chosen has nothing against it, so it can be asked for
and be read as demanded. A catalog is only built of reports in which names are
different, so a name leads to the index that it was given to. And all of this is a
matter of the schema, which writes leave as it is.

What can go wrong is left to the items. A page is sorted, and the sort may panic on the
rows that are stored by then. The request and the schema have no say in that.

## Theorems

* `choose_eq_ok`: The chosen index is in the catalog and has nothing against it.
* `compile_of_viable`: Such an index can be asked.
* `plan_eq_ok`, `plan_asks`: What a plan consists of, and what it asks.
* `catalogued_view`: A request for an index of a catalog leads to the index.
* `plan_executes`: What is planned can be executed, unless the sort panics.
* `plan_panics_levels`: Readings on which it may.
-/

namespace WideColumn

-- The better of two indexes is one of the two.
theorem betterOf_cases (e : Expression) (best : Option TableIndex) (next : TableIndex) :
    betterOf e best next = some next ∨ betterOf e best next = best := by
  cases best with
  | none => exact Or.inl rfl
  | some held =>
      rw [betterOf]
      by_cases hscore : (score held e).below (score next e) = true
      · rw [if_pos hscore]
        exact Or.inl rfl
      · rw [if_neg hscore]
        exact Or.inr rfl

-- The best index is one of those that were compared. Generalised over the best one so
-- far.
theorem mem_of_foldl_betterOf {e : Expression} {index : TableIndex} (rest : List TableIndex)
    {best : Option TableIndex} (h : rest.foldl (betterOf e) best = some index) :
    index ∈ rest ∨ best = some index := by
  induction rest generalizing best with
  | nil => exact Or.inr h
  | cons next rest ih =>
      rw [List.foldl_cons] at h
      rcases ih h with hrest | hbetter
      · exact Or.inl (List.mem_cons_of_mem next hrest)
      · rcases betterOf_cases e best next with hnext | hbest
        · rw [hnext, Option.some.injEq] at hbetter
          exact Or.inl (hbetter ▸ List.mem_cons_self)
        · exact Or.inr (hbest.symm.trans hbetter)

/-- The index that is chosen is in the catalog, and nothing stands against it. -/
theorem IndexCatalog.choose_eq_ok {catalog : IndexCatalog} {e : Expression} {index : TableIndex}
    (h : catalog.choose e = .ok index) :
    index ∈ catalog.indexes ∧ infractions index e = [] := by
  unfold choose at h
  cases hbest : (catalog.viable e).foldl (betterOf e) none with
  | none => rw [hbest] at h; exact absurd h (by simp only [reduceCtorEq, not_false_eq_true])
  | some best =>
      rw [hbest, Except.ok.injEq] at h
      rcases mem_of_foldl_betterOf _ hbest with hmem | hnone
      · rw [viable, List.mem_filter, List.isEmpty_iff, h] at hmem
        exact hmem
      · exact absurd hnone (by simp only [reduceCtorEq, not_false_eq_true])

/-- An index that nothing stands against can be asked for the expression. -/
theorem compile_of_viable {index : TableIndex} {e : Expression} (h : infractions index e = [])
    (table : String) : ∃ request, compile table index e = .ok request ∧ request.table = table ∧
      (request.index = if index.isPrimary then none else some index.name) ∧
      (request.consistent = true → index.consistentReadable = true) := by
  rw [viable_iff] at h
  rcases h.partition with ⟨value, hvalue⟩
  exact ⟨_, compile_eq_ok table hvalue, rfl, rfl, h.consistency⟩

/-- A plan is the index that was chosen, and the request that asks it. -/
theorem IndexCatalog.plan_eq_ok {catalog : IndexCatalog} {name : String} {e : Expression}
    {planned : QueryPlan} (h : catalog.plan name e = .ok planned) :
    catalog.choose e = .ok planned.index ∧ compile name planned.index e = .ok planned.request := by
  unfold plan at h
  cases hchoose : catalog.choose e with
  | error rejected =>
      rw [hchoose] at h
      exact absurd h (by simp only [reduceCtorEq, not_false_eq_true])
  | ok index =>
      simp only [hchoose] at h
      cases hcompile : compile name index e with
      | error rejected =>
          rw [hcompile] at h
          exact absurd h (by simp only [reduceCtorEq, not_false_eq_true])
      | ok request =>
          simp only [hcompile, Except.ok.injEq] at h
          rw [← h]
          exact ⟨rfl, hcompile⟩

/-- A plan asks an index of the catalog that nothing stands against. -/
theorem IndexCatalog.plan_asks {catalog : IndexCatalog} {name : String} {e : Expression}
    {planned : QueryPlan} (h : catalog.plan name e = .ok planned) :
    planned.index ∈ catalog.indexes ∧ infractions planned.index e = [] ∧
      planned.request.table = name ∧
      (planned.request.index =
        if planned.index.isPrimary then none else some planned.index.name) ∧
      (planned.request.consistent = true → planned.index.consistentReadable = true) := by
  rcases plan_eq_ok h with ⟨hchoose, hcompile⟩
  rcases choose_eq_ok hchoose with ⟨hindex, hviable⟩
  rcases compile_of_viable hviable name with ⟨request, hsame, hasks⟩
  rw [hcompile, Except.ok.injEq] at hsame
  exact ⟨hindex, hviable, hsame ▸ hasks⟩

/-- A request for an index of a catalog leads to the index, if nothing stands against
    reading it as the request demands. -/
theorem catalogued_view {schema : TableSchema} {items : List Item} {threshold : Binary64}
    {catalog : IndexCatalog}
    (hbuild : IndexCatalog.build (schema.describe items) threshold = .ok catalog)
    {index : TableIndex} (hindex : index ∈ catalog.indexes) {request : QueryRequest}
    (hname : request.index = if index.isPrimary then none else some index.name)
    (hconsistent : request.consistent = true → index.consistentReadable = true)
    {table : Table} (htable : table.schema = schema) :
    (request.index = none ∧ catalog.primary? = some index ∧
      table.view request = .ok ⟨schema.keys, schema.keys, .all⟩) ∨
    ∃ s ∈ schema.indexes, request.index = some s.name ∧ catalog.primary? ≠ some index ∧
      schema.findIndex? s.name = some s ∧ index = schema.catalogued items threshold s ∧
      table.view request = .ok (s.view schema.keys) := by
  rcases build_describe hbuild with ⟨hindexes, hnodup, hnames⟩
  rw [hindexes] at hindex
  have hprimary : catalog.primary? = some (primaryIndex schema.keys items.length) := by
    rw [IndexCatalog.primary?, hindexes, List.head?_cons]
  rcases List.mem_cons.mp hindex with rfl | hsecondary
  · have hnone : request.index = none := hname
    refine Or.inl ⟨hnone, hprimary, ?_⟩
    rw [Table.view, hnone, htable]
  · rcases List.mem_map.mp hsecondary with ⟨s, hs, rfl⟩
    -- No index of the schema has the name of the primary one.
    have hsome : request.index = some s.name := by
      rw [hname, TableIndex.isPrimary]
      exact if_neg fun h => hnames s hs (beq_iff_eq.mp h)
    have hfind := findIndex?_of_mem hnodup hs
    refine Or.inr ⟨s, hs, hsome, fun h => ?_, hfind, rfl, ?_⟩
    · rw [hprimary, Option.some.injEq] at h
      exact hnames s hs (congrArg TableIndex.name h).symm
    · exact view_of_findIndex htable hfind hsome fun h => bne_iff_ne.mp (hconsistent h)

/-- What is planned can be executed. If a catalog can be built from the report on a
    table, whatever items it held at the time, and an index of the catalog is chosen,
    then it can be asked for the expression. The request names no index just if it is
    the primary one, and otherwise names the index of the schema that the one in the
    catalog was made from. And whatever is written after that, as long as the table is
    not created anew with another schema, the store never refuses the request, from any
    key on and under any limit but zero. It answers with a page, unless the sort
    panics, which it may just if the rows of the index are unsortable then. -/
theorem plan_executes {store : MemoryStore} {name : String} {table : Table}
    (htable : store.table name = .ok table) {items : List Item} {threshold : Binary64}
    {catalog : IndexCatalog}
    (hbuild : IndexCatalog.build (table.schema.describe items) threshold = .ok catalog)
    {e : Expression} {index : TableIndex} (hchoose : catalog.choose e = .ok index) :
    ∃ request, compile name index e = .ok request ∧
      (request.index = none ↔ catalog.primary? = some index) ∧
      (∀ asked, request.index = some asked → ∃ s, table.schema.findIndex? asked = some s ∧
        index = table.schema.catalogued items threshold s ∧ index.keys = s.keys ∧
        index.distribution = some s.distribution ∧
        index.attributeSet = projectedAttributes table.schema.keys s.keys s.projection) ∧
      ∀ writes : List Write, (∀ call ∈ writes, call.Keeps name table.schema) →
        ∃ later view, (writes.foldl MemoryStore.write store).table name = .ok later ∧
          later.view request = .ok view ∧ ∀ limit start, limit ≠ some 0 →
          (∃ page, (writes.foldl MemoryStore.write store).runQuery
              { request with limit := limit, startKey := start } = .ok page ∧
            (writes.foldl MemoryStore.write store).MayAnswer
              { request with limit := limit, startKey := start } (some (.ok page))) ∧
          (∀ outcome, (writes.foldl MemoryStore.write store).MayAnswer
              { request with limit := limit, startKey := start } outcome →
            outcome = none ∨ ∃ page, outcome = some (.ok page)) ∧
          ((writes.foldl MemoryStore.write store).MayAnswer
              { request with limit := limit, startKey := start } none ↔
            view.Unsortable request later.items) := by
  rcases IndexCatalog.choose_eq_ok hchoose with ⟨hindex, hviable⟩
  rcases compile_of_viable hviable name with ⟨request, hcompile, hasks, hname, hconsistent⟩
  have hleads := catalogued_view hbuild hindex hname hconsistent rfl
  refine ⟨request, hcompile, ?_, fun asked hasked => ?_, fun writes hkeep => ?_⟩
  · rcases hleads with ⟨hnone, hprimary, _⟩ | ⟨s, _, hsome, hother, _⟩
    · exact ⟨fun _ => hprimary, fun _ => hnone⟩
    · exact ⟨fun h => absurd (hsome.symm.trans h) (by simp only [reduceCtorEq,
        not_false_eq_true]), fun h => absurd h hother⟩
  · rcases hleads with ⟨hnone, _, _⟩ | ⟨s, _, hsome, _, hfind, heq, _⟩
    · exact absurd (hasked.symm.trans hnone) (by simp only [reduceCtorEq, not_false_eq_true])
    · rw [Option.some.inj (hasked.symm.trans hsome)]
      exact ⟨s, hfind, heq, by rw [heq]; exact ⟨rfl, rfl, rfl⟩⟩
  · -- The table that is asked later has the schema that was described.
    rcases MemoryStore.foldl_write_holds writes ⟨table, htable, rfl⟩ hkeep with
      ⟨later, hlater, hschema⟩
    have hview : ∃ view, later.view request = .ok view := by
      rcases catalogued_view hbuild hindex hname hconsistent hschema with
        ⟨_, _, hview⟩ | ⟨_, _, _, _, _, _, hview⟩
      · exact ⟨_, hview⟩
      · exact ⟨_, hview⟩
    rcases hview with ⟨view, hview⟩
    refine ⟨later, view, hlater, hview, fun limit start hlimit => ?_⟩
    rw [← hasks] at hlater
    -- Neither the index that is asked nor its rows depend on the limit and the key.
    have hrows : view.Unsortable { request with limit := limit, startKey := start } later.items ↔
        view.Unsortable request later.items :=
      ⟨fun h => ⟨h.many, h.broken⟩, fun h => ⟨h.many, h.broken⟩⟩
    have htable : (writes.foldl MemoryStore.write store).table
        ({ request with limit := limit, startKey := start } : QueryRequest).table = .ok later :=
      hlater
    have hview : later.view { request with limit := limit, startKey := start } = .ok view := hview
    have hlimit : ({ request with limit := limit, startKey := start } : QueryRequest).limit ≠
        some 0 := hlimit
    generalize { request with limit := limit, startKey := start } = paged at *
    have hpage := MemoryStore.runQuery_eq_ok htable hview hlimit
    refine ⟨⟨_, hpage, hpage ▸ MemoryStore.mayAnswer_runQuery _ _⟩,
      fun outcome houtcome => houtcome.page_or_none htable hview hlimit, ?_⟩
    exact (MemoryStore.mayAnswer_none_iff htable hview hlimit).trans hrows

/-- The titles of a director in the order of their years, read consistently. -/
def titlesByYear : List Expression.Call :=
  [.filter "director" (.equal (.string "a")), .orderBy "year" true, .select ["title"],
    .consistentRead true]

/-- The catalog of the films from before there were any. -/
def emptyFilmCatalog : IndexCatalog where
  tableName := "films"
  indexes := primaryIndex filmSchema.keys 0 ::
    filmSchema.indexes.map (filmSchema.catalogued [] .zero)

/-- The titles are planned on the index by year while there are no films yet, and read
    from there when there are. They are few, so a page of them is bound to come about. -/
theorem plan_executes_titlesByYear :
    ∃ index request,
      IndexCatalog.build (filmSchema.describe []) .zero = .ok emptyFilmCatalog ∧
      emptyFilmCatalog.choose (Expression.ofCalls titlesByYear) = .ok index ∧
      compile "films" index (Expression.ofCalls titlesByYear) = .ok request ∧
      index.keys = ⟨"director", some "year"⟩ ∧
      (MemoryStore.afterWrites 2 filmWrites).table "films" = .ok filmTable ∧
      ∀ outcome, ([.put "films" (film "c" "q" (some 2001)),
          .create { filmSchema with name := "shows" }].foldl
            MemoryStore.write (MemoryStore.afterWrites 2 filmWrites)).MayAnswer
          { request with limit := some 1, startKey := some (film "a" "y" (some 1985)) } outcome →
        ∃ page, outcome = some (.ok page) := by
  have hbuild : IndexCatalog.build (filmSchema.describe []) .zero = .ok emptyFilmCatalog := rfl
  have hchoose : emptyFilmCatalog.choose (Expression.ofCalls titlesByYear) =
      .ok (filmSchema.catalogued [] .zero
        (.colocated ⟨"director", some "title"⟩ "byYear" "year" .keysOnly)) := rfl
  rcases plan_executes afterWrites_filmWrites hbuild hchoose with
    ⟨request, hcompile, _, _, hexecutes⟩
  have hkeep : ∀ call ∈ [Write.put "films" (film "c" "q" (some 2001)),
      .create { filmSchema with name := "shows" }], call.Keeps "films" filmTable.schema := by
    simp only [List.forall_mem_cons, List.not_mem_nil, false_implies, implies_true, and_true]
    exact ⟨trivial, fun h => absurd h (by decide)⟩
  rcases hexecutes _ hkeep with ⟨later, view, hlater, _, hanswers⟩
  rcases hanswers (some 1) (some (film "a" "y" (some 1985))) (by decide) with
    ⟨_, houtcomes, hnone⟩
  refine ⟨_, request, hbuild, hchoose, hcompile, rfl, afterWrites_filmWrites,
    fun outcome houtcome => ?_⟩
  rcases houtcomes outcome houtcome with rfl | hpage
  · have hfew : (view.rows request later.items).length ≤ later.items.length :=
      view.length_rows_le request later.items
    rw [← Except.ok.inj hlater] at hfew
    have hmany := (hnone.mp houtcome).many
    rw [← Except.ok.inj hlater] at hmany
    exact absurd hmany (Nat.not_lt_of_le (Nat.le_trans hfew (by decide)))
  · exact hpage

/-- The readings of a sensor are planned, and their page may not come about. The sort may
    panic, though the request is one that the store does not refuse. -/
theorem plan_panics_levels :
    (MemoryStore.afterWrites 100 levelWrites).table "levels" = .ok levelTable ∧
    ∃ catalog index request,
      IndexCatalog.build (levelTable.schema.describe levelTable.items) (Binary64.ofNat 1) =
        .ok catalog ∧
      catalog.choose (Expression.ofCalls sensorReadings) = .ok index ∧
      compile "levels" index (Expression.ofCalls sensorReadings) = .ok request ∧
      (MemoryStore.afterWrites 100 levelWrites).MayAnswer request none := by
  have htable : (MemoryStore.afterWrites 100 levelWrites).table "levels" = .ok levelTable := rfl
  refine ⟨htable, ⟨"levels", [primaryIndex levelSchema.keys 21]⟩, _, _, rfl, rfl, rfl, ?_⟩
  refine (MemoryStore.mayAnswer_none_iff htable rfl (by decide)).mpr ?_
  exact unsortable_levels rfl

end WideColumn
