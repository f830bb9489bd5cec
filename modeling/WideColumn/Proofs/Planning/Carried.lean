import WideColumn.Proofs.Planning.Execution
import WideColumn.Proofs.Scan.Interleaved

/-!
# What a Plan Carries

How much of an item comes back when no attribute was selected.

Three parts of the library look at a selection without attributes, and each makes
something else of it. To the planner it is a selection, and every index carries all of
its attributes, so none is turned down for carrying too little. To the request it is
none, so nothing is projected away. What is left is the projection of the index, which
is applied in any case.

Hence items come back as far as the chosen index carries them. They are whole if the
index carries whole items, and otherwise an item is whole just if the index happens to
carry every attribute that it has. `unselectedByYear_partly` has a plan on an index of keys
that leaves out an attribute.

## Theorems

* `project_eq_restrict`: What an index shows is what its entry in a catalog includes.
* `catalogued_project`: The same of every index of a catalog.
* `present_eq_project`: A request that selects nothing shows what the index shows.
* `plan_returns_carried`: What a plan returns that selects no attributes.
-/

namespace WideColumn

section

variable {index : TableIndex} {view : IndexView}

-- What an index shows of an item is what its entry in a catalog includes, if the two
-- agree on the projection.
theorem project_eq_restrict (hall : index.includesAll = (view.projection == .all))
    (hset : index.attributeSet = projectedAttributes view.table view.keys view.projection)
    (item : Item) : view.project item = item.restrict index.includes := by
  have hincludes : ∀ carried : List String,
      projectedAttributes view.table view.keys view.projection = some (sortedNames carried) →
      ∀ attr, index.includes attr = carried.contains attr := fun carried hcarried attr => by
    rw [TableIndex.includes, hset, hcarried, Bool.eq_iff_iff]
    exact List.contains_iff_mem.trans ((mem_sortedNames carried attr).trans
      List.contains_iff_mem.symm)
  rw [IndexView.project]
  cases hprojection : view.projection with
  | all =>
      have heverything : index.includes = fun _ => true := funext fun attr => by
        rw [TableIndex.includes, hset, hall, hprojection]
        rfl
      rw [heverything]
      exact (List.filter_eq_self.mpr fun _ _ => rfl).symm
  | keysOnly =>
      refine congrArg item.restrict (funext fun attr => ?_)
      rw [hincludes _ (congrArg _ hprojection) attr, IndexView.keyAttrs]
  | including attrs =>
      refine congrArg item.restrict (funext fun attr => ?_)
      rw [hincludes _ (congrArg _ hprojection) attr, IndexView.keyAttrs]
      exact List.contains_append.symm

end

/-- A request for an index of a catalog leads to one that shows of an item what the
    catalog says it includes. -/
theorem catalogued_project {schema : TableSchema} {items : List Item} {threshold : Binary64}
    {catalog : IndexCatalog}
    (hbuild : IndexCatalog.build (schema.describe items) threshold = .ok catalog)
    {index : TableIndex} (hindex : index ∈ catalog.indexes) {request : QueryRequest}
    (hname : request.index = if index.isPrimary then none else some index.name)
    (hconsistent : request.consistent = true → index.consistentReadable = true)
    {table : Table} (htable : table.schema = schema) :
    ∃ view, table.view request = .ok view ∧
      ∀ item, view.project item = item.restrict index.includes := by
  rcases catalogued_view hbuild hindex hname hconsistent htable with
    ⟨_, hprimary, hview⟩ | ⟨s, _, _, _, _, rfl, hview⟩
  · refine ⟨_, hview, project_eq_restrict ?_ ?_⟩
    all_goals
      rw [IndexCatalog.primary?, (build_describe hbuild).1, List.head?_cons,
        Option.some.injEq] at hprimary
      rw [← hprimary]
      rfl
  · exact ⟨_, hview, project_eq_restrict rfl rfl⟩

-- A request that projects nothing away shows of an item what the index shows.
theorem present_eq_project (view : IndexView) {request : QueryRequest}
    (h : request.projection = none) (item : Item) :
    view.present request item = view.project item := by
  rw [IndexView.present, h]
  rfl

-- The request of a selection without attributes projects nothing away.
theorem compile_projection {table : String} {index : TableIndex} {e : Expression}
    (hselected : e.selected = some []) {request : QueryRequest}
    (h : compile table index e = .ok request) : request.projection = none := by
  unfold compile at h
  split at h
  · rw [← Except.ok.inj h, hselected]
    rfl
  · exact absurd h (by simp only [reduceCtorEq, not_false_eq_true])

/-- What a plan returns that selects no attributes. If a catalog can be built from the
    report on a table, whatever items it held at the time, and an expression can be planned
    with it, then every page of the plan returns the rows that satisfy its filter, and of
    each of them the attributes that the chosen index carries. A row is whole just if the
    index carries every attribute that it has. Where the rows are unsortable other pages may
    come about, or none, but what they return are such items as well. -/
theorem plan_returns_carried {store : MemoryStore} {name : String} {table : Table}
    (htable : store.table name = .ok table) {items : List Item} {threshold : Binary64}
    {catalog : IndexCatalog}
    (hbuild : IndexCatalog.build (table.schema.describe items) threshold = .ok catalog)
    {e : Expression} (hselected : e.selected = some []) {planned : QueryPlan}
    (hplan : catalog.plan name e = .ok planned) :
    ∃ view, table.view planned.request = .ok view ∧
      ∀ limit start, limit ≠ some 0 →
        (∃ page rows,
          store.runQuery { planned.request with limit := limit, startKey := start } = .ok page ∧
          rows = (Fetch.mk { planned.request with limit := limit, startKey := start }
            (pageRows limit store.pageSize) table.items).returned view ∧
          (∀ row ∈ rows, row ∈ table.items) ∧
          page.items = rows.map (·.restrict planned.index.includes) ∧
          ∀ row ∈ rows, row.restrict planned.index.includes = row ↔
            ∀ attr, row.contains attr = true → planned.index.includes attr = true) ∧
        ∀ outcome, store.MayAnswer
            { planned.request with limit := limit, startKey := start } outcome →
          outcome = none ∧ view.Unsortable planned.request table.items ∨
          ∃ (page : Page) (rows : List Item), outcome = some (.ok page) ∧
            (∀ row ∈ rows, row ∈ table.items) ∧
            page.items = rows.map (·.restrict planned.index.includes) := by
  rcases IndexCatalog.plan_asks hplan with ⟨hindex, _, hasks, hname, hconsistent⟩
  rcases catalogued_project hbuild hindex hname hconsistent rfl with ⟨view, hview, hproject⟩
  have hnothing := compile_projection hselected (IndexCatalog.plan_eq_ok hplan).2
  have hpresent : ∀ (limit : Option Nat) (start : Option Item) (row : Item),
      view.present { planned.request with limit := limit, startKey := start } row =
        row.restrict planned.index.includes := fun limit start row =>
    (present_eq_project view hnothing row).trans (hproject row)
  rw [← hasks] at htable
  refine ⟨view, hview, fun limit start hlimit => ⟨?_, fun outcome houtcome => ?_⟩⟩
  · have hpage : store.runQuery { planned.request with limit := limit, startKey := start } =
        .ok ((Fetch.mk { planned.request with limit := limit, startKey := start }
          (pageRows limit store.pageSize) table.items).page view) :=
      MemoryStore.runQuery_eq_ok htable hview hlimit
    refine ⟨_, _, hpage, rfl, fun row hrow => ?_, ?_, fun row _ => Keyed.restrict_eq_self_iff⟩
    · have hremaining := List.mem_of_mem_take (List.mem_filter.mp hrow).1
      exact (IndexView.mem_ordered.mp (IndexView.mem_remaining.mp hremaining).1).1
    · rw [Fetch.page_items_eq_map]
      exact List.map_congr_left fun row _ => hpresent limit start row
  · have hanswers : store.MayAnswer { planned.request with limit := limit, startKey := start }
        outcome ↔ ∃ page, view.MayScan
          { planned.request with limit := limit, startKey := start }
            (pageRows limit store.pageSize) table.items page ∧ outcome = page.map .ok :=
      MemoryStore.mayAnswer_iff htable hview hlimit
    rcases hanswers.mp houtcome with ⟨_ | page, hscan, rfl⟩
    · have hunsortable := IndexView.mayScan_none_iff.mp hscan
      exact Or.inl ⟨rfl, hunsortable.many, hunsortable.broken⟩
    · rcases hscan.items_eq_map with ⟨rows, hstored, hitems⟩
      refine Or.inr ⟨page, rows, rfl, hstored, hitems.trans ?_⟩
      exact List.map_congr_left fun row _ => hpresent limit start row

/-- A film with a rating, which the index by year does not carry. -/
def ratedFilm : Item :=
  [("director", .string "a"), ("rating", .integer 8), ("title", .string "x"),
    ("year", .integer 1990)]

/-- The table of films with one film that is rated. -/
def ratedWrites : List Write := [.create filmSchema, .put "films" ratedFilm]

/-- The films of a director by year, with a selection of no attributes. -/
def unselectedByYear : List Expression.Call :=
  [.filter "director" (.equal (.string "a")), .orderBy "year" true, .select []]

/-- The catalog of the one film, under a threshold above one. -/
def ratedCatalog : IndexCatalog where
  tableName := "films"
  indexes := primaryIndex filmSchema.keys 1 ::
    filmSchema.indexes.map (filmSchema.catalogued [ratedFilm] (Binary64.ofNat 2))

/-- Planned on the index by year, the films come back without what the index leaves out,
    and nothing else may come of it. -/
theorem plan_returns_carried_unselectedByYear :
    ∃ planned view page rows,
      (MemoryStore.afterWrites 2 ratedWrites).table "films" = .ok ⟨filmSchema, [ratedFilm]⟩ ∧
      IndexCatalog.build (filmSchema.describe [ratedFilm]) (Binary64.ofNat 2) =
        .ok ratedCatalog ∧
      (Expression.ofCalls unselectedByYear).selected = some [] ∧
      ratedCatalog.plan "films" (Expression.ofCalls unselectedByYear) = .ok planned ∧
      (MemoryStore.afterWrites 2 ratedWrites).runQuery
        { planned.request with limit := some 1, startKey := none } = .ok page ∧
      rows = (Fetch.mk { planned.request with limit := some 1, startKey := none } 1
        [ratedFilm]).returned view ∧
      rows = [ratedFilm] ∧
      page.items = rows.map (·.restrict planned.index.includes) ∧
      ∀ outcome, (MemoryStore.afterWrites 2 ratedWrites).MayAnswer
          { planned.request with limit := some 1, startKey := none } outcome →
        ∃ (page : Page) (rows : List Item), outcome = some (.ok page) ∧
          (∀ row ∈ rows, row ∈ [ratedFilm]) ∧
          page.items = rows.map (·.restrict planned.index.includes) := by
  have htable : (MemoryStore.afterWrites 2 ratedWrites).table "films" =
      .ok ⟨filmSchema, [ratedFilm]⟩ := rfl
  have hbuild : IndexCatalog.build (filmSchema.describe [ratedFilm]) (Binary64.ofNat 2) =
      .ok ratedCatalog := rfl
  have hplan : ratedCatalog.plan "films" (Expression.ofCalls unselectedByYear) = .ok _ := rfl
  rcases plan_returns_carried htable hbuild rfl hplan with ⟨view, hview, hpages⟩
  rcases hpages (some 1) none (by decide) with ⟨⟨page, rows, hpage, hrows, _, hitems, _⟩, hall⟩
  rw [Except.ok.inj (hview.symm.trans rfl)] at hrows
  refine ⟨_, filmsByYear, page, rows, htable, hbuild, rfl, hplan, hpage, hrows, hrows, hitems,
    fun outcome houtcome => (hall outcome houtcome).resolve_left fun hpanics => ?_⟩
  -- One film is not too many.
  exact absurd (Nat.lt_of_lt_of_le hpanics.2.many (view.length_rows_le _ _)) (by decide)

/-- The film does not come back whole, though no attribute was selected. -/
theorem unselectedByYear_partly :
    (Expression.ofCalls unselectedByYear).selected = some [] ∧
    IndexCatalog.build (filmSchema.describe [ratedFilm]) (Binary64.ofNat 2) = .ok ratedCatalog ∧
    ∃ planned returned, ratedCatalog.plan "films" (Expression.ofCalls unselectedByYear) =
        .ok planned ∧
      (MemoryStore.afterWrites 2 ratedWrites).runQuery planned.request = .ok ⟨[returned], none⟩ ∧
      returned = film "a" "x" (some 1990) ∧ returned ∉ [ratedFilm] := by
  refine ⟨rfl, rfl, _, film "a" "x" (some 1990), rfl, rfl, rfl, fun h => ?_⟩
  have hlength := congrArg List.length (List.mem_singleton.mp h)
  exact absurd hlength (by decide)

end WideColumn
