import WideColumn.Proofs.Condition.Conjunction
import WideColumn.Proofs.Planning.Catalog
import WideColumn.Proofs.Planning.Viable
import WideColumn.Proofs.Scan.Outcomes

/-!
# Answers of an Index

Every viable index that gives an answer gives the same one, and it is the right one.

`Expression.accepts` and `Expression.present` say what an expression asks for with
no index in sight: which items, and what of them. A request gets there in pieces.
The filters are divided into a key condition and a residue, the index shows only
the items that have its keys, and attributes are left out once by the index and
once by the request.

Of these the index is the one that could lose an item. `covers_of_accepts` says
that it does not: what it lacks is an item without one of its keys. The partition
key is filtered by every expression that the index is viable for, a key of the
table is in every item, and any other sort key makes the index sparse, so that the
expression filters it or orders by it. Either way the item was not asked for.

## Main definitions

* `Expression.accepts`, `Expression.present`: What an expression asks for.

## Theorems

* `holds_key_iff`: The key condition is the filters on the keys of the index.
* `filters_hold_iff`: The filters are those on the keys and the others.
* `covers_of_accepts`: An index has all items that are asked for.
* `selects_iff_accepts`: A request selects the items that are asked for.
* `present_eq`: A request returns of an item what is asked for.
* `pageOf_compiled_perm`: A page of the selected rows in any order is the right answer.
* `scan_compiled_perm`: Every viable index gives the right answer, or the sort panics.
* `scan_panics_levels`: Readings on which it may.
-/

namespace WideColumn

namespace Expression

/-- The expression asks for the item: it satisfies every filter and predicate, and
    carries the attribute that it is to be ordered by. -/
def accepts (e : Expression) (item : Item) : Bool :=
  e.filters.all (fun f => (f.2.toCondition f.1).holds item) &&
    e.predicates.all (·.holds item) && e.order.all fun order => item.contains order.attr

/-- What the expression asks for of an item. -/
def present (e : Expression) (item : Item) : Item :=
  match e.selected with
  | none => item
  | some attrs => item.restrict attrs.contains

/-- The key condition that an expression puts on an index. -/
def keyCondition (e : Expression) (keys : IndexKeys) (value : Value) : KeyCondition where
  partition := keys.partition
  value := value
  sort := keys.sort.bind fun sort => (e.filterOn sort).map fun f => (sort, f)

/-- The key condition is the filters on the keys of the index. -/
theorem holds_key_iff {e : Expression} {keys : IndexKeys} {value : Value}
    (hpartition : e.filterOn keys.partition = some (.equal value)) (item : Item) :
    (e.keyCondition keys value).toCondition.holds item = true ↔
      ∀ attr ∈ keys.attrs, ∀ f, e.filterOn attr = some f →
        (f.toCondition attr).holds item = true := by
  have hfirst : (∀ f, e.filterOn keys.partition = some f →
      (f.toCondition keys.partition).holds item = true) ↔
      (Condition.comparison keys.partition .equal value).holds item = true := by
    rw [hpartition]
    simp only [Option.some.injEq, forall_eq', Filter.toCondition]
  rw [keyCondition, KeyCondition.toCondition, IndexKeys.attrs, List.forall_mem_cons, hfirst]
  cases keys.sort with
  | none => simp only [Option.bind_none, Option.toList_none, List.not_mem_nil, false_implies,
      implies_true, and_true]
  | some sort =>
      simp only [Option.bind_some, Option.toList_some, List.mem_singleton, forall_eq]
      cases e.filterOn sort with
      | none => simp only [Option.map_none, reduceCtorEq, false_implies, implies_true, and_true]
      | some f => simp only [Option.map_some, Condition.holds_both, Bool.and_eq_true,
          Option.some.injEq, forall_eq']

/-- The filters of an expression are those on the keys of an index and the others. -/
theorem filters_hold_iff {e : Expression} (h : (e.filters.map Prod.fst).Nodup)
    (keys : IndexKeys) (item : Item) :
    (∀ p ∈ e.filters, (p.2.toCondition p.1).holds item = true) ↔
      (∀ attr ∈ keys.attrs, ∀ f, e.filterOn attr = some f →
        (f.toCondition attr).holds item = true) ∧
      ∀ p ∈ e.filters, p.1 ∉ keys.attrs → (p.2.toCondition p.1).holds item = true := by
  constructor
  · intro hall
    refine ⟨fun attr _ f hf => ?_, fun p hp _ => hall p hp⟩
    exact hall (attr, f) ((filterOn_eq_some_iff h).mp hf)
  · rintro ⟨hkeys, hothers⟩ ⟨attr, f⟩ hp
    by_cases hattr : attr ∈ keys.attrs
    · exact hkeys attr hattr f ((filterOn_eq_some_iff h).mpr hp)
    · exact hothers (attr, f) hp hattr

-- What is left for the filter of a request: the other filters and the predicates.
theorem residual_holds_iff (e : Expression) (keys : IndexKeys) (item : Item) :
    (Condition.all? (residualConditions keys e)).all (·.holds item) = true ↔
      (∀ p ∈ e.filters, p.1 ∉ keys.attrs → (p.2.toCondition p.1).holds item = true) ∧
      ∀ c ∈ e.predicates, c.holds item = true := by
  rw [Condition.holds_all?, residualConditions, List.all_append, Bool.and_eq_true,
    List.all_eq_true, List.all_eq_true]
  refine and_congr ?_ Iff.rfl
  simp only [List.mem_map, List.mem_filter, Bool.not_eq_true', List.contains_eq_mem,
    decide_eq_false_iff_not, forall_exists_index, and_imp]
  constructor
  · intro h p hp hattr
    exact h _ p hp hattr rfl
  · rintro h c p hp hattr rfl
    exact h p hp hattr

theorem accepts_iff {e : Expression} {item : Item} : e.accepts item = true ↔
    (∀ p ∈ e.filters, (p.2.toCondition p.1).holds item = true) ∧
    (∀ c ∈ e.predicates, c.holds item = true) ∧
    ∀ order, e.order = some order → item.contains order.attr = true := by
  rw [accepts, Bool.and_eq_true, Bool.and_eq_true, List.all_eq_true, List.all_eq_true,
    Option.all_eq_true, and_assoc]

end Expression

-- A viable index can be asked for an expression.
theorem compile_eq_ok {index : TableIndex} {e : Expression} (table : String) {value : Value}
    (hpartition : e.filterOn index.keys.partition = some (.equal value)) :
    compile table index e = .ok {
      table := table
      index := if index.isPrimary then none else some index.name
      key := e.keyCondition index.keys value
      filter := Condition.all? (residualConditions index.keys e)
      projection := e.selected.filter fun attrs => !attrs.isEmpty
      forward := e.order.all (·.ascending)
      consistent := e.consistent
      limit := none
      startKey := none } := by
  rw [compile, hpartition]
  rfl

section

variable {index : TableIndex} {schema : TableSchema} {view : IndexView} {e : Expression}
  (hserves : index.Serves schema view) (hviable : index.Viable e)

include hserves hviable

/-- An index has all items that are asked for. -/
theorem covers_of_accepts (h : (e.filters.map Prod.fst).Nodup) {item : Item}
    (hcomplete : schema.keys.covers item = true) (haccepts : e.accepts item = true) :
    view.keys.covers item = true := by
  rcases Expression.accepts_iff.mp haccepts with ⟨hfilters, _, horder⟩
  have hfiltered : ∀ attr f, e.filterOn attr = some f → item.contains attr = true :=
    fun attr f hf => Filter.contains_of_holds
      (hfilters (attr, f) ((Expression.filterOn_eq_some_iff h).mp hf))
  rw [IndexKeys.covers_iff, IndexKeys.attrs, List.forall_mem_cons]
  constructor
  · -- The filter on the partition key holds of no item without it.
    rcases hviable.partition with ⟨value, hvalue⟩
    rw [hserves.keys_eq] at hvalue
    exact hfiltered _ _ hvalue
  · intro sort hsort
    rw [Option.mem_toList] at hsort
    have hkeys : index.keys.sort = some sort := by
      rw [hserves.keys_eq]
      exact hsort
    by_cases hkey : sort ∈ schema.keys.attrs
    · exact IndexKeys.covers_iff.mp hcomplete sort hkey
    · -- The index is sparse, so the expression mentions its sort key.
      rcases hviable.sparsity sort hkeys (hserves.sparse sort hsort hkey) with
        ⟨f, hf⟩ | ⟨order, heq, hattr⟩
      · exact hfiltered sort f hf
      · rw [← hattr]
        exact horder order heq

/-- A request selects the items that are asked for. -/
theorem selects_iff_accepts (h : (e.filters.map Prod.fst).Nodup) {value : Value}
    (hpartition : e.filterOn index.keys.partition = some (.equal value)) {item : Item}
    (hcomplete : schema.keys.covers item = true) :
    ((view.keys.covers item = true ∧
        (e.keyCondition index.keys value).toCondition.holds item = true) ∧
      (Condition.all? (residualConditions index.keys e)).all (·.holds item) = true) ↔
      e.accepts item = true := by
  rw [Expression.holds_key_iff hpartition, Expression.residual_holds_iff]
  constructor
  · rintro ⟨⟨hcovers, hkeys⟩, hothers, hpredicates⟩
    refine Expression.accepts_iff.mpr ⟨?_, hpredicates, fun order heq => ?_⟩
    · exact (Expression.filters_hold_iff h index.keys item).mpr ⟨hkeys, hothers⟩
    · -- The order is by the sort key, which every item of the index has.
      refine IndexKeys.covers_iff.mp hcovers order.attr ?_
      rw [← hserves.keys_eq, IndexKeys.attrs, hviable.order order heq]
      exact List.mem_cons_of_mem _ List.mem_cons_self
  · intro haccepts
    rcases Expression.accepts_iff.mp haccepts with ⟨hfilters, hpredicates, _⟩
    rcases (Expression.filters_hold_iff h index.keys item).mp hfilters with ⟨hkeys, hothers⟩
    exact ⟨⟨covers_of_accepts hserves hviable h hcomplete haccepts, hkeys⟩, hothers, hpredicates⟩

-- An index that does not carry whole items carries what is selected.
theorem contains_of_selected {attrs carried : List String} (hselected : e.selected = some attrs)
    (hpartly : view.projection ≠ .all)
    (hcarried : projectedAttributes schema.keys view.keys view.projection =
      some (sortedNames carried)) :
    ∀ attr ∈ attrs, attr ∈ carried := by
  intro attr hattr
  rcases hviable.projection with hall | ⟨selected, heq, hincludes⟩
  · rw [hserves.includesAll_eq, beq_iff_eq] at hall
    exact absurd hall hpartly
  · rw [hselected, Option.some.injEq] at heq
    have hmem := hincludes attr (heq ▸ hattr)
    rw [TableIndex.includes, hserves.attributeSet_eq, hcarried] at hmem
    exact (mem_sortedNames carried attr).mp (List.contains_iff_mem.mp hmem)

-- Leaving out attributes by the index first does not matter for those that are
-- selected.
theorem restrict_project {attrs : List String} (hselected : e.selected = some attrs)
    (item : Item) : (view.project item).restrict attrs.contains = item.restrict attrs.contains := by
  have hkeyAttrs : view.keyAttrs = view.keys.attrs ++ schema.keys.attrs := by
    rw [IndexView.keyAttrs, hserves.table_eq]
  rw [IndexView.project, hkeyAttrs]
  cases hprojection : view.projection with
  | all => rfl
  | keysOnly =>
      have hcarries := contains_of_selected hserves hviable hselected (by simp [hprojection])
        (congrArg (projectedAttributes schema.keys view.keys) hprojection)
      refine Keyed.restrict_restrict_of_imp item fun name hname => ?_
      exact List.contains_iff_mem.mpr (hcarries name (List.contains_iff_mem.mp hname))
  | including more =>
      have hcarries := contains_of_selected hserves hviable hselected (by simp [hprojection])
        (congrArg (projectedAttributes schema.keys view.keys) hprojection)
      refine Keyed.restrict_restrict_of_imp item fun name hname => ?_
      have hmem := hcarries name (List.contains_iff_mem.mp hname)
      rw [Bool.or_eq_true, List.contains_iff_mem, List.contains_iff_mem]
      exact List.mem_append.mp hmem

/-- A request returns of an item what is asked for. -/
theorem present_eq (hselected : e.selected ≠ some []) {request : QueryRequest}
    (hprojection : request.projection = e.selected.filter fun attrs => !attrs.isEmpty)
    (item : Item) : view.present request item = e.present item := by
  -- The selection is not empty, so neither the request nor the scan drops it.
  have htwice : (request.projection.filter fun attrs => !attrs.isEmpty) = e.selected := by
    rw [hprojection]
    cases hsome : e.selected with
    | none => rfl
    | some attrs =>
        cases attrs with
        | nil => exact absurd hsome hselected
        | cons attr rest => rfl
  rw [IndexView.present, htwice, Expression.present]
  cases hsome : e.selected with
  | some attrs => exact restrict_project hserves hviable hsome item
  | none =>
      rcases hviable.projection with hall | ⟨selected, heq, _⟩
      · rw [hserves.includesAll_eq, beq_iff_eq] at hall
        rw [IndexView.project, hall]
      · exact absurd (hsome.symm.trans heq) (by simp)

end

-- Whatever order the rows are sorted in, a page that all of them fit in returns what is
-- asked for.
theorem pageOf_compiled_perm {schema : TableSchema} {view : IndexView} {index : TableIndex}
    {e : Expression} (hserves : index.Serves schema view) (hviable : index.Viable e)
    (hselected : e.selected ≠ some []) (hnodup : (e.filters.map Prod.fst).Nodup) {value : Value}
    (hvalue : e.filterOn index.keys.partition = some (.equal value)) {name : String}
    {request : QueryRequest} (hcompile : compile name index e = .ok request) {items : List Item}
    (hcomplete : ∀ item ∈ items, schema.keys.covers item = true) {rows : List Item}
    (hrows : rows.Perm (view.rows request items)) {limit : Nat} (hlimit : items.length ≤ limit) :
    (view.pageOf request limit (view.after request rows)).items.Perm
      ((items.filter e.accepts).map e.present) := by
  rw [compile_eq_ok name hvalue, Except.ok.injEq] at hcompile
  subst hcompile
  have hfits : rows.length ≤ limit :=
    Nat.le_trans (hrows.length_eq ▸ view.length_rows_le _ items) hlimit
  rw [IndexView.after, IndexView.pageOf_items, List.take_of_length_le hfits]
  refine ((hrows.filter _).map _).trans ?_
  rw [IndexView.rows, List.filter_filter]
  refine List.Perm.of_eq (Eq.trans (List.map_congr_left fun item _ =>
    present_eq hserves hviable hselected rfl item) ?_)
  refine congrArg _ (List.filter_congr fun item hitem => ?_)
  rw [Bool.eq_iff_iff, Bool.and_eq_true, Bool.and_eq_true, and_comm]
  exact selects_iff_accepts hserves hviable hnodup hvalue (hcomplete item hitem)

/-- Every viable index gives the right answer. Whatever writes led to the table,
    and whatever counts its descriptor has, under a threshold above one an index that
    nothing stands against can be asked for the expression, and a page that all items
    fit in returns, in some order, each item that is asked for once, and of it what
    is asked for. That no page comes about because the sort panics is possible just if
    the request selects more rows than are sorted by insertion and three of them break
    the order. -/
theorem scan_compiled_perm {pageSize : Nat} {writes : List Write} {name : String}
    {table : Table} (htable : (MemoryStore.afterWrites pageSize writes).table name = .ok table)
    {d : TableDescriptor} (hreports : d.Reports table.schema) {threshold : Binary64}
    (hthreshold : (Binary64.ofNat 1).below threshold = true) {catalog : IndexCatalog}
    (hbuild : IndexCatalog.build d threshold = .ok catalog) (calls : List Expression.Call)
    (hselected : (Expression.ofCalls calls).selected ≠ some []) {index : TableIndex}
    (hindex : index ∈ catalog.indexes)
    (hviable : infractions index (Expression.ofCalls calls) = []) :
    ∃ request view, compile name index (Expression.ofCalls calls) = .ok request ∧
      request.startKey = none ∧ table.view request = .ok view ∧ view.keys = index.keys ∧
      ∀ limit, table.items.length ≤ limit →
        view.MayScan request limit table.items (some (view.scan request limit table.items)) ∧
        (∀ page, view.MayScan request limit table.items (some page) →
          page.items.Perm ((table.items.filter (Expression.ofCalls calls).accepts).map
            (Expression.ofCalls calls).present)) ∧
        (view.MayScan request limit table.items none ↔ view.Unsortable request table.items) := by
  have hnodup := Expression.ofCalls_nodup calls
  have hsound := MemoryStore.afterWrites_sound htable
  generalize Expression.ofCalls calls = e at hselected hviable hnodup
  rw [viable_iff] at hviable
  rcases build_serves hreports hthreshold hbuild index hindex with ⟨view, _, hserves⟩
  rcases hviable.partition with ⟨value, hvalue⟩
  have hcompile := compile_eq_ok name hvalue
  refine ⟨_, view, hcompile, rfl, hserves.found table _ rfl rfl hviable.consistency,
    hserves.keys_eq.symm, fun limit hlimit => ⟨IndexView.mayScan_scan, fun page hpage => ?_,
      IndexView.mayScan_none_iff⟩⟩
  rcases hpage.exists_perm with ⟨rows, hrows, rfl⟩
  exact pageOf_compiled_perm hserves hviable hselected hnodup hvalue hcompile hsound.complete
    hrows hlimit

/-- A report on the films from a time when none had a year. -/
def filmReport : TableDescriptor :=
  filmSchema.describe [film "b" "w" none]

/-- The index by year as that report makes it out. -/
def reportedByYear : TableIndex :=
  secondaryIndex filmSchema.keys 1 (Binary64.ofNat 2)
    ⟨"byYear", (IndexKeys.mk "director" "year").schema, .keysOnly, .colocated, 0⟩
    ⟨"director", some "year"⟩

/-- The titles of the films of a director from some year on. -/
def recentTitles : List Expression.Call :=
  [.filter "director" (.equal (.string "a")), .filter "year" (.greaterOrEqual (.integer 1986)),
    .filterBy (.not (.beginsWith "title" "q")), .select ["title"]]

/-- The titles come from the index by year, which was reported empty. They are few. -/
theorem scan_compiled_perm_recentTitles :
    ∃ catalog request view,
      IndexCatalog.build filmReport (Binary64.ofNat 2) = .ok catalog ∧
      reportedByYear ∈ catalog.indexes ∧
      infractions reportedByYear (Expression.ofCalls recentTitles) = [] ∧
      compile "films" reportedByYear (Expression.ofCalls recentTitles) = .ok request ∧
      filmTable.view request = .ok view ∧ view.keys = ⟨"director", some "year"⟩ ∧
      ∀ limit, 4 ≤ limit →
        view.MayScan request limit filmTable.items
          (some (view.scan request limit filmTable.items)) ∧
        (∀ page, view.MayScan request limit filmTable.items (some page) →
          page.items.Perm [[("title", .string "x")], [("title", .string "z")]]) ∧
        ¬ view.MayScan request limit filmTable.items none := by
  have hbuild : IndexCatalog.build filmReport (Binary64.ofNat 2) =
      .ok ⟨"films", [primaryIndex filmSchema.keys 1, reportedByYear]⟩ := rfl
  have hindex : reportedByYear ∈ [primaryIndex filmSchema.keys 1, reportedByYear] :=
    List.mem_cons_of_mem _ List.mem_cons_self
  rcases scan_compiled_perm afterWrites_filmWrites (filmSchema.describe_reports _) (by decide)
    hbuild recentTitles (by decide) hindex (by decide) with
    ⟨request, view, hcompile, _, hview, hkeys, hscan⟩
  refine ⟨_, request, view, hbuild, hindex, by decide, hcompile, hview, hkeys,
    fun limit hlimit => ?_⟩
  rcases hscan limit hlimit with ⟨hsome, hperm, hnone⟩
  have hfew : (view.rows request filmTable.items).length ≤ 4 :=
    view.length_rows_le request filmTable.items
  refine ⟨hsome, hperm, fun hpanics => ?_⟩
  exact absurd (hnone.mp hpanics).many (Nat.not_lt_of_le (Nat.le_trans hfew (by decide)))

/-- A reading of a sensor, with a level and nothing else. -/
def levelReading (level : Value) : Item := [("level", level), ("sensor", .string "a")]

/-- Readings by sensor and level. -/
def levelSchema : TableSchema where
  name := "levels"
  keys := ⟨"sensor", some "level"⟩
  indexes := []

/-- Twenty levels that are integers, and one that is no number among them. -/
def mixedLevels : List Value :=
  [0, 7, 14, 1, 8, 15, 2, 9, 16, 3].map .integer ++
    .float .nan :: [10, 17, 4, 11, 18, 5, 12, 19, 6, 13].map .integer

/-- The table of these readings. -/
def levelTable : Table := ⟨levelSchema, mixedLevels.map levelReading⟩

/-- The table of levels is created and filled. -/
def levelWrites : List Write :=
  [.create levelSchema, .load "levels" (mixedLevels.map levelReading)]

/-- The readings of the sensor. -/
def sensorReadings : List Expression.Call := [.filter "sensor" (.equal (.string "a"))]

/-- What is no number ties with every level, and so the readings are unsortable. -/
theorem unsortable_levels {request : QueryRequest}
    (h : (IndexView.mk levelSchema.keys levelSchema.keys .all).rows request levelTable.items =
      levelTable.items) :
    (IndexView.mk levelSchema.keys levelSchema.keys .all).Unsortable request
      levelTable.items := by
  have hmem : ∀ {n : Nat} {row : Item}, levelTable.items[n]? = some row →
      row ∈ (IndexView.mk levelSchema.keys levelSchema.keys .all).rows request levelTable.items :=
    fun hrow => by
      rw [h]
      exact List.mem_of_getElem? hrow
  refine ⟨by rw [h]; decide, levelReading (.integer 7), hmem (n := 1) rfl,
    levelReading (.float .nan), hmem (n := 10) rfl, levelReading (.integer 0), hmem (n := 0) rfl,
    ?_⟩
  decide

/-- A page that all readings fit in, and that may not come about. The sort may panic. -/
theorem scan_panics_levels :
    (MemoryStore.afterWrites 100 levelWrites).table "levels" = .ok levelTable ∧
    levelTable.items.length = 21 ∧ (Binary64.ofNat 1).below (Binary64.ofNat 2) = true ∧
    ∃ catalog index request view,
      IndexCatalog.build (levelSchema.describe levelTable.items) (Binary64.ofNat 2) =
        .ok catalog ∧
      index ∈ catalog.indexes ∧ infractions index (Expression.ofCalls sensorReadings) = [] ∧
      compile "levels" index (Expression.ofCalls sensorReadings) = .ok request ∧
      levelTable.view request = .ok view ∧ view.MayScan request 21 levelTable.items none :=
  ⟨rfl, rfl, by decide, ⟨"levels", [primaryIndex levelSchema.keys 21]⟩, _, _, _, rfl,
    List.mem_cons_self, by decide, rfl, rfl,
    IndexView.mayScan_none_iff.mpr (unsortable_levels rfl)⟩

end WideColumn
