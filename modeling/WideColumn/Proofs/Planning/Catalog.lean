import WideColumn.Catalog.Build
import WideColumn.Proofs.Store.Writes

/-!
# Catalogs of Stored Tables

What the catalog of a table knows about the indexes that the store has.

A catalog is built from a descriptor, and the counts in it may be as old as they
like: `TableDescriptor.Reports` says that everything else in it is what the store
reports. `TableIndex.Serves` is what such a catalog has right about an index. The
counts only enter into which indexes are sparse, and under a threshold above one
not even there. Then every secondary index is sparse whose sort key is not a key
of the table, and that is what `Serves` demands.

An index is known to the store by its name. No catalog has two indexes of one
name, so the name leads back to the index it was built from.

## Main definitions

* `TableDescriptor.Reports`: A descriptor of a table, up to its counts.
* `TableIndex.Serves`: What a catalog has right about an index.
* `TableSchema.catalogued`: What a catalog makes of an index of the schema.

## Theorems

* `describe_reports`: What the store reports is a descriptor of the table.
* `build_eq_ok_iff`: What a catalog is built of.
* `secondaryIndexes_spec`: Where the secondary indexes of a catalog come from.
* `build_describe`: The catalog of a report that the store made.
* `build_serves`: Every index of a catalog is one that the store has.
-/

namespace WideColumn

/-- The descriptor is what a store reports of a table, except that its name and its
    counts may be any. -/
structure TableDescriptor.Reports (d : TableDescriptor) (schema : TableSchema) : Prop where
  keySchema_eq : d.keySchema = schema.keys.schema
  secondaries_eq : d.secondaries.map (fun s => { s with itemCount := 0 }) =
    schema.indexes.map (·.describe [])

/-- What the store reports is a descriptor of the table. -/
theorem TableSchema.describe_reports (schema : TableSchema) (items : List Item) :
    (schema.describe items).Reports schema := by
  refine ⟨rfl, ?_⟩
  rw [describe, List.map_map]
  exact List.map_congr_left fun _ _ => rfl

theorem Binary64.below_iff {x y : Binary64} :
    x.below y = true ↔ (x.isNaN || y.isNaN) = false ∧ x.rank < y.rank := by
  rw [below, beq_iff_eq, compare?]
  cases h : (x.isNaN || y.isNaN) with
  | false => simp only [Bool.false_eq_true, if_false, Option.some.injEq, true_and,
      Std.compare_eq_lt]
  | true => simp only [if_true, reduceCtorEq, false_and]

theorem Binary64.below_trans {x y z : Binary64} (hxy : x.below y = true)
    (hyz : y.below z = true) : x.below z = true := by
  rw [below_iff, Bool.or_eq_false_iff] at *
  exact ⟨⟨hxy.1.1, hyz.1.2⟩, Int.lt_trans hxy.2 hyz.2⟩

/-- The properties of an index in a catalog are those of a view of the table, with
    every index sparse that can lack items. Requests that the catalog makes for the
    index lead to the view. -/
structure TableIndex.Serves (index : TableIndex) (schema : TableSchema) (view : IndexView) :
    Prop where
  table_eq : view.table = schema.keys
  keys_eq : index.keys = view.keys
  includesAll_eq : index.includesAll = (view.projection == .all)
  attributeSet_eq : index.attributeSet = projectedAttributes schema.keys view.keys view.projection
  sparse : ∀ sort, view.keys.sort = some sort → sort ∉ schema.keys.attrs → index.isSparse = true
  found : ∀ (table : Table) (request : QueryRequest), table.schema = schema →
    request.index = (if index.isPrimary then none else some index.name) →
    (request.consistent = true → index.consistentReadable = true) →
    table.view request = .ok view

theorem resolveKeys_schema (name : String) (keys : IndexKeys) :
    resolveKeys name keys.schema = .ok keys := by
  rcases keys with ⟨partition, _ | sort⟩ <;> rfl

-- A descriptor with an index that is built: its name is new, its keys are resolved, and
-- the others are built behind it.
theorem secondaryIndexes_cons_eq_ok {table : IndexKeys} {tableSize : Nat} {threshold : Binary64}
    {seen : List String} {d : SecondaryDescriptor} {rest : List SecondaryDescriptor}
    {built : List TableIndex}
    (h : secondaryIndexes table tableSize threshold seen (d :: rest) = .ok built) :
    d.name ≠ TableIndex.primaryName ∧ d.name ∉ seen ∧ ∃ keys others,
      resolveKeys d.name d.keySchema = .ok keys ∧
      secondaryIndexes table tableSize threshold (d.name :: seen) rest = .ok others ∧
      built = secondaryIndex table tableSize threshold d keys :: others := by
  rw [secondaryIndexes] at h
  by_cases hreserved : d.name = TableIndex.primaryName
  · rw [if_pos hreserved] at h
    exact absurd h (by simp only [bind, Except.bind, throw, throwThe, MonadExceptOf.throw,
      reduceCtorEq, not_false_eq_true])
  by_cases hseen : seen.contains d.name = true
  · rw [if_neg hreserved, if_pos hseen] at h
    exact absurd h (by simp only [bind, Except.bind, throw, throwThe, MonadExceptOf.throw,
      reduceCtorEq, not_false_eq_true])
  rw [if_neg hreserved, if_neg hseen] at h
  simp only [bind, Except.bind, pure, Except.pure] at h
  refine ⟨hreserved, fun hmem => hseen (List.contains_iff_mem.mpr hmem), ?_⟩
  cases hkeys : resolveKeys d.name d.keySchema with
  | error e => rw [hkeys] at h; exact absurd h (by simp only [reduceCtorEq, not_false_eq_true])
  | ok keys =>
      rw [hkeys] at h
      cases hrest : secondaryIndexes table tableSize threshold (d.name :: seen) rest with
      | error e => rw [hrest] at h; exact absurd h (by simp only [reduceCtorEq,
          not_false_eq_true])
      | ok others =>
          rw [hrest] at h
          exact ⟨keys, others, rfl, rfl, (Except.ok.inj h).symm⟩

-- And the other way round.
theorem secondaryIndexes_cons {table : IndexKeys} {tableSize : Nat} {threshold : Binary64}
    {seen : List String} {d : SecondaryDescriptor} {rest : List SecondaryDescriptor}
    {keys : IndexKeys} {others : List TableIndex} (hreserved : d.name ≠ TableIndex.primaryName)
    (hnew : d.name ∉ seen) (hkeys : resolveKeys d.name d.keySchema = .ok keys)
    (hrest : secondaryIndexes table tableSize threshold (d.name :: seen) rest = .ok others) :
    secondaryIndexes table tableSize threshold seen (d :: rest) =
      .ok (secondaryIndex table tableSize threshold d keys :: others) := by
  have hseen : ¬ seen.contains d.name = true := fun h => hnew (List.contains_iff_mem.mp h)
  rw [secondaryIndexes, if_neg hreserved, if_neg hseen, hkeys, hrest]
  rfl

/-- A catalog is built of the keys of the table and the indexes of the descriptor. -/
theorem build_eq_ok_iff {d : TableDescriptor} {threshold : Binary64} {catalog : IndexCatalog} :
    IndexCatalog.build d threshold = .ok catalog ↔ ∃ keys built,
      resolveKeys TableIndex.primaryName d.keySchema = .ok keys ∧
      secondaryIndexes keys d.itemCount threshold [] d.secondaries = .ok built ∧
      catalog = ⟨d.name, primaryIndex keys d.itemCount :: built⟩ := by
  rw [IndexCatalog.build]
  simp only [bind, Except.bind, pure, Except.pure]
  cases hkeys : resolveKeys TableIndex.primaryName d.keySchema with
  | error e => simp only [reduceCtorEq, false_and, exists_false]
  | ok keys =>
      simp only [Except.ok.injEq, exists_and_left, exists_eq_left']
      cases hbuilt : secondaryIndexes keys d.itemCount threshold [] d.secondaries with
      | error e => simp only [reduceCtorEq, false_and, exists_false]
      | ok built => simp only [Except.ok.injEq, exists_eq_left', eq_comm]

/-- Where the secondary indexes of a catalog come from. The first index of the
    name that the store has is the one that the descriptor describes, since no
    name comes twice. -/
theorem secondaryIndexes_spec {table : IndexKeys} {tableSize : Nat} {threshold : Binary64}
    (ds : List SecondaryDescriptor) {seen : List String} {indexes : List IndexSchema}
    {built : List TableIndex}
    (hreport : ds.map (fun d => { d with itemCount := 0 }) = indexes.map (·.describe []))
    (h : secondaryIndexes table tableSize threshold seen ds = .ok built) :
    ∀ index ∈ built, index.name ≠ TableIndex.primaryName ∧ index.name ∉ seen ∧
      ∃ s count, indexes.find? (·.name == index.name) = some s ∧
        index = secondaryIndex table tableSize threshold
          { s.describe [] with itemCount := count } s.keys := by
  induction ds generalizing seen indexes built with
  | nil =>
      rw [secondaryIndexes, Except.ok.injEq] at h
      rw [← h]
      exact fun index hindex => absurd hindex List.not_mem_nil
  | cons d rest ih =>
      cases indexes with
      | nil => exact absurd hreport (by simp only [List.map_cons, List.map_nil, reduceCtorEq,
          not_false_eq_true])
      | cons s later =>
          rw [List.map_cons, List.map_cons, List.cons.injEq] at hreport
          have hd : d = { s.describe [] with itemCount := d.itemCount } := by
            rw [← hreport.1]
          rcases secondaryIndexes_cons_eq_ok h with ⟨hprimary, hnew, keys, others, hkeys, hrest, rfl⟩
          have hname : s.name = d.name := by
            rw [hd]
            rfl
          intro index hindex
          rcases List.mem_cons.mp hindex with rfl | hother
          · refine ⟨hprimary, hnew, s, d.itemCount, ?_, ?_⟩
            · exact List.find?_cons_of_pos (beq_iff_eq.mpr hname)
            · rw [hd] at hkeys
              rw [← hd, Except.ok.inj (hkeys.symm.trans (resolveKeys_schema _ s.keys))]
          · -- The names of the others are new after this one, so looking one up passes it by.
            rcases ih hreport.2 hrest index hother with ⟨hnot, hfresh, t, count, hfind, hindex⟩
            rw [List.mem_cons, not_or] at hfresh
            refine ⟨hnot, hfresh.2, t, count, ?_, hindex⟩
            rw [List.find?_cons_of_neg, hfind]
            rw [beq_iff_eq, hname]
            exact fun h => hfresh.1 h.symm

-- The primary index serves the table itself. It has a sort key only where the table has
-- it as a key.
theorem primaryIndex_serves (schema : TableSchema) (size : Nat) :
    (primaryIndex schema.keys size).Serves schema ⟨schema.keys, schema.keys, .all⟩ := by
  refine ⟨rfl, rfl, rfl, rfl, fun sort hsort hnot => ?_, fun table request htable hindex _ => ?_⟩
  · refine absurd ?_ hnot
    rw [IndexKeys.attrs, hsort]
    exact List.mem_cons_of_mem _ List.mem_cons_self
  · have hnone : request.index = none := hindex
    rw [Table.view, hnone, htable]

-- A request for an index of the schema leads to the view of the index, unless it is to
-- be read consistently where it cannot.
theorem view_of_findIndex {schema : TableSchema} {table : Table} (htable : table.schema = schema)
    {s : IndexSchema} (hfind : schema.findIndex? s.name = some s) {request : QueryRequest}
    (hindex : request.index = some s.name)
    (hconsistent : request.consistent = true → s.distribution ≠ .global) :
    table.view request = .ok (s.view schema.keys) := by
  have hserved : ¬ (request.consistent && s.distribution == .global) = true := by
    rw [Bool.and_eq_true, beq_iff_eq]
    exact fun h => hconsistent h.1 h.2
  rw [Table.view, hindex, htable]
  simp only [hfind]
  rw [if_neg hserved, IndexSchema.view]

-- A secondary index serves the view of the index that has its name.
theorem secondaryIndex_serves {schema : TableSchema} {threshold : Binary64}
    (hthreshold : (Binary64.ofNat 1).below threshold = true) (tableSize count : Nat)
    {s : IndexSchema} (hname : s.name ≠ TableIndex.primaryName)
    (hfind : schema.findIndex? s.name = some s) :
    (secondaryIndex schema.keys tableSize threshold { s.describe [] with itemCount := count }
      s.keys).Serves schema (s.view schema.keys) := by
  refine ⟨rfl, rfl, rfl, rfl, fun sort hsort hnot => ?_,
    fun table request htable hindex hconsistent => ?_⟩
  · have hkeys : s.keys.sort = some sort := hsort
    have hcontains : schema.keys.attrs.contains sort = false := by
      rw [Bool.eq_false_iff]
      exact fun h => hnot (List.contains_iff_mem.mp h)
    have hzero : Binary64.zero.below threshold = true :=
      Binary64.below_trans (by decide) hthreshold
    rw [secondaryIndex, isSparseIndex, hkeys]
    simp only [hcontains, hzero, hthreshold, Bool.not_false, Bool.true_or, Bool.and_true]
  · have hsome : request.index = some s.name := by
      rw [hindex, TableIndex.isPrimary]
      exact if_neg (fun h => hname (beq_iff_eq.mp h))
    exact view_of_findIndex htable hfind hsome fun h => bne_iff_ne.mp (hconsistent h)

/-- What a catalog makes of an index of the schema, if the table held the given items
    when it was described. -/
def TableSchema.catalogued (schema : TableSchema) (items : List Item) (threshold : Binary64)
    (s : IndexSchema) : TableIndex :=
  secondaryIndex schema.keys items.length threshold (s.describe items) s.keys

-- The secondary indexes of a report, if a catalog can be built from it: they are those
-- of the schema, and no two of them have one name, nor one of them a name from before.
theorem secondaryIndexes_describe {table : IndexKeys} {tableSize : Nat} {threshold : Binary64}
    {items : List Item} (indexes : List IndexSchema) {seen : List String}
    {built : List TableIndex}
    (h : secondaryIndexes table tableSize threshold seen (indexes.map (·.describe items)) =
      .ok built) :
    built = indexes.map (fun s =>
        secondaryIndex table tableSize threshold (s.describe items) s.keys) ∧
      (indexes.map (·.name)).Nodup ∧
      ∀ s ∈ indexes, s.name ≠ TableIndex.primaryName ∧ s.name ∉ seen := by
  induction indexes generalizing seen built with
  | nil =>
      rw [List.map_nil, secondaryIndexes, Except.ok.injEq] at h
      exact ⟨h.symm, List.nodup_nil, fun s hs => absurd hs List.not_mem_nil⟩
  | cons s rest ih =>
      rw [List.map_cons] at h
      rcases secondaryIndexes_cons_eq_ok h with ⟨hprimary, hnew, keys, others, hkeys, hrest, rfl⟩
      rcases ih hrest with ⟨rfl, hnodup, hfresh⟩
      have hresolved : keys = s.keys :=
        Except.ok.inj (hkeys.symm.trans (resolveKeys_schema s.name s.keys))
      refine ⟨by rw [hresolved, List.map_cons], ?_, ?_⟩
      · rw [List.map_cons, List.nodup_cons]
        refine ⟨fun hmem => ?_, hnodup⟩
        rcases List.mem_map.mp hmem with ⟨t, ht, hname⟩
        exact (hfresh t ht).2 (hname ▸ List.mem_cons_self)
      · intro t ht
        rcases List.mem_cons.mp ht with rfl | hrest
        · exact ⟨hprimary, hnew⟩
        · exact ⟨(hfresh t hrest).1, fun hmem => (hfresh t hrest).2 (List.mem_cons_of_mem _ hmem)⟩

/-- The catalog of a report, if one can be built from it: the table and after it the
    indexes of its schema, whose names are different and none the table's own. -/
theorem build_describe {schema : TableSchema} {items : List Item} {threshold : Binary64}
    {catalog : IndexCatalog}
    (h : IndexCatalog.build (schema.describe items) threshold = .ok catalog) :
    catalog.indexes = primaryIndex schema.keys items.length ::
        schema.indexes.map (schema.catalogued items threshold) ∧
      (schema.indexes.map (·.name)).Nodup ∧
      ∀ s ∈ schema.indexes, s.name ≠ TableIndex.primaryName := by
  rcases build_eq_ok_iff.mp h with ⟨keys, built, hkeys, hbuilt, rfl⟩
  rw [TableSchema.describe, resolveKeys_schema, Except.ok.injEq] at hkeys
  subst hkeys
  rcases secondaryIndexes_describe schema.indexes hbuilt with ⟨rfl, hnodup, hnames⟩
  exact ⟨rfl, hnodup, fun s hs => (hnames s hs).1⟩

-- Where names are different what has a name is found by it.
theorem find?_of_nodup {α : Type} (f : α → String) {l : List α} (hnodup : (l.map f).Nodup)
    {a : α} (ha : a ∈ l) : l.find? (f · == f a) = some a := by
  induction l with
  | nil => exact absurd ha List.not_mem_nil
  | cons head rest ih =>
      rw [List.map_cons, List.nodup_cons] at hnodup
      rcases List.mem_cons.mp ha with rfl | hrest
      · exact List.find?_cons_of_pos (beq_self_eq_true _)
      · rw [List.find?_cons_of_neg, ih hnodup.2 hrest]
        rw [beq_iff_eq]
        exact fun heq => hnodup.1 (heq ▸ List.mem_map_of_mem hrest)

theorem findIndex?_of_mem {schema : TableSchema} (hnodup : (schema.indexes.map (·.name)).Nodup)
    {s : IndexSchema} (hs : s ∈ schema.indexes) : schema.findIndex? s.name = some s :=
  find?_of_nodup IndexSchema.name hnodup hs

/-- Every index of a catalog is one that the store has, whatever counts the catalog
    was built from. -/
theorem build_serves {schema : TableSchema} {d : TableDescriptor} {threshold : Binary64}
    {catalog : IndexCatalog} (hreports : d.Reports schema)
    (hthreshold : (Binary64.ofNat 1).below threshold = true)
    (h : IndexCatalog.build d threshold = .ok catalog) :
    ∀ index ∈ catalog.indexes, ∃ view ∈ schema.views, index.Serves schema view := by
  rcases build_eq_ok_iff.mp h with ⟨keys, built, hkeys, hbuilt, rfl⟩
  rw [hreports.keySchema_eq, resolveKeys_schema, Except.ok.injEq] at hkeys
  subst hkeys
  intro index hindex
  rcases List.mem_cons.mp hindex with rfl | hsecondary
  · exact ⟨_, List.mem_cons_self, primaryIndex_serves schema d.itemCount⟩
  · rcases secondaryIndexes_spec d.secondaries hreports.secondaries_eq hbuilt index hsecondary
      with ⟨hprimary, _, s, count, hfind, rfl⟩
    refine ⟨s.view schema.keys, List.mem_cons_of_mem _ (List.mem_map_of_mem
      (List.mem_of_find?_eq_some hfind)), ?_⟩
    exact secondaryIndex_serves hthreshold d.itemCount count hprimary hfind

end WideColumn
