import Mathlib.Data.List.Forall2
import WideColumn.Proofs.Binary64.Quotients
import WideColumn.Proofs.Catalog.Defects

/-!
# Properties of Catalogs

What a catalog says of a table, in terms of the descriptor it was built from.

The indexes of a catalog are the primary index and one for each secondary index that was
described, in the order of the descriptor. What they say of themselves is stated here as a
reader of the catalog would want to rely on it: whose keys they have, what they carry, and
whether they can lack items.

How sparse an index may be is up to the threshold. There are three cases, and they overlap
in no threshold: above one, at zero or below, and all others. A threshold that is no number
is among the others, and as nothing is below it, no index is sparse under it.

The quotients of counts are where an empty table and an empty index would be divided by.
Both are caught by their count, which is a zero just if its double is.

## Main definitions

* `TableIndex.MayLackItems`: An index that items may be missing from.
* `SparseUnder`: How sparseness follows from a threshold.
* `TableIndex.IsPrimaryOf`, `TableIndex.IsSecondaryOf`: What indexes say of a table.
* `IndexCatalog.IsCatalogOf`: What a catalog says of a table.

## Theorems

* `zero_below_iff`: The thresholds above zero.
* `isSparseIndex_sparseUnder`: How sparseness follows from a threshold.
* `secondaryIndex_isSecondaryOf`: What one secondary index says.
* `secondaryIndexes_forall₂`: What all of them say.
* `IndexCatalog.build_isCatalogOf`: What a catalog says.
-/

namespace WideColumn

/-- The attributes that a projection names. -/
def Projection.named : Projection → List String
  | .all => []
  | .keysOnly => []
  | .including attrs => attrs

/-- Items may be missing from the index: it has a sort key, and that is none of the keys of
    the table. -/
def TableIndex.MayLackItems (index primary : TableIndex) : Prop :=
  ∃ sort, index.keys.sort = some sort ∧ sort ≠ primary.keys.partition ∧
    primary.keys.sort ≠ some sort

/-- What a threshold says of an index that holds a part of the table's items. -/
structure SparseUnder (threshold part : Binary64) (sparse : Bool) : Prop where
  above : (Binary64.ofNat 1).below threshold = true → sparse = true
  never : threshold.below .zero = true ∨ threshold.equal .zero = true → sparse = false
  between : (Binary64.ofNat 1).below threshold = false → threshold.below .zero = false →
    threshold.equal .zero = false → (sparse = true ↔ part.below threshold = true)

/-- What the primary index of a catalog says of the table. -/
structure TableIndex.IsPrimaryOf (index : TableIndex) (d : TableDescriptor) : Prop where
  name_eq : index.name = TableIndex.primaryName
  keys_perm : d.keySchema.Perm index.keys.schema
  distribution_eq : index.distribution = none
  size_eq : index.size = d.itemCount
  consistent : index.consistentReadable = true
  whole : index.includesAll = true
  attributeSet_eq : index.attributeSet = none
  notSparse : index.isSparse = false

/-- What a secondary index of a catalog says of the table, if it comes from the given
    descriptor. -/
structure TableIndex.IsSecondaryOf (index primary : TableIndex) (d : TableDescriptor)
    (threshold : Binary64) (s : SecondaryDescriptor) : Prop where
  name_eq : index.name = s.name
  keys_perm : s.keySchema.Perm index.keys.schema
  distribution_eq : index.distribution = some s.distribution
  size_eq : index.size = s.itemCount
  consistent_iff : index.consistentReadable = true ↔ s.distribution ≠ .global
  whole_iff : index.includesAll = true ↔ s.projection = .all
  attributeSet_eq_none_iff : index.attributeSet = none ↔ index.includesAll = true
  carried : ∀ attrs, index.attributeSet = some attrs → attrs.Pairwise (· < ·) ∧
    ∀ attr, attr ∈ attrs ↔
      attr ∈ index.keys.attrs ∨ attr ∈ primary.keys.attrs ∨ attr ∈ s.projection.named
  mayLackItems : index.isSparse = true → index.MayLackItems primary
  sparseUnder : index.MayLackItems primary →
    SparseUnder threshold index.sparsity index.isSparse
  sparsity_eq : d.itemCount = 0 ∧ index.sparsity = .zero ∨
    index.sparsity.IsQuotient s.itemCount d.itemCount
  maximal_iff : index.multiplier = .maximal ↔ index.size = 0
  multiplier_eq : index.multiplier = .maximal ∨ ∃ factor, index.multiplier = .finite factor ∧
    factor.IsQuotient d.itemCount s.itemCount

/-- What a catalog says of the table. -/
structure IndexCatalog.IsCatalogOf (catalog : IndexCatalog) (d : TableDescriptor)
    (threshold : Binary64) : Prop where
  tableName_eq : catalog.tableName = d.name
  indexes_eq : ∃ primary secondaries, catalog.indexes = primary :: secondaries ∧
    primary.IsPrimaryOf d ∧
    List.Forall₂ (fun s index => index.IsSecondaryOf primary d threshold s)
      d.secondaries secondaries
  distinct : (catalog.indexes.map (·.name)).Nodup
  found : ∀ index ∈ catalog.indexes, catalog.get? index.name = some index

/-- The thresholds above zero are the numbers that are not below it and not equal to it. -/
theorem Binary64.zero_below_iff {x : Binary64} :
    zero.below x = true ↔ x.isNaN = false ∧ x.below zero = false ∧ x.equal zero = false := by
  have hnumber : zero.isNaN = false := by decide
  have hrank : zero.rank = 0 := by decide
  rw [below, below, equal, compare?, compare?, hnumber, hrank, Bool.false_or, Bool.or_false]
  cases x.isNaN with
  | true => simp only [if_true, beq_iff_eq, reduceCtorEq, false_and, Bool.true_eq_false]
  | false =>
      simp only [Bool.false_eq_true, if_false, beq_iff_eq, Option.some.injEq, true_and,
        beq_eq_false_iff_ne, ne_eq, Std.compare_eq_lt, Std.compare_eq_iff_eq]
      omega

/-- How sparseness follows from a threshold, for an index that may lack items. -/
theorem isSparseIndex_sparseUnder {table keys : IndexKeys} {part threshold : Binary64}
    {sort : String} (hsort : keys.sort = some sort) (hnot : sort ∉ table.attrs) :
    SparseUnder threshold part (isSparseIndex table keys part threshold) := by
  have hcontains : table.attrs.contains sort = false := by
    rw [Bool.eq_false_iff]
    exact fun h => hnot (List.contains_iff_mem.mp h)
  have hsparse : isSparseIndex table keys part threshold = true ↔
      Binary64.zero.below threshold = true ∧
        ((Binary64.ofNat 1).below threshold = true ∨ part.below threshold = true) := by
    rw [isSparseIndex, hsort]
    simp only [hcontains, Bool.not_false, Bool.true_and, Bool.and_eq_true, Bool.or_eq_true]
  constructor
  · intro habove
    exact hsparse.mpr ⟨Binary64.below_trans (by decide) habove, Or.inl habove⟩
  · intro hzero
    rw [Bool.eq_false_iff, Ne, hsparse, Binary64.zero_below_iff]
    rintro ⟨⟨_, hbelow, hequal⟩, _⟩
    rw [hbelow, hequal] at hzero
    exact hzero.elim Bool.false_ne_true Bool.false_ne_true
  · intro habove hbelow hequal
    rw [hsparse, habove, Binary64.zero_below_iff, hbelow, hequal]
    constructor
    · rintro ⟨_, hpart⟩
      exact hpart.resolve_left Bool.false_ne_true
    · -- Nothing is below a threshold that is no number.
      intro hpart
      have hnumber := (Binary64.below_iff.mp hpart).1
      rw [Bool.or_eq_false_iff] at hnumber
      exact ⟨⟨hnumber.2, rfl, rfl⟩, Or.inr hpart⟩

theorem mayLackItems_of_isSparseIndex {table keys : IndexKeys} {part threshold : Binary64}
    (h : isSparseIndex table keys part threshold = true) :
    ∃ sort, keys.sort = some sort ∧ sort ∉ table.attrs := by
  rw [isSparseIndex] at h
  cases hsort : keys.sort with
  | none =>
      rw [hsort] at h
      exact absurd h Bool.false_ne_true
  | some sort =>
      rw [hsort] at h
      simp only [Bool.and_eq_true, Bool.not_eq_true'] at h
      refine ⟨sort, rfl, fun hmem => ?_⟩
      rw [List.contains_iff_mem.mpr hmem] at h
      exact absurd h.1.1 (by decide)

theorem IndexKeys.not_mem_attrs_iff {keys : IndexKeys} {attr : String} :
    attr ∉ keys.attrs ↔ attr ≠ keys.partition ∧ keys.sort ≠ some attr := by
  rw [attrs, List.mem_cons, not_or, Option.mem_toList]

theorem primaryIndex_isPrimaryOf {d : TableDescriptor} {keys : IndexKeys}
    (h : d.keySchema.Perm keys.schema) : (primaryIndex keys d.itemCount).IsPrimaryOf d :=
  ⟨rfl, h, rfl, rfl, rfl, rfl, rfl, rfl⟩

-- The attributes of an index that does not carry items whole.
theorem projectedAttributes_spec (table keys : IndexKeys) (projection : Projection) :
    (projectedAttributes table keys projection = none ↔ projection = .all) ∧
    ∀ attrs, projectedAttributes table keys projection = some attrs →
      attrs.Pairwise (· < ·) ∧ ∀ attr, attr ∈ attrs ↔
        attr ∈ keys.attrs ∨ attr ∈ table.attrs ∨ attr ∈ projection.named := by
  cases projection with
  | all => exact ⟨iff_of_true rfl rfl, nofun⟩
  | keysOnly =>
      refine ⟨iff_of_false nofun nofun, ?_⟩
      rintro attrs ⟨⟩
      refine ⟨sortedNames_pairwise _, fun attr => ?_⟩
      rw [mem_sortedNames, List.mem_append, Projection.named, iff_false_intro List.not_mem_nil,
        or_false]
  | including others =>
      refine ⟨iff_of_false nofun nofun, ?_⟩
      rintro attrs ⟨⟩
      refine ⟨sortedNames_pairwise _, fun attr => ?_⟩
      rw [mem_sortedNames, List.mem_append, List.mem_append, or_assoc, Projection.named]

-- No part of an empty table is a quotient.
theorem sparsityOf_eq (tableSize count : Nat) :
    tableSize = 0 ∧ sparsityOf tableSize count = .zero ∨
      (sparsityOf tableSize count).IsQuotient count tableSize := by
  rw [sparsityOf]
  by_cases hzero : tableSize = 0
  · rw [if_pos hzero]
    exact Or.inl ⟨hzero, rfl⟩
  · rw [if_neg hzero]
    exact Or.inr (Binary64.isQuotient_div count hzero)

theorem multiplierOf_eq (tableSize count : Nat) :
    (multiplierOf tableSize count = .maximal ↔ count = 0) ∧
    (multiplierOf tableSize count = .maximal ∨ ∃ factor,
      multiplierOf tableSize count = .finite factor ∧ factor.IsQuotient tableSize count) := by
  rw [multiplierOf]
  by_cases hzero : count = 0
  · rw [if_pos hzero]
    exact ⟨iff_of_true rfl hzero, Or.inl rfl⟩
  · rw [if_neg hzero]
    exact ⟨iff_of_false nofun hzero,
      Or.inr ⟨_, rfl, Binary64.isQuotient_div tableSize hzero⟩⟩

/-- What one secondary index says of the table. -/
theorem secondaryIndex_isSecondaryOf (table : IndexKeys) (d : TableDescriptor)
    (threshold : Binary64) {s : SecondaryDescriptor} {keys : IndexKeys}
    (hkeys : s.keySchema.Perm keys.schema) :
    (secondaryIndex table d.itemCount threshold s keys).IsSecondaryOf
      (primaryIndex table d.itemCount) d threshold s where
  name_eq := rfl
  keys_perm := hkeys
  distribution_eq := rfl
  size_eq := rfl
  consistent_iff := bne_iff_ne
  whole_iff := beq_iff_eq
  attributeSet_eq_none_iff :=
    (projectedAttributes_spec table keys s.projection).1.trans beq_iff_eq.symm
  carried := (projectedAttributes_spec table keys s.projection).2
  mayLackItems hsparse := by
    rcases mayLackItems_of_isSparseIndex hsparse with ⟨sort, hsort, hnot⟩
    exact ⟨sort, hsort, IndexKeys.not_mem_attrs_iff.mp hnot⟩
  sparseUnder hlacks := by
    rcases hlacks with ⟨sort, hsort, hnot⟩
    exact isSparseIndex_sparseUnder hsort (IndexKeys.not_mem_attrs_iff.mpr hnot)
  sparsity_eq := sparsityOf_eq d.itemCount s.itemCount
  maximal_iff := (multiplierOf_eq d.itemCount s.itemCount).1
  multiplier_eq := (multiplierOf_eq d.itemCount s.itemCount).2

/-- What all secondary indexes say of the table, one after the other. -/
theorem secondaryIndexes_forall₂ {table : IndexKeys} {d : TableDescriptor}
    {threshold : Binary64} (ds : List SecondaryDescriptor) {seen : List String}
    {built : List TableIndex}
    (h : secondaryIndexes table d.itemCount threshold seen ds = .ok built) :
    List.Forall₂ (fun s index => index.IsSecondaryOf (primaryIndex table d.itemCount) d
      threshold s) ds built := by
  induction ds generalizing seen built with
  | nil =>
      rw [secondaryIndexes, Except.ok.injEq] at h
      rw [← h]
      exact .nil
  | cons s rest ih =>
      rcases secondaryIndexes_cons_eq_ok h with ⟨_, _, keys, others, hkeys, hrest, rfl⟩
      exact .cons (secondaryIndex_isSecondaryOf table d threshold (resolveKeys_eq_ok_iff.mp hkeys))
        (ih hrest)

-- The names of the secondary indexes are those of the descriptors.
theorem names_of_forall₂ {primary : TableIndex} {d : TableDescriptor} {threshold : Binary64}
    {ds : List SecondaryDescriptor} {built : List TableIndex}
    (h : List.Forall₂ (fun s index => index.IsSecondaryOf primary d threshold s) ds built) :
    built.map (·.name) = ds.map (·.name) := by
  induction h with
  | nil => rfl
  | cons hindex _ ih => rw [List.map_cons, List.map_cons, hindex.name_eq, ih]

/-- What a catalog says of the table. Whatever the counts and the threshold, a catalog that
    is built from a descriptor is the primary index and one for each secondary index that
    is described. No two of them have one name, so each is found by its own. -/
theorem IndexCatalog.build_isCatalogOf {d : TableDescriptor} {threshold : Binary64}
    {catalog : IndexCatalog} (h : build d threshold = .ok catalog) :
    catalog.IsCatalogOf d threshold := by
  rcases build_eq_ok_iff.mp h with ⟨keys, built, hkeys, hbuilt, rfl⟩
  have hsecondaries := secondaryIndexes_forall₂ d.secondaries hbuilt
  have hformed := (exists_secondaryIndexes_iff _ _ _ _ _).mp ⟨built, hbuilt⟩
  have hnodup : ((primaryIndex keys d.itemCount :: built).map (·.name)).Nodup := by
    rw [List.map_cons, List.nodup_cons, names_of_forall₂ hsecondaries]
    refine ⟨fun hmem => ?_, hformed.distinct⟩
    rcases List.mem_map.mp hmem with ⟨s, hs, hname⟩
    exact hformed.unreserved s hs hname
  exact ⟨rfl, ⟨_, built, rfl, primaryIndex_isPrimaryOf (resolveKeys_eq_ok_iff.mp hkeys),
    hsecondaries⟩, hnodup, fun index hindex => find?_of_nodup TableIndex.name hnodup hindex⟩

/-- Films with an index by rating that lacks most of them, one by title, which no film can
    be missing from, and one by studio that is empty. -/
def indexedFilms : TableDescriptor where
  name := "films"
  keySchema := [⟨"title", .sort⟩, ⟨"director", .partition⟩]
  itemCount := 10
  secondaries :=
    [⟨"byRating", [⟨"director", .partition⟩, ⟨"rating", .sort⟩], .keysOnly, .colocated, 3⟩,
      ⟨"byTitle", [⟨"studio", .partition⟩, ⟨"title", .sort⟩], .all, .global, 3⟩,
      ⟨"byStudio", [⟨"studio", .partition⟩], .including ["year", "studio"], .global, 0⟩]

/-- The films are catalogued, and under a threshold of one half only their index by rating
    is sparse. -/
theorem build_isCatalogOf_indexedFilms : ∃ catalog,
    IndexCatalog.build indexedFilms ⟨0x3FE0000000000000⟩ = .ok catalog ∧
      catalog.IsCatalogOf indexedFilms ⟨0x3FE0000000000000⟩ ∧
      catalog.indexes.map (·.isSparse) = [false, true, false, false] ∧
      catalog.indexes.map (·.consistentReadable) = [true, true, false, false] ∧
      catalog.indexes.map (·.attributeSet) = [none, some ["director", "rating", "title"], none,
        some ["director", "studio", "title", "year"]] ∧
      catalog.indexes.map (·.multiplier == .maximal) = [false, false, false, true] := by
  have hbuild : IndexCatalog.build indexedFilms ⟨0x3FE0000000000000⟩ = .ok ⟨"films",
      primaryIndex ⟨"director", some "title"⟩ 10 ::
        List.zipWith (secondaryIndex ⟨"director", some "title"⟩ 10 ⟨0x3FE0000000000000⟩)
          indexedFilms.secondaries
          [⟨"director", some "rating"⟩, ⟨"studio", some "title"⟩, ⟨"studio", none⟩]⟩ := rfl
  exact ⟨_, hbuild, IndexCatalog.build_isCatalogOf hbuild, by decide +kernel, rfl,
    by decide +kernel, by decide +kernel⟩

end WideColumn
