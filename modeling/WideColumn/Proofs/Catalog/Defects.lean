import WideColumn.Proofs.Catalog.KeySchema
import WideColumn.Proofs.Planning.Catalog

/-!
# Defects of Descriptors

Which descriptors make a catalog, and what is reported of the others.

A descriptor is well formed if its key schemas make keys and the names of its indexes are
none of them reserved and no two of them equal. That does not depend on the order of the
indexes. The report on a descriptor that is not well formed does: it is on the first index
that has a defect, and on the first defect of that index, its name before its key schema.
A name that is used twice is a defect of the second index that has it, so the descriptors
up to the first defect are well formed among themselves.

The indexes are gone through with the names that came before. Both results are therefore
stated for indexes beside names, and each is an induction over the indexes with one lemma
for what the first of them adds.

## Main definitions

* `TableDescriptor.WellFormed`: A descriptor without defects.
* `TableDescriptor.FirstDefect`: The first defect of a descriptor.
* `SecondariesWellFormed`, `FirstSecondaryDefect`: The same of indexes beside names.

## Theorems

* `wellFormed_or_defect`: One index has no defect or a first one.
* `secondariesWellFormed_cons`, `firstSecondaryDefect_cons`: What the first index adds.
* `exists_secondaryIndexes_iff`, `secondaryIndexes_eq_error_iff`: What indexes are built.
* `build_eq_error_iff`: When building a catalog fails.
* `IndexCatalog.build_reports_first_defect`: Which descriptors make a catalog, and the
  error of all others.
-/

namespace WideColumn

/-- A descriptor of an index that has no defect beside indexes of the given names. -/
structure SecondaryDescriptor.WellFormed (s : SecondaryDescriptor) (names : List String) :
    Prop where
  unreserved : s.name ≠ TableIndex.primaryName
  fresh : s.name ∉ names
  keys : WellKeyed s.keySchema

/-- The first defect of an index beside indexes of the given names. -/
inductive SecondaryDescriptor.FirstDefect (s : SecondaryDescriptor) (names : List String) :
    CatalogError → Prop
  | reserved : s.name = TableIndex.primaryName → FirstDefect s names (.reservedIndexName s.name)
  | duplicate : s.name ≠ TableIndex.primaryName → s.name ∈ names →
      FirstDefect s names (.duplicateIndexName s.name)
  | keys {e : CatalogError} : s.name ≠ TableIndex.primaryName → s.name ∉ names →
      SchemaDefect s.name s.keySchema e → FirstDefect s names e

/-- Descriptors of indexes without a defect beside indexes of the given names. -/
structure SecondariesWellFormed (names : List String) (ds : List SecondaryDescriptor) :
    Prop where
  unreserved : ∀ s ∈ ds, s.name ≠ TableIndex.primaryName
  fresh : ∀ s ∈ ds, s.name ∉ names
  distinct : (ds.map (·.name)).Nodup
  keys : ∀ s ∈ ds, WellKeyed s.keySchema

/-- The first defect of indexes beside indexes of the given names: the indexes before it
    have none. -/
def FirstSecondaryDefect (names : List String) (ds : List SecondaryDescriptor)
    (e : CatalogError) : Prop :=
  ∃ before s after, ds = before ++ s :: after ∧ SecondariesWellFormed names before ∧
    s.FirstDefect (names ++ before.map (·.name)) e

/-- A descriptor without defects. -/
structure TableDescriptor.WellFormed (d : TableDescriptor) : Prop where
  keys : WellKeyed d.keySchema
  indexKeys : ∀ s ∈ d.secondaries, WellKeyed s.keySchema
  unreserved : ∀ s ∈ d.secondaries, s.name ≠ TableIndex.primaryName
  distinct : (d.secondaries.map (·.name)).Nodup

/-- The first defect of a descriptor, in the key schema of the table or behind it. -/
inductive TableDescriptor.FirstDefect (d : TableDescriptor) : CatalogError → Prop
  | keys {e : CatalogError} : SchemaDefect TableIndex.primaryName d.keySchema e → FirstDefect d e
  | secondary {e : CatalogError} : WellKeyed d.keySchema →
      FirstSecondaryDefect [] d.secondaries e → FirstDefect d e

section

variable {s : SecondaryDescriptor} {names : List String}

-- Only what the names are matters, and not in which order they came.
theorem SecondaryDescriptor.FirstDefect.congr {others : List String}
    (hnames : ∀ name, name ∈ names ↔ name ∈ others) {e : CatalogError}
    (h : s.FirstDefect names e) : s.FirstDefect others e := by
  cases h with
  | reserved hname => exact .reserved hname
  | duplicate hname hmem => exact .duplicate hname ((hnames _).mp hmem)
  | keys hname hfresh hdefect => exact .keys hname (fun h => hfresh ((hnames _).mpr h)) hdefect

/-- One index has no defect or a first one. -/
theorem wellFormed_or_defect (s : SecondaryDescriptor) (names : List String) :
    s.WellFormed names ∨ ∃ e, s.FirstDefect names e := by
  by_cases hname : s.name = TableIndex.primaryName
  · exact Or.inr ⟨_, .reserved hname⟩
  by_cases hmem : s.name ∈ names
  · exact Or.inr ⟨_, .duplicate hname hmem⟩
  rcases perm_or_defect s.name s.keySchema with hkeys | ⟨e, hdefect⟩
  · exact Or.inl ⟨hname, hmem, wellKeyed_iff.mpr hkeys⟩
  · exact Or.inr ⟨e, .keys hname hmem hdefect⟩

theorem SecondaryDescriptor.WellFormed.not_firstDefect (h : s.WellFormed names)
    {e : CatalogError} : ¬ s.FirstDefect names e := by
  intro hdefect
  cases hdefect with
  | reserved hname => exact h.unreserved hname
  | duplicate _ hmem => exact h.fresh hmem
  | keys _ _ hdefect =>
      rcases wellKeyed_iff.mp h.keys with ⟨keys, hperm⟩
      have hkeys := resolveKeys_of_perm s.name hperm
      rw [resolveKeys_of_defect hdefect] at hkeys
      exact absurd hkeys (by simp only [reduceCtorEq, not_false_eq_true])

/-- The first of some indexes is without a defect, and so are the others beside it. -/
theorem secondariesWellFormed_cons {rest : List SecondaryDescriptor} :
    SecondariesWellFormed names (s :: rest) ↔
      s.WellFormed names ∧ SecondariesWellFormed (s.name :: names) rest := by
  constructor
  · rintro ⟨hunreserved, hfresh, hdistinct, hkeys⟩
    rw [List.forall_mem_cons] at hunreserved hfresh hkeys
    rw [List.map_cons, List.nodup_cons] at hdistinct
    refine ⟨⟨hunreserved.1, hfresh.1, hkeys.1⟩, hunreserved.2, fun other hother => ?_,
      hdistinct.2, hkeys.2⟩
    rw [List.mem_cons, not_or]
    exact ⟨fun h => hdistinct.1 (h ▸ List.mem_map_of_mem hother), hfresh.2 other hother⟩
  · rintro ⟨hs, hunreserved, hfresh, hdistinct, hkeys⟩
    refine ⟨List.forall_mem_cons.mpr ⟨hs.unreserved, hunreserved⟩,
      List.forall_mem_cons.mpr ⟨hs.fresh, fun other hother hmem => ?_⟩, ?_,
      List.forall_mem_cons.mpr ⟨hs.keys, hkeys⟩⟩
    · exact hfresh other hother (List.mem_cons_of_mem s.name hmem)
    · rw [List.map_cons, List.nodup_cons]
      refine ⟨fun hmem => ?_, hdistinct⟩
      rcases List.mem_map.mp hmem with ⟨other, hother, hname⟩
      exact hfresh other hother (hname ▸ List.mem_cons_self)

/-- The first defect of some indexes is that of the first of them, or that of the others if
    the first has none. -/
theorem firstSecondaryDefect_cons {rest : List SecondaryDescriptor} {e : CatalogError} :
    FirstSecondaryDefect names (s :: rest) e ↔
      s.FirstDefect names e ∨
      s.WellFormed names ∧ FirstSecondaryDefect (s.name :: names) rest e := by
  have hnames : ∀ (before : List SecondaryDescriptor) (name : String),
      name ∈ names ++ (s :: before).map (·.name) ↔
        name ∈ (s.name :: names) ++ before.map (·.name) := fun before name => by
    simp only [List.map_cons, List.mem_append, List.mem_cons]
    exact or_left_comm.trans or_assoc.symm
  constructor
  · rintro ⟨before, t, after, hds, hbefore, hdefect⟩
    cases before with
    | nil =>
        rw [List.nil_append, List.cons.injEq] at hds
        rw [List.map_nil, List.append_nil, ← hds.1] at hdefect
        exact Or.inl hdefect
    | cons head before =>
        rw [List.cons_append, List.cons.injEq] at hds
        rcases hds with ⟨rfl, rfl⟩
        rcases secondariesWellFormed_cons.mp hbefore with ⟨hs, hothers⟩
        exact Or.inr ⟨hs, before, t, after, rfl, hothers, hdefect.congr (hnames before)⟩
  · rintro (hdefect | ⟨hs, before, t, after, rfl, hothers, hdefect⟩)
    · refine ⟨[], s, rest, rfl, ⟨nofun, nofun, List.nodup_nil, nofun⟩, ?_⟩
      rw [List.map_nil, List.append_nil]
      exact hdefect
    · exact ⟨s :: before, t, after, rfl, secondariesWellFormed_cons.mpr ⟨hs, hothers⟩,
        hdefect.congr fun name => (hnames before name).symm⟩

end

section

variable (table : IndexKeys) (tableSize : Nat) (threshold : Binary64)

-- The first defect of the first index is reported.
theorem secondaryIndexes_of_defect {s : SecondaryDescriptor} {seen : List String}
    (rest : List SecondaryDescriptor) {e : CatalogError} (h : s.FirstDefect seen e) :
    secondaryIndexes table tableSize threshold seen (s :: rest) = .error e := by
  rw [secondaryIndexes]
  cases h with
  | reserved hname =>
      rw [if_pos hname]
      rfl
  | duplicate hname hmem =>
      rw [if_neg hname, if_pos (List.contains_iff_mem.mpr hmem)]
      rfl
  | keys hname hfresh hdefect =>
      rw [if_neg hname, if_neg (fun h => hfresh (List.contains_iff_mem.mp h)),
        resolveKeys_of_defect hdefect]
      rfl

-- An index without a defect is built in front of the others, if they can be built.
theorem secondaryIndexes_of_wellFormed {s : SecondaryDescriptor} {seen : List String}
    (rest : List SecondaryDescriptor) (h : s.WellFormed seen) :
    ∃ index, secondaryIndexes table tableSize threshold seen (s :: rest) =
      (secondaryIndexes table tableSize threshold (s.name :: seen) rest).map (index :: ·) := by
  rcases wellKeyed_iff.mp h.keys with ⟨keys, hperm⟩
  refine ⟨secondaryIndex table tableSize threshold s keys, ?_⟩
  rw [secondaryIndexes, if_neg h.unreserved,
    if_neg (fun hmem => h.fresh (List.contains_iff_mem.mp hmem)),
    resolveKeys_of_perm s.name hperm]
  cases secondaryIndexes table tableSize threshold (s.name :: seen) rest <;> rfl

/-- Indexes are built just if they have no defect. -/
theorem exists_secondaryIndexes_iff (ds : List SecondaryDescriptor) (seen : List String) :
    (∃ built, secondaryIndexes table tableSize threshold seen ds = .ok built) ↔
      SecondariesWellFormed seen ds := by
  induction ds generalizing seen with
  | nil => exact iff_of_true ⟨[], rfl⟩ ⟨nofun, nofun, List.nodup_nil, nofun⟩
  | cons s rest ih =>
      rw [secondariesWellFormed_cons]
      rcases wellFormed_or_defect s seen with hs | ⟨e, hdefect⟩
      · rcases secondaryIndexes_of_wellFormed table tableSize threshold rest hs with
          ⟨index, hcons⟩
        rw [hcons, ← ih, and_iff_right hs]
        cases secondaryIndexes table tableSize threshold (s.name :: seen) rest <;>
          simp [Except.map]
      · rw [secondaryIndexes_of_defect table tableSize threshold rest hdefect]
        exact iff_of_false nofun fun h => h.1.not_firstDefect hdefect

/-- Indexes fail to be built with their first defect. -/
theorem secondaryIndexes_eq_error_iff (ds : List SecondaryDescriptor) (seen : List String)
    (e : CatalogError) :
    secondaryIndexes table tableSize threshold seen ds = .error e ↔
      FirstSecondaryDefect seen ds e := by
  induction ds generalizing seen with
  | nil =>
      refine iff_of_false nofun ?_
      rintro ⟨before, s, after, hds, _⟩
      exact absurd hds.symm (List.append_ne_nil_of_right_ne_nil before (List.cons_ne_nil s after))
  | cons s rest ih =>
      rw [firstSecondaryDefect_cons]
      rcases wellFormed_or_defect s seen with hs | ⟨other, hdefect⟩
      · rcases secondaryIndexes_of_wellFormed table tableSize threshold rest hs with
          ⟨index, hcons⟩
        rw [hcons, ← ih, or_iff_right hs.not_firstDefect, and_iff_right hs]
        cases secondaryIndexes table tableSize threshold (s.name :: seen) rest <;>
          simp [Except.map]
      · have hfails : ∀ {reported}, s.FirstDefect seen reported →
            secondaryIndexes table tableSize threshold seen (s :: rest) = .error reported :=
          secondaryIndexes_of_defect table tableSize threshold rest
        rw [hfails hdefect, Except.error.injEq]
        constructor
        · rintro rfl
          exact Or.inl hdefect
        · rintro (he | hs)
          · exact Except.error.inj ((hfails hdefect).symm.trans (hfails he))
          · exact absurd hdefect hs.1.not_firstDefect

end

-- A descriptor without defects has key schemas and indexes without any.
theorem TableDescriptor.wellFormed_iff (d : TableDescriptor) :
    d.WellFormed ↔ WellKeyed d.keySchema ∧ SecondariesWellFormed [] d.secondaries := by
  constructor
  · rintro ⟨hkeys, hindexKeys, hunreserved, hdistinct⟩
    exact ⟨hkeys, hunreserved, fun _ _ => List.not_mem_nil, hdistinct, hindexKeys⟩
  · rintro ⟨hkeys, hunreserved, _, hdistinct, hindexKeys⟩
    exact ⟨hkeys, hindexKeys, hunreserved, hdistinct⟩

/-- Building a catalog fails if the keys of the table are not resolved, or else if the
    indexes are not built. -/
theorem build_eq_error_iff {d : TableDescriptor} {threshold : Binary64} {e : CatalogError} :
    IndexCatalog.build d threshold = .error e ↔
      resolveKeys TableIndex.primaryName d.keySchema = .error e ∨
      ∃ keys, resolveKeys TableIndex.primaryName d.keySchema = .ok keys ∧
        secondaryIndexes keys d.itemCount threshold [] d.secondaries = .error e := by
  rw [IndexCatalog.build]
  cases resolveKeys TableIndex.primaryName d.keySchema with
  | error other => simp [bind, Except.bind]
  | ok keys =>
      cases hbuilt : secondaryIndexes keys d.itemCount threshold [] d.secondaries <;>
        simp [bind, Except.bind, pure, Except.pure, hbuilt]

/-- Which descriptors make a catalog, and what is reported of all others. Whatever the
    threshold, a descriptor makes a catalog just if it is well formed, and otherwise the
    error is its first defect. -/
theorem IndexCatalog.build_reports_first_defect (d : TableDescriptor) (threshold : Binary64) :
    ((∃ catalog, build d threshold = .ok catalog) ↔ d.WellFormed) ∧
    ∀ e, build d threshold = .error e ↔ d.FirstDefect e := by
  constructor
  · rw [d.wellFormed_iff, wellKeyed_iff]
    simp only [build_eq_ok_iff, resolveKeys_eq_ok_iff]
    constructor
    · rintro ⟨_, keys, built, hkeys, hbuilt, _⟩
      exact ⟨⟨keys, hkeys⟩, (exists_secondaryIndexes_iff _ _ _ _ _).mp ⟨built, hbuilt⟩⟩
    · rintro ⟨⟨keys, hkeys⟩, hsecondaries⟩
      rcases (exists_secondaryIndexes_iff keys d.itemCount threshold _ _).mpr hsecondaries with
        ⟨built, hbuilt⟩
      exact ⟨_, keys, built, hkeys, hbuilt, rfl⟩
  · intro e
    rw [build_eq_error_iff, resolveKeys_eq_error_iff]
    simp only [resolveKeys_eq_ok_iff, secondaryIndexes_eq_error_iff]
    constructor
    · rintro (hdefect | ⟨keys, hkeys, hdefect⟩)
      · exact .keys hdefect
      · exact .secondary (wellKeyed_iff.mpr ⟨keys, hkeys⟩) hdefect
    · rintro (hdefect | ⟨hkeys, hdefect⟩)
      · exact Or.inl hdefect
      · rcases wellKeyed_iff.mp hkeys with ⟨keys, hperm⟩
        exact Or.inr ⟨keys, hperm, hdefect⟩

end WideColumn
