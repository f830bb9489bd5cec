import WideColumn.Proofs.Catalog.Properties
import WideColumn.Proofs.Planning.Choice
import WideColumn.Proofs.Planning.Execution

/-!
# Raising the Threshold

A higher threshold of sparsity leaves fewer indexes to choose from, and changes nothing else.

The threshold is read in one place, where an index is found to be sparse or not. So the
catalogs of one descriptor under two thresholds are the same up to these marks, and an index
that is sparse under the lower one is sparse under the higher one as well. `Raised` says that
of one index. The rest follows the marks through the planner: they are looked at by the last
of the five demands on an index and by no score.

What is chosen is compared across two catalogs, so two first bests are. The indexes of the
catalogs stand in the same places and score the same. An index that is the best of the larger
choice and still in the smaller one is the best there, and it is the first best for the same
reason (`FirstBest.raised`). Where the best of the larger choice is gone, all that can be
said is that what is chosen instead scores no higher.

Thresholds are compared as doubles are, so one that is no number is neither above nor below
any other, itself included.

## Main definitions

* `Binary64.AtMost`: The comparison of doubles that are numbers.
* `TableIndex.Raised`: An index under a lower and under a higher threshold.

## Theorems

* `isSparseIndex_raised`: What is sparse stays sparse.
* `Raised.infractions_prefix`, `Raised.score_eq`: What the planner sees of the change.
* `build_eq_error_iff_of_threshold`: Errors do not depend on the threshold.
* `build_raised`: Two catalogs of one descriptor.
* `FirstBest.raised`: The best of the larger choice in the smaller one.
* `IndexCatalog.raised_narrows_choice`: What raising the threshold does to a choice.
-/

namespace WideColumn

namespace Binary64

/-- The first number is below the second or equal to it. Neither is true of what is no
    number. -/
def AtMost (x y : Binary64) : Prop :=
  x.below y = true ∨ x.equal y = true

theorem atMost_iff {x y : Binary64} :
    x.AtMost y ↔ x.isNaN = false ∧ y.isNaN = false ∧ x.rank ≤ y.rank := by
  rw [AtMost, below_iff, equal_iff, Bool.or_eq_false_iff]
  constructor
  · rintro (⟨⟨hx, hy⟩, hlt⟩ | ⟨hx, hy, heq⟩)
    · exact ⟨hx, hy, Int.le_of_lt hlt⟩
    · exact ⟨hx, hy, Int.le_of_eq heq⟩
  · rintro ⟨hx, hy, hle⟩
    rcases Int.lt_or_eq_of_le hle with hlt | heq
    · exact Or.inl ⟨⟨hx, hy⟩, hlt⟩
    · exact Or.inr ⟨hx, hy, heq⟩

theorem below_of_below_of_atMost {x y z : Binary64} (hxy : x.below y = true)
    (hyz : y.AtMost z) : x.below z = true := by
  rw [below_iff, Bool.or_eq_false_iff] at hxy ⊢
  rw [atMost_iff] at hyz
  exact ⟨⟨hxy.1.1, hyz.2.1⟩, Int.lt_of_lt_of_le hxy.2 hyz.2.2⟩

end Binary64

/-- The second index is the first one under a higher threshold. It may be marked as sparse
    where the first is not, and nothing else has changed. -/
structure TableIndex.Raised (index raised : TableIndex) : Prop where
  same : raised = { index with isSparse := raised.isSparse }
  sparse : index.isSparse = true → raised.isSparse = true

/-- What is sparse stays sparse. -/
theorem isSparseIndex_raised {table keys : IndexKeys} {part low high : Binary64}
    (hle : low.AtMost high) (h : isSparseIndex table keys part low = true) :
    isSparseIndex table keys part high = true := by
  unfold isSparseIndex at h ⊢
  cases hsort : keys.sort with
  | none =>
      rw [hsort] at h
      exact absurd h Bool.false_ne_true
  | some sort =>
      rw [hsort] at h
      simp only [Bool.and_eq_true, Bool.or_eq_true] at h ⊢
      rcases h with ⟨⟨hforeign, hzero⟩, hfew⟩
      refine ⟨⟨hforeign, Binary64.below_of_below_of_atMost hzero hle⟩, ?_⟩
      rcases hfew with hone | hpart
      · exact Or.inl (Binary64.below_of_below_of_atMost hone hle)
      · exact Or.inr (Binary64.below_of_below_of_atMost hpart hle)

theorem secondaryIndex_raised (table : IndexKeys) (tableSize : Nat) {low high : Binary64}
    (hle : low.AtMost high) (d : SecondaryDescriptor) (keys : IndexKeys) :
    (secondaryIndex table tableSize low d keys).Raised
      (secondaryIndex table tableSize high d keys) :=
  ⟨rfl, isSparseIndex_raised hle⟩

-- The primary index is not sparse under any threshold.
theorem TableIndex.Raised.refl (index : TableIndex) : index.Raised index := ⟨rfl, id⟩

section

variable {e : Expression} {index raised : TableIndex}

-- The marks are looked at by the last of the five demands only.
theorem infractions_eq_append (index : TableIndex) (e : Expression) (sparse : Bool) :
    infractions { index with isSparse := sparse } e =
      (partitionInfractions index e ++ consistencyInfractions index e ++
        orderInfractions index e ++ projectionInfractions index e) ++
      sparsityInfractions { index with isSparse := sparse } e := rfl

namespace TableIndex.Raised

theorem name_eq (h : index.Raised raised) : raised.name = index.name := by
  rw [h.same]

/-- The score does not depend on the threshold. -/
theorem score_eq (h : index.Raised raised) (e : Expression) :
    score raised e = score index e := by
  have hmark : score { index with isSparse := raised.isSparse } e = score index e := rfl
  exact (congrArg (score · e) h.same).trans hmark

/-- What stands against an index still stands against it, in front of what is new. -/
theorem infractions_prefix (h : index.Raised raised) (e : Expression) :
    infractions index e <+: infractions raised e := by
  by_cases hsparse : index.isSparse = true
  · -- Both are sparse, so they are the same index.
    have hsame : raised = index := by
      rw [h.same, h.sparse hsparse, ← hsparse]
    exact hsame ▸ List.prefix_rfl
  · have hnone : sparsityInfractions index e = [] :=
      sparsityInfractions_eq_nil_iff.mpr fun _ _ hmarked => absurd hmarked hsparse
    rw [h.same, infractions_eq_append, infractions, hnone, List.append_nil]
    exact List.prefix_append _ _

theorem viable (h : index.Raised raised) (hraised : infractions raised e = []) :
    infractions index e = [] :=
  List.prefix_nil.mp (hraised ▸ h.infractions_prefix e)

end TableIndex.Raised

end

theorem evaluate_eq_ok_iff {index : TableIndex} {e : Expression} {points : Binary64} :
    evaluate index e = .ok points ↔ infractions index e = [] ∧ score index e = points := by
  unfold evaluate
  cases infractions index e with
  | nil => simp only [Except.ok.injEq, true_and]
  | cons reason rest => simp only [reduceCtorEq, List.cons_ne_nil, false_and]

/-- Errors do not depend on the threshold. -/
theorem build_eq_error_iff_of_threshold {d : TableDescriptor} {low high : Binary64}
    {err : CatalogError} :
    IndexCatalog.build d low = .error err ↔ IndexCatalog.build d high = .error err := by
  simp only [build_eq_error_iff, secondaryIndexes_eq_error_iff]

-- The secondary indexes that are built under two thresholds, one after the other.
theorem secondaryIndexes_raised {table : IndexKeys} {tableSize : Nat} {low high : Binary64}
    (hle : low.AtMost high) (ds : List SecondaryDescriptor) {seen : List String}
    {built raised : List TableIndex}
    (hlow : secondaryIndexes table tableSize low seen ds = .ok built)
    (hhigh : secondaryIndexes table tableSize high seen ds = .ok raised) :
    List.Forall₂ TableIndex.Raised built raised := by
  induction ds generalizing seen built raised with
  | nil =>
      rw [secondaryIndexes, Except.ok.injEq] at hlow hhigh
      rw [← hlow, ← hhigh]
      exact .nil
  | cons d rest ih =>
      rcases secondaryIndexes_cons_eq_ok hlow with ⟨_, _, keys, others, hkeys, hrest, rfl⟩
      rcases secondaryIndexes_cons_eq_ok hhigh with ⟨_, _, own, more, hown, hmore, rfl⟩
      rw [Except.ok.inj (hown.symm.trans hkeys)]
      exact .cons (secondaryIndex_raised table tableSize hle d keys) (ih hrest hmore)

/-- Two catalogs of one descriptor have the same indexes but for the marks of sparse ones. -/
theorem build_raised {d : TableDescriptor} {low high : Binary64} (hle : low.AtMost high)
    {catalog raised : IndexCatalog} (hlow : IndexCatalog.build d low = .ok catalog)
    (hhigh : IndexCatalog.build d high = .ok raised) :
    raised.tableName = catalog.tableName ∧
      List.Forall₂ TableIndex.Raised catalog.indexes raised.indexes := by
  rcases build_eq_ok_iff.mp hlow with ⟨keys, built, hkeys, hbuilt, rfl⟩
  rcases build_eq_ok_iff.mp hhigh with ⟨own, others, hown, hothers, rfl⟩
  rw [Except.ok.inj (hown.symm.trans hkeys)] at hothers ⊢
  exact ⟨rfl, .cons (.refl _) (secondaryIndexes_raised hle d.secondaries hbuilt hothers)⟩

-- No two indexes of a catalog have one name.
theorem build_names_nodup {d : TableDescriptor} {threshold : Binary64} {catalog : IndexCatalog}
    (h : IndexCatalog.build d threshold = .ok catalog) :
    (catalog.indexes.map (·.name)).Nodup := by
  rcases build_eq_ok_iff.mp h with ⟨keys, built, _, hbuilt, rfl⟩
  have hformed := (exists_secondaryIndexes_iff _ _ _ _ _).mp ⟨built, hbuilt⟩
  rw [List.map_cons, List.nodup_cons,
    names_of_forall₂ (secondaryIndexes_forall₂ d.secondaries hbuilt)]
  refine ⟨fun hmem => ?_, hformed.distinct⟩
  rcases List.mem_map.mp hmem with ⟨s, hs, hname⟩
  exact hformed.unreserved s hs hname

section

variable {α β : Type} {R : α → β → Prop}

-- What stands beside a list that is split at an element is split there too.
theorem forall₂_of_append_cons {before after : List α} {a : α} {l : List β}
    (h : List.Forall₂ R (before ++ a :: after) l) :
    ∃ front b back, l = front ++ b :: back ∧ List.Forall₂ R before front ∧ R a b := by
  induction before generalizing l with
  | nil =>
      cases h with
      | cons hab _ => exact ⟨[], _, _, rfl, .nil, hab⟩
  | cons head before ih =>
      cases h with
      | cons hhead hrest =>
          rcases ih hrest with ⟨front, b, back, rfl, hfront, hab⟩
          exact ⟨_ :: front, b, back, rfl, .cons hhead hfront, hab⟩

theorem exists_mem_of_forall₂ {l : List α} {m : List β} (h : List.Forall₂ R l m) {b : β}
    (hb : b ∈ m) : ∃ a ∈ l, R a b := by
  induction h with
  | nil => exact absurd hb List.not_mem_nil
  | cons hab _ ih =>
      rcases List.mem_cons.mp hb with rfl | hrest
      · exact ⟨_, List.mem_cons_self, hab⟩
      · rcases ih hrest with ⟨a, ha, hrel⟩
        exact ⟨a, List.mem_cons_of_mem _ ha, hrel⟩

end

/-- The first best of the larger choice is the first best of the smaller one, if it is there
    still. -/
theorem FirstBest.raised {e : Expression} {indexes others : List TableIndex} {index : TableIndex}
    (h : FirstBest e indexes index) (hall : List.Forall₂ TableIndex.Raised indexes others) :
    ∃ raised ∈ others, index.Raised raised ∧
      (infractions raised e = [] → FirstBest e others raised) := by
  rcases h.first with ⟨before, after, hsplit, hfirst⟩
  rw [hsplit] at hall
  rcases forall₂_of_append_cons hall with ⟨front, raised, back, rfl, hfront, hraised⟩
  rw [← hsplit] at hall
  refine ⟨raised, List.mem_append_right front List.mem_cons_self, hraised, fun hviable => ?_⟩
  refine ⟨hviable, fun other hother hsame => ?_, front, back, rfl, fun other hother hsame => ?_⟩
  · -- An index that is viable here is viable there, with the same score.
    rcases exists_mem_of_forall₂ hall hother with ⟨i, hi, hrel⟩
    rw [hraised.score_eq, hrel.score_eq]
    exact h.best i hi (hrel.viable hsame)
  · rcases exists_mem_of_forall₂ hfront hother with ⟨i, hi, hrel⟩
    rw [hraised.score_eq, hrel.score_eq]
    exact hfirst i hi (hrel.viable hsame)

/-- Raising the threshold only removes choices. Whatever the descriptor, it makes a catalog
    under both thresholds, or under neither and for the same reason. The indexes of the two
    catalogs are the same but for those that become sparse, and one that is viable under the
    higher threshold is viable under the lower one and scores the same. If an index is chosen
    under the higher threshold, then one that scores at least as high is chosen under the
    lower one. And the index that is chosen under the lower threshold is chosen under the
    higher one too if it is still viable. -/
theorem IndexCatalog.raised_narrows_choice {d : TableDescriptor}
    (hcounts : ∀ s ∈ d.secondaries, s.itemCount < 0x10000000000000000) {low high : Binary64}
    (hle : low.AtMost high) (e : Expression) :
    (∃ err, build d low = .error err ∧ build d high = .error err) ∨
    ∃ catalog raised, build d low = .ok catalog ∧ build d high = .ok raised ∧
      raised.tableName = catalog.tableName ∧
      List.Forall₂ (fun index other => index.Raised other ∧
        ∀ points, evaluate other e = .ok points → evaluate index e = .ok points)
        catalog.indexes raised.indexes ∧
      (∀ other, raised.choose e = .ok other → ∃ index, catalog.choose e = .ok index ∧
        (score other e).AtMost (score index e)) ∧
      ∀ index, catalog.choose e = .ok index → ∃ other, raised.get? index.name = some other ∧
        index.Raised other ∧ (infractions other e = [] → raised.choose e = .ok other) := by
  cases hlow : build d low with
  | error err => exact Or.inl ⟨err, rfl, build_eq_error_iff_of_threshold.mp hlow⟩
  | ok catalog =>
      cases hhigh : build d high with
      | error err =>
          rw [build_eq_error_iff_of_threshold.mp hhigh] at hlow
          exact absurd hlow nofun
      | ok raised =>
          rcases build_raised hle hlow hhigh with ⟨hname, hall⟩
          have hnumbers := score_number hcounts hlow e
          have hothers := score_number hcounts hhigh e
          refine Or.inr ⟨catalog, raised, rfl, rfl, hname, hall.imp fun index other hrel => ?_,
            fun other hother => ?_, fun index hindex => ?_⟩
          · refine ⟨hrel, fun points hpoints => ?_⟩
            rw [evaluate_eq_ok_iff] at hpoints ⊢
            exact ⟨hrel.viable hpoints.1, (hrel.score_eq e).symm.trans hpoints.2⟩
          · rcases choose_eq_ok hother with ⟨hmem, hviable⟩
            rcases exists_mem_of_forall₂ hall hmem with ⟨i, hi, hrel⟩
            -- Something is viable under the lower threshold, so something is chosen there.
            rcases choose_leading hnumbers with ⟨index, hindex, hbest⟩ | ⟨_, hagainst⟩
            · refine ⟨index, hindex, ?_⟩
              have hnot := hbest.best i hi (hrel.viable hviable)
              rw [Binary64.below_eq_false_iff (hnumbers index hbest.mem) (hnumbers i hi)] at hnot
              rw [hrel.score_eq, Binary64.atMost_iff]
              exact ⟨hnumbers i hi, hnumbers index hbest.mem, hnot⟩
            · exact absurd (hrel.viable hviable) (hagainst i hi)
          · have hbest := (choose_eq_ok_iff hnumbers).mp hindex
            rcases hbest.raised hall with ⟨other, hother, hrel, hstill⟩
            refine ⟨other, ?_, hrel, fun hviable => ?_⟩
            · rw [← hrel.name_eq]
              exact find?_of_nodup TableIndex.name (build_names_nodup hhigh) hother
            · exact (choose_eq_ok_iff hothers).mpr (hstill hviable)

/-- Ten films with an index by rating, which three of them have, and one by year. -/
def ratedFilms : TableDescriptor where
  name := "films"
  keySchema := (IndexKeys.mk "director" "title").schema
  itemCount := 10
  secondaries := [filmsBy "byRating" "rating" .all 3, filmsBy "byYear" "year" .all 10]

/-- The catalog of the films, with marks for the two indexes. -/
def ratedFilmsCatalog (byRating byYear : Bool) : IndexCatalog where
  tableName := "films"
  indexes := [primaryIndex ⟨"director", some "title"⟩ 10,
    { filmsIndex (filmsBy "byRating" "rating" .all 3) "rating" with isSparse := byRating },
    { filmsIndex (filmsBy "byYear" "year" .all 10) "year" with isSparse := byYear }]

/-- The films of a director, whatever their ratings are. -/
def anyRating : Expression := .ofCalls [.filter "director" (.equal (.string "a"))]

/-- Under a threshold of one quarter the index by rating is chosen. Under one half it is
    sparse, and the table is chosen instead, which scores lower. -/
theorem raised_narrows_choice_ratedFilms :
    (∀ s ∈ ratedFilms.secondaries, s.itemCount < 0x10000000000000000) ∧
    (Binary64.mk 0x3FD0000000000000).AtMost ⟨0x3FE0000000000000⟩ ∧
    IndexCatalog.build ratedFilms ⟨0x3FD0000000000000⟩ = .ok (ratedFilmsCatalog false false) ∧
    IndexCatalog.build ratedFilms ⟨0x3FE0000000000000⟩ = .ok (ratedFilmsCatalog true false) ∧
    (ratedFilmsCatalog true false).choose anyRating =
      .ok (primaryIndex ⟨"director", some "title"⟩ 10) ∧
    ∃ index, (ratedFilmsCatalog false false).choose anyRating = .ok index ∧
      index.name = "byRating" ∧
      (score (primaryIndex ⟨"director", some "title"⟩ 10) anyRating).AtMost
        (score index anyRating) := by
  have hcounts : ∀ s ∈ ratedFilms.secondaries, s.itemCount < 0x10000000000000000 := by decide
  have hle : (Binary64.mk 0x3FD0000000000000).AtMost ⟨0x3FE0000000000000⟩ := Or.inl (by decide)
  have hlow : IndexCatalog.build ratedFilms ⟨0x3FD0000000000000⟩ =
      .ok (ratedFilmsCatalog false false) := rfl
  have hhigh : IndexCatalog.build ratedFilms ⟨0x3FE0000000000000⟩ =
      .ok (ratedFilmsCatalog true false) := rfl
  have hchosen : (ratedFilmsCatalog true false).choose anyRating =
      .ok (primaryIndex ⟨"director", some "title"⟩ 10) := rfl
  rcases IndexCatalog.raised_narrows_choice hcounts hle anyRating with
    ⟨err, herr, _⟩ | ⟨catalog, raised, hcatalog, hraised, _, _, hdown, _⟩
  · exact absurd (hlow.symm.trans herr) nofun
  · rw [← Except.ok.inj (hlow.symm.trans hcatalog), ← Except.ok.inj (hhigh.symm.trans hraised)]
      at hdown
    rcases hdown _ hchosen with ⟨index, hindex, hscore⟩
    have hname : index.name = "byRating" := by
      have hbest : (ratedFilmsCatalog false false).choose anyRating = .ok { filmsIndex
          (filmsBy "byRating" "rating" .all 3) "rating" with isSparse := false } := rfl
      rw [← Except.ok.inj (hbest.symm.trans hindex)]
      rfl
    exact ⟨hcounts, hle, hlow, hhigh, hchosen, index, hindex, hname, hscore⟩

end WideColumn
