import WideColumn.Proofs.Binary64.Rounding
import WideColumn.Proofs.Planning.Catalog
import WideColumn.Selection

/-!
# The Choice of an Index

The index that is chosen is the first of the best.

The search goes through a catalog once and holds on to the best index so far. It gives
that one up for an index with a strictly higher score only, so that of several with the
highest score the first stays. `FirstBest` says what it holds at any point, about the
indexes it has seen. One step keeps it (`step_leading`), so it is true of the whole catalog
at the end.

That needs scores that can be compared. Nothing compares with what is no number, so an
index with such a score would never be given up, and a better one behind it would be
missed. `score_number` rules it out for the catalogs of descriptors with counts of 64
bits: the sparsity of an index is a quotient by a count that is not zero, and the factors
for filters are finite and not zero.

There is one first of the best at most. So leaving out an index that was not chosen
changes nothing: the one that was chosen is still there, with the score it had, and the
first of the best of what is left.

## Main definitions

* `FirstBest`: The index is viable, as good as any, and better than those before it.
* `Leading`: What the search holds after some indexes.

## Theorems

* `step_leading`, `foldl_leading`: What the search holds is the first of the best.
* `choose_eq_ok_iff`: What is chosen, if the scores are numbers.
* `score_number`: The scores in a catalog are numbers.
* `FirstBest.unique`: There is one first of the best at most.
* `FirstBest.erase`: It stays so without another index.
* `build_erase`, `choose_erase`: Leaving out an index of a descriptor leaves it out of the
  catalog and keeps the choice.
* `choose_first_best`: What is chosen, and why nothing is.
-/

namespace WideColumn

namespace Binary64

theorem below_eq_false_iff {x y : Binary64} (hx : x.isNaN = false) (hy : y.isNaN = false) :
    x.below y = false ↔ y.rank ≤ x.rank := by
  rw [← Bool.not_eq_true, below_iff, hx, hy, Bool.or_false]
  simp only [true_and, Int.not_lt]

theorem below_asymm {x y : Binary64} (h : x.below y = true) : y.below x = false := by
  rw [← Bool.not_eq_true]
  intro hback
  have hlt := (below_iff.mp h).2
  have hgt := (below_iff.mp hback).2
  omega

theorem below_irrefl (x : Binary64) : x.below x = false := by
  cases h : x.below x with
  | false => rfl
  | true => exact h.symm.trans (below_asymm h)

end Binary64

/-- The index is the first of the best of a list for an expression: nothing stands against
    it, no viable index of the list has a higher score, and every viable one in front of it
    has a lower score. -/
structure FirstBest (e : Expression) (indexes : List TableIndex) (index : TableIndex) : Prop where
  viable : infractions index e = []
  best : ∀ other ∈ indexes, infractions other e = [] →
    (score index e).below (score other e) = false
  first : ∃ before after, indexes = before ++ index :: after ∧
    ∀ other ∈ before, infractions other e = [] → (score other e).below (score index e) = true

/-- What the search holds after it has seen some indexes. -/
def Leading (e : Expression) (seen : List TableIndex) : Option TableIndex → Prop
  | none => ∀ index ∈ seen, infractions index e ≠ []
  | some index => FirstBest e seen index

section

variable {e : Expression} {index next : TableIndex} {seen indexes : List TableIndex}

theorem FirstBest.mem (h : FirstBest e indexes index) : index ∈ indexes := by
  rcases h.first with ⟨before, after, hsplit, _⟩
  rw [hsplit]
  exact List.mem_append_right before List.mem_cons_self

-- An index that is not viable, or not better, is passed by.
theorem FirstBest.pass (h : FirstBest e seen index)
    (hnext : infractions next e = [] → (score index e).below (score next e) = false) :
    FirstBest e (seen ++ [next]) index := by
  rcases h.first with ⟨before, after, hsplit, hfirst⟩
  refine ⟨h.viable, fun other hother hviable => ?_, before, after ++ [next], ?_, hfirst⟩
  · rcases List.mem_append.mp hother with hseen | hlast
    · exact h.best other hseen hviable
    · rw [List.mem_singleton] at hlast
      rw [hlast] at hviable ⊢
      exact hnext hviable
  · rw [hsplit, List.append_assoc, List.cons_append]

-- An index that is better than all before it is held from then on.
theorem FirstBest.take (hviable : infractions next e = [])
    (hbetter : ∀ other ∈ seen, infractions other e = [] →
      (score other e).below (score next e) = true) : FirstBest e (seen ++ [next]) next := by
  refine ⟨hviable, fun other hother hsame => ?_, seen, [], rfl, hbetter⟩
  rcases List.mem_append.mp hother with hseen | hlast
  · exact Binary64.below_asymm (hbetter other hseen hsame)
  · rw [List.mem_singleton] at hlast
    rw [hlast]
    exact Binary64.below_irrefl _

/-- One step of the search keeps what it holds the first of the best. -/
theorem step_leading {best : Option TableIndex} (h : Leading e seen best)
    (hnumbers : ∀ other ∈ seen, (score other e).isNaN = false) :
    Leading e (seen ++ [next])
      (if (infractions next e).isEmpty then betterOf e best next else best) := by
  by_cases hviable : (infractions next e).isEmpty = true
  · rw [if_pos hviable]
    rw [List.isEmpty_iff] at hviable
    cases best with
    | none => exact FirstBest.take hviable fun other hother hsame => absurd hsame (h other hother)
    | some held =>
        rw [betterOf]
        by_cases hscore : (score held e).below (score next e) = true
        · rw [if_pos hscore]
          refine FirstBest.take hviable fun other hother hsame => ?_
          -- The index that was held is as good as any before it.
          have hle := h.best other hother hsame
          have hlt := Binary64.below_iff.mp hscore
          have hnext := (Bool.or_eq_false_iff.mp hlt.1).2
          have hnumber := hnumbers other hother
          rw [Binary64.below_eq_false_iff (hnumbers held h.mem) hnumber] at hle
          rw [Binary64.below_iff, hnumber, hnext]
          exact ⟨rfl, Int.lt_of_le_of_lt hle hlt.2⟩
        · rw [if_neg hscore]
          rw [Bool.not_eq_true] at hscore
          exact FirstBest.pass h fun _ => hscore
  · rw [if_neg hviable]
    rw [List.isEmpty_iff] at hviable
    cases best with
    | none =>
        intro other hother
        rcases List.mem_append.mp hother with hseen | hlast
        · exact h other hseen
        · rw [List.mem_singleton] at hlast
          rw [hlast]
          exact hviable
    | some held => exact FirstBest.pass h fun hsame => absurd hsame hviable

/-- And so does the rest of the search. -/
theorem foldl_leading (rest : List TableIndex) {best : Option TableIndex}
    (h : Leading e seen best)
    (hnumbers : ∀ other ∈ seen ++ rest, (score other e).isNaN = false) :
    Leading e (seen ++ rest) (rest.foldl
      (fun best next => if (infractions next e).isEmpty then betterOf e best next else best)
      best) := by
  induction rest generalizing seen best with
  | nil =>
      rw [List.append_nil]
      exact h
  | cons next rest ih =>
      have hnext : seen ++ next :: rest = (seen ++ [next]) ++ rest := by
        rw [List.append_assoc, List.singleton_append]
      rw [hnext] at hnumbers ⊢
      rw [List.foldl_cons]
      refine ih (step_leading h fun other hother => ?_) hnumbers
      exact hnumbers other (List.mem_append_left _ (List.mem_append_left _ hother))

/-- What is chosen is the first of the best, if the scores are numbers, and nothing is
    chosen only where something stands against every index. -/
theorem IndexCatalog.choose_leading {catalog : IndexCatalog}
    (hnumbers : ∀ other ∈ catalog.indexes, (score other e).isNaN = false) :
    (∃ index, catalog.choose e = .ok index ∧ FirstBest e catalog.indexes index) ∨
    (catalog.choose e = .error ⟨catalog.indexes.map fun index =>
        ⟨index.name, infractions index e⟩⟩ ∧
      ∀ index ∈ catalog.indexes, infractions index e ≠ []) := by
  have hstart : Leading e [] none := fun _ h => absurd h List.not_mem_nil
  have hleading := foldl_leading catalog.indexes hstart hnumbers
  rw [List.nil_append, ← List.foldl_filter] at hleading
  rw [choose, viable]
  cases hbest : (catalog.indexes.filter fun index => (infractions index e).isEmpty).foldl
      (betterOf e) none with
  | none => rw [hbest] at hleading; exact Or.inr ⟨rfl, hleading⟩
  | some index => rw [hbest] at hleading; exact Or.inl ⟨index, rfl, hleading⟩

-- Of two places in a list one is in front of the other, or they are the same.
theorem eq_or_mem_of_append_eq {α : Type} {before others after behind : List α} {x y : α}
    (h : before ++ x :: after = others ++ y :: behind) : x = y ∨ x ∈ others ∨ y ∈ before := by
  rcases List.append_eq_append_iff.mp h with ⟨between, hothers, hrest⟩ | ⟨between, hbefore, hrest⟩
  · cases between with
    | nil => exact Or.inl (List.cons.inj hrest).1
    | cons z between =>
        rw [(List.cons.inj hrest).1, hothers]
        exact Or.inr (Or.inl (List.mem_append_right before List.mem_cons_self))
  · cases between with
    | nil => exact Or.inl (List.cons.inj hrest).1.symm
    | cons z between =>
        rw [(List.cons.inj hrest).1, hbefore]
        exact Or.inr (Or.inr (List.mem_append_right others List.mem_cons_self))

/-- There is one first of the best at most. -/
theorem FirstBest.unique {other : TableIndex} (h : FirstBest e indexes index)
    (hother : FirstBest e indexes other) : index = other := by
  rcases h.first with ⟨before, after, hsplit, hfirst⟩
  rcases hother.first with ⟨others, behind, hagain, hbehind⟩
  rcases eq_or_mem_of_append_eq (hsplit.symm.trans hagain) with heq | hmem | hmem
  · exact heq
  -- One that is in front of the other is worse than it.
  · have hlower := hbehind index hmem h.viable
    rw [h.best other hother.mem hother.viable] at hlower
    exact absurd hlower Bool.false_ne_true
  · have hlower := hfirst other hmem hother.viable
    rw [hother.best index h.mem h.viable] at hlower
    exact absurd hlower Bool.false_ne_true

/-- If the scores are numbers, an index is chosen just if it is the first of the best. -/
theorem IndexCatalog.choose_eq_ok_iff {catalog : IndexCatalog}
    (hnumbers : ∀ other ∈ catalog.indexes, (score other e).isNaN = false) :
    catalog.choose e = .ok index ↔ FirstBest e catalog.indexes index := by
  rcases choose_leading hnumbers with ⟨chosen, hchosen, hbest⟩ | ⟨hnone, hagainst⟩
  · rw [hchosen, Except.ok.injEq]
    constructor
    · intro heq
      exact heq ▸ hbest
    · exact hbest.unique
  · rw [hnone]
    exact iff_of_false nofun fun h => hagainst index h.mem h.viable

/-- The first of the best stays so without another index. -/
theorem FirstBest.erase {front back : List TableIndex} {other : TableIndex}
    (h : FirstBest e (front ++ other :: back) index) (hne : index ≠ other) :
    FirstBest e (front ++ back) index := by
  have hkept : front ++ back ⊆ front ++ other :: back :=
    ((List.sublist_cons_self other back).append_left front).subset
  refine ⟨h.viable, fun i hi => h.best i (hkept hi), ?_⟩
  rcases h.first with ⟨before, after, hsplit, hfirst⟩
  -- The other index stands in front of this one or behind it.
  rcases List.append_eq_append_iff.mp hsplit with ⟨between, hbefore, hrest⟩ | ⟨between, hfront, hrest⟩
  · cases between with
    | nil => exact absurd (List.cons.inj hrest).1.symm hne
    | cons i between =>
        have hback : back = between ++ index :: after := (List.cons.inj hrest).2
        refine ⟨front ++ between, after, ?_, fun i hi => hfirst i ?_⟩
        · rw [hback, List.append_assoc]
        · rw [hbefore]
          rcases List.mem_append.mp hi with hmem | hmem
          · exact List.mem_append_left _ hmem
          · exact List.mem_append_right front (List.mem_cons_of_mem _ hmem)
  · cases between with
    | nil => exact absurd (List.cons.inj hrest).1 hne
    | cons i between =>
        refine ⟨before, between ++ back, ?_, hfirst⟩
        rw [hfront, (List.cons.inj hrest).1, List.append_assoc, List.cons_append]

end

/-- The factors for filters are finite and not zero. -/
theorem SortKeyMultiplier.factor_finite (m : SortKeyMultiplier) :
    m.factor.isFinite = true ∧ m.factor.magnitude ≠ 0 := by
  cases m <;> decide

-- The score of an index is a number if its multiplier is.
theorem score_number_of_multiplier {index : TableIndex} (e : Expression)
    (h : ∀ factor, index.multiplier = .finite factor → factor.isNaN = false) :
    (score index e).isNaN = false := by
  unfold score
  cases hmultiplier : index.multiplier with
  | maximal => rfl
  | finite factor =>
      rcases (SortKeyMultiplier.ofIndex index e).factor_finite with ⟨hfinite, hzero⟩
      exact Binary64.isNaN_mul_finite (h factor hmultiplier) hfinite hzero

-- Every secondary index of a catalog comes from a descriptor.
theorem mem_secondaryIndexes {table : IndexKeys} {tableSize : Nat} {threshold : Binary64}
    (ds : List SecondaryDescriptor) {seen : List String} {built : List TableIndex}
    (h : secondaryIndexes table tableSize threshold seen ds = .ok built) :
    ∀ index ∈ built, ∃ d ∈ ds, ∃ keys,
      index = secondaryIndex table tableSize threshold d keys := by
  induction ds generalizing seen built with
  | nil =>
      rw [secondaryIndexes, Except.ok.injEq] at h
      rw [← h]
      exact fun index hindex => absurd hindex List.not_mem_nil
  | cons d rest ih =>
      rcases secondaryIndexes_cons_eq_ok h with ⟨_, _, keys, others, _, hrest, rfl⟩
      intro index hindex
      rcases List.mem_cons.mp hindex with rfl | hother
      · exact ⟨d, List.mem_cons_self, keys, rfl⟩
      · rcases ih hrest index hother with ⟨s, hs, hindex⟩
        exact ⟨s, List.mem_cons_of_mem d hs, hindex⟩

/-- The scores in a catalog are numbers, if the counts that it was built from have 64
    bits. -/
theorem score_number {d : TableDescriptor} {threshold : Binary64} {catalog : IndexCatalog}
    (hcounts : ∀ s ∈ d.secondaries, s.itemCount < 0x10000000000000000)
    (hbuild : IndexCatalog.build d threshold = .ok catalog) (e : Expression) :
    ∀ index ∈ catalog.indexes, (score index e).isNaN = false := by
  rcases build_eq_ok_iff.mp hbuild with ⟨keys, built, _, hbuilt, rfl⟩
  intro index hindex
  refine score_number_of_multiplier e fun factor hfactor => ?_
  rcases List.mem_cons.mp hindex with rfl | hsecondary
  · rw [← SparsityMultiplier.finite.inj hfactor]
    rfl
  · rcases mem_secondaryIndexes d.secondaries hbuilt index hsecondary with ⟨s, hs, own, rfl⟩
    have hmultiplier : multiplierOf d.itemCount s.itemCount = .finite factor := hfactor
    unfold multiplierOf at hmultiplier
    by_cases hzero : s.itemCount = 0
    · rw [if_pos hzero] at hmultiplier
      exact absurd hmultiplier nofun
    · rw [if_neg hzero] at hmultiplier
      rw [← SparsityMultiplier.finite.inj hmultiplier]
      exact Binary64.isNaN_div_count (Binary64.isNaN_ofRatio false _ 1) hzero (hcounts s hs)

section

variable {table : IndexKeys} {tableSize : Nat} {threshold : Binary64}

-- What can be built after some names can be built after fewer of them.
theorem secondaryIndexes_of_subset (ds : List SecondaryDescriptor) {seen fewer : List String}
    {built : List TableIndex} (hfewer : fewer ⊆ seen)
    (h : secondaryIndexes table tableSize threshold seen ds = .ok built) :
    secondaryIndexes table tableSize threshold fewer ds = .ok built := by
  induction ds generalizing seen fewer built with
  | nil => exact h
  | cons d rest ih =>
      rcases secondaryIndexes_cons_eq_ok h with ⟨hreserved, hnew, keys, others, hkeys, hrest, rfl⟩
      exact secondaryIndexes_cons hreserved (fun hmem => hnew (hfewer hmem)) hkeys
        (ih (List.cons_subset_cons d.name hfewer) hrest)

-- Leaving out a descriptor leaves out its index, and no other.
theorem secondaryIndexes_erase (before : List SecondaryDescriptor) {s : SecondaryDescriptor}
    {after : List SecondaryDescriptor} {seen : List String} {built : List TableIndex}
    (h : secondaryIndexes table tableSize threshold seen (before ++ s :: after) = .ok built) :
    ∃ front index back, built = front ++ index :: back ∧ index.name = s.name ∧
      secondaryIndexes table tableSize threshold seen (before ++ after) = .ok (front ++ back) := by
  induction before generalizing seen built with
  | nil =>
      rcases secondaryIndexes_cons_eq_ok h with ⟨_, _, keys, others, _, hrest, rfl⟩
      exact ⟨[], _, others, rfl, rfl,
        secondaryIndexes_of_subset after (List.subset_cons_self s.name seen) hrest⟩
  | cons d before ih =>
      rcases secondaryIndexes_cons_eq_ok h with ⟨hreserved, hnew, keys, others, hkeys, hrest, rfl⟩
      rcases ih hrest with ⟨front, index, back, rfl, hname, hless⟩
      exact ⟨_ :: front, index, back, rfl, hname, secondaryIndexes_cons hreserved hnew hkeys hless⟩

end

/-- Leaving out an index of a descriptor leaves it out of the catalog, and nothing else
    changes. -/
theorem IndexCatalog.build_erase {d : TableDescriptor} {threshold : Binary64}
    {catalog : IndexCatalog} (hbuild : IndexCatalog.build d threshold = .ok catalog)
    {before after : List SecondaryDescriptor} {s : SecondaryDescriptor}
    (hsplit : d.secondaries = before ++ s :: after) :
    ∃ front index back, catalog.indexes = front ++ index :: back ∧ index.name = s.name ∧
      IndexCatalog.build { d with secondaries := before ++ after } threshold =
        .ok ⟨catalog.tableName, front ++ back⟩ := by
  rcases build_eq_ok_iff.mp hbuild with ⟨keys, built, hkeys, hbuilt, rfl⟩
  rw [hsplit] at hbuilt
  rcases secondaryIndexes_erase before hbuilt with ⟨front, index, back, rfl, hname, hless⟩
  exact ⟨_ :: front, index, back, rfl, hname,
    build_eq_ok_iff.mpr ⟨keys, front ++ back, hkeys, hless, rfl⟩⟩

/-- Leaving out an index of a descriptor keeps the choice, if another one was chosen. -/
theorem IndexCatalog.choose_erase {d : TableDescriptor} {threshold : Binary64}
    {catalog : IndexCatalog} (hbuild : IndexCatalog.build d threshold = .ok catalog)
    {e : Expression} (hnumbers : ∀ other ∈ catalog.indexes, (score other e).isNaN = false)
    {index : TableIndex} (hindex : catalog.choose e = .ok index)
    {before after : List SecondaryDescriptor} {s : SecondaryDescriptor}
    (hsplit : d.secondaries = before ++ s :: after) (hname : s.name ≠ index.name) :
    ∃ fewer, IndexCatalog.build { d with secondaries := before ++ after } threshold = .ok fewer ∧
      fewer.choose e = .ok index := by
  rcases build_erase hbuild hsplit with ⟨front, other, back, hindexes, hother, hless⟩
  have hbest := (choose_eq_ok_iff hnumbers).mp hindex
  rw [hindexes] at hbest hnumbers
  have hne : index ≠ other := fun heq => hname (hother.symm.trans (congrArg _ heq.symm))
  have hkept : front ++ back ⊆ front ++ other :: back :=
    ((List.sublist_cons_self other back).append_left front).subset
  have hstill : ∀ i ∈ front ++ back, (score i e).isNaN = false := fun i hi =>
    hnumbers i (hkept hi)
  exact ⟨_, hless, (choose_eq_ok_iff hstill).mpr (hbest.erase hne)⟩

/-- An index of a catalog is chosen just if nothing stands against some index, and then it
    is the first of the best. Leaving any secondary index but the chosen one out of the
    descriptor leaves the choice as it is. If no index is chosen, then every index is
    reported with what stands against it, in the order of the catalog. -/
theorem IndexCatalog.choose_first_best {d : TableDescriptor} {threshold : Binary64}
    {catalog : IndexCatalog}
    (hcounts : ∀ s ∈ d.secondaries, s.itemCount < 0x10000000000000000)
    (hbuild : IndexCatalog.build d threshold = .ok catalog) (e : Expression) :
    ((∃ index, catalog.choose e = .ok index) ↔
      ∃ index ∈ catalog.indexes, infractions index e = []) ∧
    (∀ index, catalog.choose e = .ok index → FirstBest e catalog.indexes index ∧
      ∀ before s after, d.secondaries = before ++ s :: after → s.name ≠ index.name →
        ∃ fewer, IndexCatalog.build { d with secondaries := before ++ after } threshold =
          .ok fewer ∧ fewer.choose e = .ok index) ∧
    ∀ rejected, catalog.choose e = .error rejected →
      rejected.reports = catalog.indexes.map (fun index => ⟨index.name, infractions index e⟩) ∧
      ∀ report ∈ rejected.reports, report.infractions ≠ [] := by
  have hnumbers := score_number hcounts hbuild e
  refine ⟨?_, fun index hindex => ?_, fun rejected hrejected => ?_⟩
  · rcases choose_leading hnumbers with ⟨chosen, hchosen, hbest⟩ | ⟨hnone, hagainst⟩
    · exact iff_of_true ⟨chosen, hchosen⟩ ⟨chosen, hbest.mem, hbest.viable⟩
    · rw [hnone]
      exact iff_of_false nofun fun ⟨index, hindex, hviable⟩ => hagainst index hindex hviable
  · exact ⟨(choose_eq_ok_iff hnumbers).mp hindex, fun _ _ _ hsplit hname =>
      choose_erase hbuild hnumbers hindex hsplit hname⟩
  · rcases choose_leading hnumbers with ⟨chosen, hchosen, _⟩ | ⟨hnone, hagainst⟩
    · exact absurd (hchosen.symm.trans hrejected) nofun
    · rw [← Except.error.inj (hnone.symm.trans hrejected)]
      refine ⟨rfl, fun report hreport => ?_⟩
      rcases List.mem_map.mp hreport with ⟨index, hindex, rfl⟩
      exact hagainst index hindex

/-- An index of films by director and some attribute. -/
def filmsBy (name sort : String) (projection : Projection) (count : Nat) : SecondaryDescriptor where
  name := name
  keySchema := (IndexKeys.mk "director" sort).schema
  projection := projection
  distribution := .colocated
  itemCount := count

/-- Films with two indexes by year that are alike, and an empty one by rating. -/
def tiedFilms : TableDescriptor where
  name := "films"
  keySchema := (IndexKeys.mk "director" "title").schema
  itemCount := 10
  secondaries := [filmsBy "byRating" "rating" .keysOnly 0, filmsBy "byYear" "year" .all 10,
    filmsBy "byYearAgain" "year" .all 10]

/-- What a catalog makes of an index of films. -/
def filmsIndex (d : SecondaryDescriptor) (sort : String) : TableIndex :=
  secondaryIndex ⟨"director", some "title"⟩ 10 .zero d ⟨"director", some sort⟩

/-- The films of a director and a year. -/
def filmsOfYear : Expression :=
  .ofCalls [.filter "director" (.equal (.string "a")), .filter "year" (.equal (.integer 1990))]

/-- Of the two indexes by year the first is chosen, and stays so without either of the
    others. -/
theorem choose_first_best_tiedFilms :
    (∀ s ∈ tiedFilms.secondaries, s.itemCount < 0x10000000000000000) ∧
    ∃ catalog index, IndexCatalog.build tiedFilms .zero = .ok catalog ∧
      catalog.choose filmsOfYear = .ok index ∧ index.name = "byYear" ∧
      FirstBest filmsOfYear catalog.indexes index ∧
      (∃ fewer, IndexCatalog.build { tiedFilms with secondaries :=
          [filmsBy "byRating" "rating" .keysOnly 0, filmsBy "byYear" "year" .all 10] } .zero =
        .ok fewer ∧ fewer.choose filmsOfYear = .ok index) ∧
      ∃ fewer, IndexCatalog.build { tiedFilms with secondaries :=
          [filmsBy "byYear" "year" .all 10, filmsBy "byYearAgain" "year" .all 10] } .zero =
        .ok fewer ∧ fewer.choose filmsOfYear = .ok index := by
  have hcounts : ∀ s ∈ tiedFilms.secondaries, s.itemCount < 0x10000000000000000 := by decide
  have hbuild : IndexCatalog.build tiedFilms .zero = .ok ⟨"films",
      [primaryIndex ⟨"director", some "title"⟩ 10,
        filmsIndex (filmsBy "byRating" "rating" .keysOnly 0) "rating",
        filmsIndex (filmsBy "byYear" "year" .all 10) "year",
        filmsIndex (filmsBy "byYearAgain" "year" .all 10) "year"]⟩ := rfl
  rcases IndexCatalog.choose_first_best hcounts hbuild filmsOfYear with ⟨_, hchosen, _⟩
  rcases hchosen (filmsIndex (filmsBy "byYear" "year" .all 10) "year") rfl with ⟨hbest, herase⟩
  refine ⟨hcounts, _, _, hbuild, rfl, rfl, hbest, ?_, ?_⟩
  · exact herase [filmsBy "byRating" "rating" .keysOnly 0, filmsBy "byYear" "year" .all 10]
      (filmsBy "byYearAgain" "year" .all 10) [] rfl (by decide)
  · exact herase [] (filmsBy "byRating" "rating" .keysOnly 0) _ rfl (by decide)

end WideColumn
