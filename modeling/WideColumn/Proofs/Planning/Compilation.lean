import WideColumn.Proofs.Condition.Mentions
import WideColumn.Proofs.Planning.Answers

/-!
# What a Request Asks

A request asks what the expression asked, whichever index it was made for.

Nothing here supposes that the index is viable, or that it comes from a catalog. Its keys
may be any, one attribute may be both of them, and the expression may filter neither. What
has to be shown is that the filters are divided without loss: those on the keys go to the
key condition, which the index answers, and every other one stands in front of the
predicates in the filter. An attribute has one filter at most, so looking up the filter on
a key leaves no second one behind.

The filter then goes through a conjunction that opens nested ones, and it may come out
empty. `filter_eq_none_iff` says when: there is no filter left but those on the keys, and
the predicates ask for nothing.

## Theorems

* `attributes_key_subset`: A key condition is about the keys of the index.
* `filter_eq_none_iff`: When a request has no filter.
* `exists_compile_iff`: When there is a request.
* `compile_asks_same`: A request asks what the expression asked.
-/

namespace WideColumn

namespace Expression

/-- A key condition mentions the keys of the index only. -/
theorem attributes_key_subset (e : Expression) (keys : IndexKeys) (value : Value) :
    (e.keyCondition keys value).toCondition.attributes ⊆ keys.attrs := by
  have hpartition : (Condition.comparison keys.partition .equal value).attributes ⊆ keys.attrs :=
    List.cons_subset.mpr ⟨List.mem_cons_self, List.nil_subset _⟩
  rw [keyCondition, KeyCondition.toCondition]
  cases hsort : keys.sort with
  | none => exact hpartition
  | some sort =>
      simp only [Option.bind_some]
      cases e.filterOn sort with
      | none => exact hpartition
      | some f =>
          have hmem : sort ∈ keys.attrs := by
            rw [IndexKeys.attrs, hsort]
            exact List.mem_cons_of_mem _ List.mem_cons_self
          simp only [Option.map_some, Condition.both, Condition.attributes,
            Condition.attributesOfAll, Filter.attributes_toCondition, List.append_nil]
          exact List.append_subset.mpr ⟨hpartition, List.cons_subset.mpr ⟨hmem, List.nil_subset _⟩⟩

/-- Nothing is left for the filter of a request just if every filter is on a key of the
    index and the predicates ask for nothing. -/
theorem filter_eq_none_iff (e : Expression) (keys : IndexKeys) :
    Condition.all? (residualConditions keys e) = none ↔
      (∀ p ∈ e.filters, p.1 ∈ keys.attrs) ∧ ∀ c ∈ e.predicates, c.Vacuous := by
  rw [Condition.all?_eq_none_iff, residualConditions, List.forall_mem_append]
  refine and_congr ?_ Iff.rfl
  simp only [List.mem_map, List.mem_filter, Bool.not_eq_true', List.contains_eq_mem,
    decide_eq_false_iff_not, forall_exists_index, and_imp]
  constructor
  · -- A filter on another attribute would be left, and it asks for something.
    intro h p hp
    refine Decidable.byContradiction fun hattr => ?_
    exact Filter.not_vacuous p.2 p.1 (h _ p hp hattr rfl)
  · intro h c p hp hattr _
    exact absurd (h p hp) hattr

end Expression

/-- There is a request for an index just if the expression filters its partition key by
    equality. -/
theorem exists_compile_iff {table : String} {index : TableIndex} {e : Expression} :
    (∃ request, compile table index e = .ok request) ↔
      ∃ value, e.filterOn index.keys.partition = some (.equal value) := by
  constructor
  · rintro ⟨request, h⟩
    rw [compile] at h
    cases hfilter : e.filterOn index.keys.partition with
    | none => rw [hfilter] at h; exact absurd h (by simp only [reduceCtorEq, not_false_eq_true])
    | some f =>
        cases f with
        | equal value => exact ⟨value, rfl⟩
        | _ => rw [hfilter] at h; exact absurd h (by simp only [reduceCtorEq, not_false_eq_true])
  · rintro ⟨value, hvalue⟩
    exact ⟨_, compile_eq_ok table hvalue⟩

/-- A request asks what the expression asked, whatever keys the index has. There is one
    just if the expression filters the partition key by equality. An item satisfies its key
    condition and its filter, where it has one, just if it satisfies every filter and every
    predicate of the expression. The key condition is about the keys of the index, and the
    filter is missing just if all filters are on these keys and all predicates are
    conjunctions of nothing. -/
theorem compile_asks_same (table : String) (index : TableIndex) (calls : List Expression.Call) :
    ((∃ request, compile table index (Expression.ofCalls calls) = .ok request) ↔
      ∃ value, (index.keys.partition, .equal value) ∈ (Expression.ofCalls calls).filters) ∧
    ∀ request, compile table index (Expression.ofCalls calls) = .ok request →
      (∀ item, (request.key.toCondition.holds item = true ∧
          ∀ c, request.filter = some c → c.holds item = true) ↔
        (∀ p ∈ (Expression.ofCalls calls).filters, (p.2.toCondition p.1).holds item = true) ∧
          ∀ c ∈ (Expression.ofCalls calls).predicates, c.holds item = true) ∧
      (∀ attr ∈ request.key.toCondition.attributes,
        attr = index.keys.partition ∨ index.keys.sort = some attr) ∧
      (request.filter = none ↔
        (∀ p ∈ (Expression.ofCalls calls).filters,
          p.1 = index.keys.partition ∨ index.keys.sort = some p.1) ∧
        ∀ c ∈ (Expression.ofCalls calls).predicates, c.Vacuous) := by
  have hnodup := Expression.ofCalls_nodup calls
  generalize Expression.ofCalls calls = e at hnodup
  have hkeys : ∀ attr, attr ∈ index.keys.attrs ↔
      attr = index.keys.partition ∨ index.keys.sort = some attr := fun attr => by
    rw [IndexKeys.attrs, List.mem_cons, Option.mem_toList]
  refine ⟨?_, fun request hrequest => ?_⟩
  · simp only [exists_compile_iff, Expression.filterOn_eq_some_iff hnodup]
  · rcases exists_compile_iff.mp ⟨request, hrequest⟩ with ⟨value, hvalue⟩
    rw [compile_eq_ok table hvalue, Except.ok.injEq] at hrequest
    rw [← hrequest]
    refine ⟨fun item => ?_, fun attr hattr => ?_, ?_⟩
    · have hfilter : (∀ c, Condition.all? (residualConditions index.keys e) = some c →
          c.holds item = true) ↔
          (Condition.all? (residualConditions index.keys e)).all (·.holds item) = true :=
        (Option.all_eq_true _ _).symm
      rw [hfilter, Expression.holds_key_iff hvalue, Expression.residual_holds_iff, ← and_assoc,
        Expression.filters_hold_iff hnodup index.keys item]
    · exact (hkeys attr).mp (Expression.attributes_key_subset e index.keys value hattr)
    · simp only [← hkeys]
      exact Expression.filter_eq_none_iff e index.keys

/-- An index with one attribute for both of its keys, which is partitioned on its own. -/
def byDirectorTwice : TableIndex :=
  secondaryIndex filmSchema.keys 4 Binary64.zero
    ⟨"byDirector", (IndexKeys.mk "director" "director").schema, .keysOnly, .global, 4⟩
    ⟨"director", some "director"⟩

/-- The films of a director, read consistently, with predicates that ask for nothing. -/
def filmsOfDirector : List Expression.Call :=
  [.filter "director" (.equal (.string "a")), .consistentRead true,
    .filterBy (.and [.and [], .and [.and []]]), .filterBy (.and [])]

/-- The index may not serve the films, but a request for them can be made for it, and that
    request has no filter. -/
theorem compile_asks_same_filmsOfDirector :
    infractions byDirectorTwice (Expression.ofCalls filmsOfDirector) ≠ [] ∧
    ∃ request, compile "films" byDirectorTwice (Expression.ofCalls filmsOfDirector) =
        .ok request ∧
      request.filter = none ∧
      request.key.toCondition.holds (film "a" "x" none) = true ∧
      ∀ attr ∈ request.key.toCondition.attributes, attr = "director" := by
  have hsame := compile_asks_same "films" byDirectorTwice filmsOfDirector
  rcases hsame.1.mpr ⟨.string "a", List.mem_cons_self⟩ with ⟨request, hrequest⟩
  rcases hsame.2 request hrequest with ⟨hholds, hattributes, hfilter⟩
  refine ⟨by decide, request, hrequest, ?_, ?_, fun attr hattr => ?_⟩
  · exact hfilter.mpr ⟨by decide, (Condition.all?_eq_none_iff _).mp rfl⟩
  · exact ((hholds (film "a" "x" none)).mpr ⟨by decide, by decide⟩).1
  · rcases hattributes attr hattr with h | h
    · exact h
    · exact (Option.some.inj h).symm

end WideColumn
