import WideColumn.Request.Compile
import WideColumn.Proofs.Keyed

/-!
# Viable Indexes

What it means that nothing stands against an index, and what an expression says
of its attributes.

The infractions of an index are five lists one behind the other, so an empty list
says five things at once. `TableIndex.Viable` has them apart, each in the form in
which the request needs it.

An expression that was built step by step has one filter for each attribute at
most. So the filter that is found on an attribute is the only one, and what is
taken out of the filters with the keys of an index is what the key condition asks.

## Main definitions

* `TableIndex.Viable`: The five demands on an index.

## Theorems

* `viable_iff`: An index without infractions meets the five demands.
* `ofCalls_nodup`: Every attribute has one filter at most.
* `filterOn_eq_some_iff`: The filter on an attribute is the one in the list.
-/

namespace WideColumn

/-- The demands of an expression on an index. -/
structure TableIndex.Viable (index : TableIndex) (e : Expression) : Prop where
  partition : ∃ value, e.filterOn index.keys.partition = some (.equal value)
  consistency : e.consistent = true → index.consistentReadable = true
  order : ∀ order, e.order = some order → index.keys.sort = some order.attr
  projection : index.includesAll = true ∨
    ∃ selected, e.selected = some selected ∧ ∀ attr ∈ selected, index.includes attr = true
  sparsity : ∀ sort, index.keys.sort = some sort → index.isSparse = true →
    (∃ f, e.filterOn sort = some f) ∨ ∃ order, e.order = some order ∧ order.attr = sort

section

variable {index : TableIndex} {e : Expression}

theorem Filter.isEqual_iff {f : Filter} : f.isEqual = true ↔ ∃ value, f = .equal value := by
  rw [isEqual, beq_iff_eq]
  cases f <;> simp only [kind, reduceCtorEq, equal.injEq, exists_eq', exists_false]

theorem partitionInfractions_eq_nil_iff : partitionInfractions index e = [] ↔
    ∃ value, e.filterOn index.keys.partition = some (.equal value) := by
  rw [partitionInfractions]
  cases e.filterOn index.keys.partition with
  | none => simp only [Option.any_none, Bool.false_eq_true, if_false, List.cons_ne_nil,
      reduceCtorEq, exists_false]
  | some f => simp only [Option.any_some, Filter.isEqual_iff, ite_eq_left_iff, List.cons_ne_nil,
      imp_false, Classical.not_not, Option.some.injEq]

theorem consistencyInfractions_eq_nil_iff : consistencyInfractions index e = [] ↔
    (e.consistent = true → index.consistentReadable = true) := by
  rw [consistencyInfractions]
  cases e.consistent <;> cases index.consistentReadable <;> simp

theorem orderInfractions_eq_nil_iff : orderInfractions index e = [] ↔
    ∀ order, e.order = some order → index.keys.sort = some order.attr := by
  rw [orderInfractions]
  cases e.order with
  | none => simp only [reduceCtorEq, false_implies, implies_true]
  | some order => simp only [ite_eq_left_iff, List.cons_ne_nil, imp_false, Classical.not_not,
      Option.some.injEq, forall_eq']

theorem projectionInfractions_eq_nil_iff : projectionInfractions index e = [] ↔
    index.includesAll = true ∨
      ∃ selected, e.selected = some selected ∧ ∀ attr ∈ selected, index.includes attr = true := by
  rw [projectionInfractions]
  cases hall : index.includesAll with
  | true => simp only [if_true, true_or]
  | false =>
      cases e.selected with
      | none => simp only [Bool.false_eq_true, if_false, List.cons_ne_nil, reduceCtorEq,
          false_and, exists_false, or_self]
      | some selected => simp only [Bool.false_eq_true, if_false, List.isEmpty_iff,
          ite_eq_left_iff, List.cons_ne_nil, imp_false, Classical.not_not, List.filter_eq_nil_iff,
          Bool.not_eq_true', Bool.not_eq_false, Option.some.injEq, exists_eq_left', false_or]

theorem sparsityInfractions_eq_nil_iff : sparsityInfractions index e = [] ↔
    ∀ sort, index.keys.sort = some sort → index.isSparse = true →
      (∃ f, e.filterOn sort = some f) ∨ ∃ order, e.order = some order ∧ order.attr = sort := by
  rw [sparsityInfractions]
  cases index.keys.sort with
  | none => simp only [reduceCtorEq, false_implies, implies_true]
  | some sort =>
      simp only [Option.some.injEq, forall_eq']
      cases index.isSparse with
      | false => simp
      | true => cases e.filterOn sort <;> cases e.order <;> simp

/-- An index without infractions meets the five demands, and has none if it meets
    them. -/
theorem viable_iff : infractions index e = [] ↔ index.Viable e := by
  simp only [infractions, List.append_eq_nil_iff, partitionInfractions_eq_nil_iff,
    consistencyInfractions_eq_nil_iff, orderInfractions_eq_nil_iff,
    projectionInfractions_eq_nil_iff, sparsityInfractions_eq_nil_iff]
  constructor
  · rintro ⟨⟨⟨⟨hpartition, hconsistency⟩, horder⟩, hprojection⟩, hsparsity⟩
    exact ⟨hpartition, hconsistency, horder, hprojection, hsparsity⟩
  · intro h
    exact ⟨⟨⟨⟨h.partition, h.consistency⟩, h.order⟩, h.projection⟩, h.sparsity⟩

end

theorem mem_placeFilter_attrs (attr other : String) (f : Filter)
    (filters : List (String × Filter)) :
    other ∈ (placeFilter attr f filters).map Prod.fst ↔
      other = attr ∨ other ∈ filters.map Prod.fst := by
  induction filters with
  | nil => simp only [placeFilter, List.map_cons, List.map_nil, List.mem_singleton,
      List.not_mem_nil, or_false]
  | cons pair rest ih =>
      obtain ⟨head, g⟩ := pair
      rw [placeFilter]
      by_cases h : attr = head
      · rw [if_pos h, List.map_cons, List.map_cons, List.mem_cons, List.mem_cons, h]
        exact ⟨Or.inr, fun h => h.elim Or.inl id⟩
      · rw [if_neg h, List.map_cons, List.map_cons, List.mem_cons, List.mem_cons, ih]
        exact or_left_comm

-- Placing a filter keeps one filter for each attribute.
theorem placeFilter_nodup (attr : String) (f : Filter) {filters : List (String × Filter)}
    (h : (filters.map Prod.fst).Nodup) : ((placeFilter attr f filters).map Prod.fst).Nodup := by
  induction filters with
  | nil => exact List.nodup_cons.mpr ⟨List.not_mem_nil, List.nodup_nil⟩
  | cons pair rest ih =>
      obtain ⟨head, g⟩ := pair
      rw [List.map_cons, List.nodup_cons] at h
      rw [placeFilter]
      by_cases hattr : attr = head
      · rw [if_pos hattr, List.map_cons, List.nodup_cons, hattr]
        exact h
      · rw [if_neg hattr, List.map_cons, List.nodup_cons, mem_placeFilter_attrs, not_or]
        exact ⟨⟨fun hhead => hattr hhead.symm, h.1⟩, ih h.2⟩

namespace Expression

theorem apply_nodup {e : Expression} (call : Call) (h : (e.filters.map Prod.fst).Nodup) :
    ((e.apply call).filters.map Prod.fst).Nodup := by
  cases call with
  | filter attr f => exact placeFilter_nodup attr f h
  | _ => exact h

/-- An expression that was built step by step has one filter for each attribute at
    most. -/
theorem ofCalls_nodup (calls : List Call) : ((ofCalls calls).filters.map Prod.fst).Nodup := by
  -- Generalised over the expression that the calls before have built.
  have hfold : ∀ (rest : List Call) (e : Expression), (e.filters.map Prod.fst).Nodup →
      ((rest.foldl apply e).filters.map Prod.fst).Nodup := by
    intro rest
    induction rest with
    | nil => exact fun _ h => h
    | cons call rest ih => exact fun e h => ih (e.apply call) (apply_nodup call h)
  exact hfold calls empty List.nodup_nil

/-- The filter on an attribute is the one in the list. -/
theorem filterOn_eq_some_iff {e : Expression} (h : (e.filters.map Prod.fst).Nodup)
    {attr : String} {f : Filter} : e.filterOn attr = some f ↔ (attr, f) ∈ e.filters :=
  Keyed.get?_eq_some_iff h

end Expression

end WideColumn
