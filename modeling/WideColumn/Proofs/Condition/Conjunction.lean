import WideColumn.Condition.Holds
import WideColumn.Expression

/-!
# Conjunctions

What putting conditions into one does to the items that satisfy them: nothing.

`Condition.all?` opens nested conjunctions, however deep they are, and leaves out
the conjunction around fewer than two conditions. So what it makes of a list need
not look like the list, and where there is nothing to ask it makes no condition
at all. `holds_all?` says that items do not notice, and `all?_eq_none_iff` that there is
nothing to ask only of conjunctions of nothing, which may be nested.

The conditions that come from filters need the attribute they are on. This is
what lets an index leave out the items that lack one.

## Main definitions

* `Condition.Vacuous`: Conjunctions of nothing, and of nothing but such conjunctions.

## Theorems

* `holdsAll_eq_all`: The conjunction of a list holds where each condition does.
* `holdsAll_conjuncts`: Opening a conjunction keeps what it says.
* `holds_all?`: So does putting a list into one condition.
* `all?_eq_none_iff`: When there is nothing to ask.
* `Filter.contains_of_holds`: A filter holds only where its attribute is.
-/

namespace WideColumn

namespace Condition

theorem holdsAll_eq_all (conditions : List Condition) (item : Item) :
    holdsAll conditions item = conditions.all (·.holds item) := by
  induction conditions with
  | nil => rfl
  | cons c rest ih => rw [holdsAll, List.all_cons, ih]

theorem holdsAll_append (front back : List Condition) (item : Item) :
    holdsAll (front ++ back) item = (holdsAll front item && holdsAll back item) := by
  rw [holdsAll_eq_all, holdsAll_eq_all, holdsAll_eq_all, List.all_append]

mutual

/-- Opening a conjunction keeps what it says. -/
theorem holdsAll_conjuncts (c : Condition) (item : Item) :
    holdsAll (conjuncts c) item = holds c item := by
  cases c with
  | and inner =>
      rw [conjuncts, holds]
      exact holdsAll_conjunctsOfAll inner item
  -- Any other condition is its own only conjunct.
  | _ =>
      rw [conjuncts, holdsAll, holdsAll, Bool.and_true]
      intro inner h
      exact absurd h (by simp only [reduceCtorEq, not_false_eq_true])

-- Opening each condition of a list keeps what they say together.
theorem holdsAll_conjunctsOfAll (conditions : List Condition) (item : Item) :
    holdsAll (conjunctsOfAll conditions) item = holdsAll conditions item := by
  cases conditions with
  | nil => rfl
  | cons c rest =>
      rw [conjunctsOfAll, holdsAll_append, holdsAll, holdsAll_conjuncts c item,
        holdsAll_conjunctsOfAll rest item]

end

theorem holds_conjoin? (conditions : List Condition) (item : Item) :
    (conjoin? conditions).all (·.holds item) = holdsAll conditions item := by
  match conditions with
  | [] => rfl
  | [c] => rw [conjoin?, Option.all_some, holdsAll, holdsAll, Bool.and_true]
  | c :: d :: rest =>
      have hconjoin : conjoin? (c :: d :: rest) = some (.and (c :: d :: rest)) := rfl
      rw [hconjoin, Option.all_some, holds]

/-- An item satisfies the conjunction of a list, if there is one, where it
    satisfies every condition of the list. -/
theorem holds_all? (conditions : List Condition) (item : Item) :
    (all? conditions).all (·.holds item) = conditions.all (·.holds item) := by
  rw [all?, holds_conjoin?, holdsAll_conjunctsOfAll, holdsAll_eq_all]

/-- A conjunction of nothing, or of nothing but such conjunctions. -/
inductive Vacuous : Condition → Prop where
  | and {inner : List Condition} (h : ∀ c ∈ inner, Vacuous c) : Vacuous (.and inner)

mutual

/-- Nothing is left of a condition that is opened just if it asks for nothing. -/
theorem conjuncts_eq_nil_iff (c : Condition) : conjuncts c = [] ↔ c.Vacuous := by
  cases c with
  | and inner =>
      rw [conjuncts, conjunctsOfAll_eq_nil_iff inner]
      constructor
      · exact Vacuous.and
      · rintro ⟨h⟩
        exact h
  | _ => exact iff_of_false (List.cons_ne_nil _ _) nofun

theorem conjunctsOfAll_eq_nil_iff (conditions : List Condition) :
    conjunctsOfAll conditions = [] ↔ ∀ c ∈ conditions, c.Vacuous := by
  cases conditions with
  | nil => exact iff_of_true rfl fun _ h => absurd h List.not_mem_nil
  | cons c rest =>
      rw [conjunctsOfAll, List.append_eq_nil_iff, conjuncts_eq_nil_iff c,
        conjunctsOfAll_eq_nil_iff rest, List.forall_mem_cons]

end

theorem conjoin?_eq_none_iff {conditions : List Condition} :
    conjoin? conditions = none ↔ conditions = [] := by
  match conditions with
  | [] => exact iff_of_true rfl rfl
  | [c] => exact iff_of_false nofun nofun
  | c :: d :: rest => exact iff_of_false nofun nofun

/-- There is nothing to ask just if every condition of the list asks for nothing. -/
theorem all?_eq_none_iff (conditions : List Condition) :
    all? conditions = none ↔ ∀ c ∈ conditions, c.Vacuous := by
  rw [all?, conjoin?_eq_none_iff, conjunctsOfAll_eq_nil_iff]

theorem holds_both (a b : Condition) (item : Item) :
    (a.both b).holds item = (a.holds item && b.holds item) := by
  rw [both, holds, holdsAll, holdsAll, holdsAll, Bool.and_true]

end Condition

-- What a filter asks is no conjunction.
theorem Filter.not_vacuous (f : Filter) (attr : String) : ¬ (f.toCondition attr).Vacuous := by
  cases f <;> exact nofun

/-- A filter holds only where its attribute is. The comparison that holds of a
    missing attribute is the one that no filter makes. -/
theorem Filter.contains_of_holds {f : Filter} {attr : String} {item : Item}
    (h : (f.toCondition attr).holds item = true) : item.contains attr = true := by
  rw [Keyed.contains]
  cases hget : item.get? attr with
  | some v => rfl
  | none =>
      cases f <;> simp only [toCondition, Condition.holds, hget, Option.any_none, beq_iff_eq,
        reduceCtorEq] at h

end WideColumn
