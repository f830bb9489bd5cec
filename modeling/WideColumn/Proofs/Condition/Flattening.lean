import WideColumn.Proofs.Condition.Conjunction

/-!
# Flattened Conjunctions

What `Condition.all?` makes of a list of conditions.

The list may hold conjunctions at any depth, and some of them may be of one condition or of
none. They are all opened, so what is left are the parts of the list that are no conjunctions
themselves. A part is given by its path, which says which member to go down to at each level,
and of two parts the one further left has the lesser path. `places` lists the parts with
their paths by the recursion that opens conjunctions, so its second components are what
`all?` conjoins. That none is lost, repeated or moved is then a matter of the paths alone:
they are all paths to parts (`mem_places_iff`), and they ascend (`places_pairwise`).

What `all?` yields is opened to what it was made of. This is all that the laws need that are
equations between conditions, since two lists that open to the same parts have the same
conjunction.

## Main definitions

* `Condition.isConjunction`: The condition is a conjunction.
* `Condition.partAt?`: The part at a path.
* `Condition.conjoined`: What a conjunction is of, if there is one.
* `Condition.places`: The parts with their paths.

## Theorems

* `not_conjunction_of_mem`: No part is a conjunction.
* `mem_places_iff`, `places_pairwise`, `places_snd`: The parts from left to right.
* `conjunctsOfAll_all?`: A conjunction opens to what it was made of.
* `all?_flattens`: Conjoining keeps the meaning and the parts, and is done once.
-/

namespace WideColumn

namespace Condition

/-- The condition is a conjunction, of however many conditions. -/
def isConjunction : Condition → Bool
  | .and _ => true
  | _ => false

/-- The part of a condition at a path, which goes down through conjunctions by the number
    of a member and ends at a condition that is none. -/
def partAt? : List Nat → Condition → Option Condition
  | [], c => if c.isConjunction then none else some c
  | i :: path, .and inner => inner[i]?.bind (partAt? path)
  | _ :: _, _ => none

/-- The conditions that were conjoined, where a condition that is no conjunction stands for
    itself. -/
def conjoined : Option Condition → List Condition
  | none => []
  | some (.and inner) => inner
  | some c => [c]

mutual

/-- The parts of a condition with their paths, from left to right. -/
def places : Condition → List (List Nat × Condition)
  | .and inner => placesFrom 0 inner
  | c => [([], c)]

/-- The parts of the members of a conjunction from some number on. -/
def placesFrom (i : Nat) : List Condition → List (List Nat × Condition)
  | [] => []
  | c :: rest => (places c).map (fun place => (i :: place.1, place.2)) ++ placesFrom (i + 1) rest

end

theorem conjuncts_of_not_conjunction {c : Condition} (h : c.isConjunction = false) :
    conjuncts c = [c] := by
  cases c with
  | and inner => exact absurd h.symm Bool.false_ne_true
  | _ => rfl

mutual

/-- No part of a condition is a conjunction. -/
theorem not_conjunction_of_mem (c : Condition) :
    ∀ part ∈ conjuncts c, part.isConjunction = false := by
  cases c with
  | and inner =>
      rw [conjuncts]
      exact not_conjunction_of_mem_all inner
  | _ =>
      intro part hpart
      rw [List.mem_singleton.mp hpart]
      rfl

theorem not_conjunction_of_mem_all (conditions : List Condition) :
    ∀ part ∈ conjunctsOfAll conditions, part.isConjunction = false := by
  cases conditions with
  | nil => exact fun part hpart => absurd hpart List.not_mem_nil
  | cons c rest =>
      rw [conjunctsOfAll, List.forall_mem_append]
      exact ⟨not_conjunction_of_mem c, not_conjunction_of_mem_all rest⟩

end

mutual

/-- The parts are what is left of a condition that is opened. -/
theorem places_snd (c : Condition) : (places c).map Prod.snd = conjuncts c := by
  cases c with
  | and inner =>
      rw [places, conjuncts]
      exact placesFrom_snd 0 inner
  | _ => rfl

theorem placesFrom_snd (i : Nat) (conditions : List Condition) :
    (placesFrom i conditions).map Prod.snd = conjunctsOfAll conditions := by
  cases conditions with
  | nil => rfl
  | cons c rest =>
      rw [placesFrom, conjunctsOfAll, List.map_append, List.map_map, placesFrom_snd (i + 1) rest,
        ← places_snd c]
      rfl

end

mutual

/-- The list has all parts that are found at a path. -/
theorem mem_places_iff (c : Condition) {path : List Nat} {part : Condition} :
    (path, part) ∈ places c ↔ partAt? path c = some part := by
  cases c with
  | and inner =>
      rw [places, mem_placesFrom_iff 0 inner]
      cases path with
      | nil => simp only [reduceCtorEq, false_and, exists_false, partAt?, isConjunction, if_true]
      | cons i path =>
          simp only [Nat.zero_add, List.cons.injEq, partAt?, Option.bind_eq_some_iff]
          constructor
          · rintro ⟨j, rest, c, ⟨rfl, rfl⟩, hc, hpart⟩
            exact ⟨c, hc, hpart⟩
          · rintro ⟨c, hc, hpart⟩
            exact ⟨i, path, c, ⟨rfl, rfl⟩, hc, hpart⟩
  | _ =>
      cases path with
      | nil => simp [places, partAt?, isConjunction, eq_comm]
      | cons i path => simp [places, partAt?]

theorem mem_placesFrom_iff (k : Nat) (conditions : List Condition) {path : List Nat}
    {part : Condition} :
    (path, part) ∈ placesFrom k conditions ↔
      ∃ i rest c, path = (k + i) :: rest ∧ conditions[i]? = some c ∧
        partAt? rest c = some part := by
  cases conditions with
  | nil => simp [placesFrom]
  | cons c rest =>
      rw [placesFrom, List.mem_append, List.mem_map, mem_placesFrom_iff (k + 1) rest]
      constructor
      · rintro (⟨⟨tail, found⟩, hmem, hplace⟩ | ⟨i, tail, other, hpath, hother, hpart⟩)
        · rw [Prod.mk.injEq] at hplace
          refine ⟨0, tail, c, hplace.1.symm, rfl, ?_⟩
          rw [← hplace.2]
          exact (mem_places_iff c).mp hmem
        · exact ⟨i + 1, tail, other, by rw [hpath, Nat.add_assoc, Nat.add_comm 1 i], hother, hpart⟩
      · rintro ⟨i, tail, other, hpath, hother, hpart⟩
        cases i with
        | zero =>
            rw [List.getElem?_cons_zero, Option.some.injEq] at hother
            rw [← hother] at hpart
            exact Or.inl ⟨(tail, part), (mem_places_iff c).mpr hpart, by rw [hpath, Nat.add_zero]⟩
        | succ i =>
            rw [List.getElem?_cons_succ] at hother
            exact Or.inr ⟨i, tail, other, by rw [hpath, Nat.add_assoc, Nat.add_comm 1 i], hother,
              hpart⟩

end

mutual

/-- The paths ascend. -/
theorem places_pairwise (c : Condition) : ((places c).map Prod.fst).Pairwise (· < ·) := by
  cases c with
  | and inner =>
      rw [places]
      exact placesFrom_pairwise 0 inner
  | _ => exact List.pairwise_singleton _ _

theorem placesFrom_pairwise (k : Nat) (conditions : List Condition) :
    ((placesFrom k conditions).map Prod.fst).Pairwise (· < ·) := by
  cases conditions with
  | nil => exact List.Pairwise.nil
  | cons c rest =>
      rw [placesFrom, List.map_append, List.pairwise_append]
      refine ⟨?_, placesFrom_pairwise (k + 1) rest, ?_⟩
      · have hhead := places_pairwise c
        rw [List.pairwise_map] at hhead
        rw [List.map_map, List.pairwise_map]
        exact hhead.imp fun h => List.cons_lt_cons_iff.mpr (Or.inr ⟨rfl, h⟩)
      · -- The paths into one member come before those into a later one.
        intro path hpath other hother
        simp only [List.map_map, List.mem_map, Function.comp_apply] at hpath
        rcases hpath with ⟨place, _, rfl⟩
        rcases List.mem_map.mp hother with ⟨⟨_, part⟩, hmem, rfl⟩
        rcases (mem_placesFrom_iff (k + 1) rest).mp hmem with ⟨i, tail, _, rfl, _, _⟩
        exact List.cons_lt_cons_iff.mpr (Or.inl (by omega))

end

theorem conjunctsOfAll_append (front back : List Condition) :
    conjunctsOfAll (front ++ back) = conjunctsOfAll front ++ conjunctsOfAll back := by
  induction front with
  | nil => rfl
  | cons c rest ih => rw [List.cons_append, conjunctsOfAll, conjunctsOfAll, ih, List.append_assoc]

-- Where there is no conjunction there is nothing to open.
theorem conjunctsOfAll_eq_self {parts : List Condition}
    (h : ∀ part ∈ parts, part.isConjunction = false) : conjunctsOfAll parts = parts := by
  induction parts with
  | nil => rfl
  | cons c rest ih =>
      rw [List.forall_mem_cons] at h
      rw [conjunctsOfAll, conjuncts_of_not_conjunction h.1, ih h.2, List.singleton_append]

section

variable {parts : List Condition} (h : ∀ part ∈ parts, part.isConjunction = false)

include h

theorem conjunctsOfAll_conjoin? : conjunctsOfAll (conjoin? parts).toList = parts := by
  match parts with
  | [] => rfl
  | [c] => exact conjunctsOfAll_eq_self h
  | c :: d :: rest =>
      have hconjoin : (conjoin? (c :: d :: rest)).toList = [.and (c :: d :: rest)] := rfl
      rw [hconjoin, conjunctsOfAll, conjuncts, conjunctsOfAll_eq_self h, conjunctsOfAll,
        List.append_nil]

theorem conjoined_conjoin? : conjoined (conjoin? parts) = parts := by
  match parts with
  | [] => rfl
  | [c] =>
      have hc := h c List.mem_cons_self
      cases c with
      | and inner => exact absurd hc.symm Bool.false_ne_true
      | _ => rfl
  | c :: d :: rest => rfl

-- A conjunction is made of two conditions or more, and of these only.
theorem of_conjoin?_eq_and {inner : List Condition} (hand : conjoin? parts = some (.and inner)) :
    2 ≤ inner.length ∧ ∀ c ∈ inner, c.isConjunction = false := by
  match parts with
  | [] => exact absurd hand nofun
  | [c] =>
      have hc := h c List.mem_cons_self
      rw [conjoin?, Option.some.injEq] at hand
      rw [hand] at hc
      exact absurd hc.symm Bool.false_ne_true
  | c :: d :: rest =>
      have hinner : c :: d :: rest = inner := and.inj (Option.some.inj hand)
      rw [← hinner]
      exact ⟨Nat.le_add_left 2 rest.length, h⟩

end

/-- The conjunction of a list opens to what the list opens to. -/
theorem conjunctsOfAll_all? (conditions : List Condition) :
    conjunctsOfAll (all? conditions).toList = conjunctsOfAll conditions :=
  conjunctsOfAll_conjoin? (not_conjunction_of_mem_all conditions)

/-- Conjoining a list keeps what it says and flattens it. An item satisfies the conjunction,
    if there is one, just if it satisfies every condition of the list. A conjunction that
    comes out is of two conditions or more and of no conjunction. What is conjoined are the
    parts of the list from left to right: they have ascending paths, and these are all the
    paths at which the list has a part. Lists may be conjoined one by one before they are
    conjoined together, and conjoining again changes nothing. -/
theorem all?_flattens (conditions : List Condition) :
    (∀ item, (all? conditions).all (·.holds item) = true ↔
      ∀ c ∈ conditions, c.holds item = true) ∧
    (∀ inner, all? conditions = some (.and inner) →
      2 ≤ inner.length ∧ ∀ c ∈ inner, c.isConjunction = false) ∧
    (∃ found : List (List Nat × Condition),
      found.map Prod.snd = conjoined (all? conditions) ∧
      (found.map Prod.fst).Pairwise (· < ·) ∧
      ∀ path part, (path, part) ∈ found ↔ partAt? path (.and conditions) = some part) ∧
    (∀ more, all? (conditions ++ more) = all? ((all? conditions).toList ++ (all? more).toList)) ∧
    all? (all? conditions).toList = all? conditions := by
  have hparts := not_conjunction_of_mem_all conditions
  refine ⟨fun item => ?_, fun inner hand => of_conjoin?_eq_and hparts hand,
    ⟨places (.and conditions), ?_, places_pairwise _, fun path part => mem_places_iff _⟩,
    fun more => ?_, ?_⟩
  · rw [holds_all?, List.all_eq_true]
  · rw [places_snd, conjuncts, all?, conjoined_conjoin? hparts]
  · rw [all?, all?, conjunctsOfAll_append, conjunctsOfAll_append, conjunctsOfAll_all?,
      conjunctsOfAll_all?]
  · rw [all?, conjunctsOfAll_all?, all?]

end Condition

end WideColumn
