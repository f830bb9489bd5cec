import WideColumn.Store.Scan

/-!
# Sorting Rows

What the stable sort of a scan does to its rows.

It loses and repeats none of them, whatever the comparison. That the result is
sorted is said for a relation `R` that every comparison decides one way or the
other: where a row is below another one the other precedes it, and where it is
not it precedes the other. So ties are excluded by the hypothesis, and what
comes out is a chain of strict steps, in which a row is found by its place.

`filter_eq_drop` is what a scan makes of that when it resumes: the rows after
the one at a position are those that stand behind it.

## Theorems

* `insertDescending_perm`, `descending_perm`: Sorting keeps the rows.
* `insertDescending_pairwise`, `descending_pairwise`: Sorting sorts them.
* `mem_take_iff`: In a chain the rows up to one are those not after it.
* `filter_eq_drop`: In a chain the rows after one are those behind it.
-/

namespace WideColumn

section Sorting

variable {α : Type} (below : α → α → Bool)

theorem insertDescending_perm (row : α) (sorted : List α) :
    (insertDescending below row sorted).Perm (row :: sorted) := by
  induction sorted with
  | nil => exact List.Perm.refl _
  | cons other rest ih =>
      rw [insertDescending]
      by_cases h : below row other = true
      · rw [if_pos h]
        exact (ih.cons other).trans (List.Perm.swap row other rest)
      · rw [if_neg h]

-- Sorting behind rows that are sorted already. The accumulator is generalised, as in
-- the fold of `descending`.
theorem foldl_insertDescending_perm (rows sorted : List α) :
    (rows.foldl (fun sorted row => insertDescending below row sorted) sorted).Perm
      (rows ++ sorted) := by
  induction rows generalizing sorted with
  | nil => exact List.Perm.refl _
  | cons row rest ih =>
      rw [List.foldl_cons, List.cons_append]
      refine (ih (insertDescending below row sorted)).trans ?_
      refine ((insertDescending_perm below row sorted).append_left rest).trans ?_
      exact List.perm_middle

theorem descending_perm (rows : List α) : (descending below rows).Perm rows := by
  have h := foldl_insertDescending_perm below rows []
  rw [List.append_nil] at h
  exact h

variable {R : α → α → Prop} (htrans : ∀ a b c, R a b → R b c → R a c)

include htrans

theorem insertDescending_pairwise (row : α) (sorted : List α)
    (hpass : ∀ other ∈ sorted, below row other = true → R other row)
    (hstop : ∀ other ∈ sorted, ¬ below row other = true → R row other)
    (hs : sorted.Pairwise R) : (insertDescending below row sorted).Pairwise R := by
  induction sorted with
  | nil => exact List.pairwise_singleton R row
  | cons other rest ih =>
      rw [List.pairwise_cons] at hs
      rw [insertDescending]
      by_cases h : below row other = true
      · rw [if_pos h, List.pairwise_cons]
        refine ⟨?_, ih (fun b hb => hpass b (List.mem_cons_of_mem other hb))
          (fun b hb => hstop b (List.mem_cons_of_mem other hb)) hs.2⟩
        intro b hb
        rcases List.mem_cons.mp ((insertDescending_perm below row rest).mem_iff.mp hb) with
          rfl | hrest
        · exact hpass other List.mem_cons_self h
        · exact hs.1 b hrest
      · -- The row stops here, and all that stand behind `other` stand behind it too.
        rw [if_neg h, List.pairwise_cons]
        refine ⟨?_, List.pairwise_cons.mpr hs⟩
        have hother := hstop other List.mem_cons_self h
        intro b hb
        rcases List.mem_cons.mp hb with rfl | hrest
        · exact hother
        · exact htrans row other b hother (hs.1 b hrest)

theorem foldl_insertDescending_pairwise (rows sorted : List α)
    (hcross : ∀ row ∈ rows, ∀ other ∈ sorted,
      (below row other = true → R other row) ∧ (¬ below row other = true → R row other))
    (hrows : rows.Pairwise fun other row =>
      (below row other = true → R other row) ∧ (¬ below row other = true → R row other))
    (hs : sorted.Pairwise R) :
    (rows.foldl (fun sorted row => insertDescending below row sorted) sorted).Pairwise R := by
  induction rows generalizing sorted with
  | nil => exact hs
  | cons row rest ih =>
      rw [List.pairwise_cons] at hrows
      rw [List.foldl_cons]
      have hrow := hcross row List.mem_cons_self
      refine ih (insertDescending below row sorted) ?_ hrows.2
        (insertDescending_pairwise below htrans row sorted (fun b hb => (hrow b hb).1)
          (fun b hb => (hrow b hb).2) hs)
      intro later hlater other hother
      rcases List.mem_cons.mp ((insertDescending_perm below row sorted).mem_iff.mp hother) with
        rfl | hsorted
      · exact hrows.1 later hlater
      · exact hcross later (List.mem_cons_of_mem row hlater) other hsorted

/-- Sorting makes a chain of rows no two of which tie. -/
theorem descending_pairwise (rows : List α)
    (hrows : rows.Pairwise fun other row =>
      (below row other = true → R other row) ∧ (¬ below row other = true → R row other)) :
    (descending below rows).Pairwise R :=
  foldl_insertDescending_pairwise below htrans rows []
    (fun _ _ _ hother => absurd hother List.not_mem_nil) hrows List.Pairwise.nil

end Sorting

section Chain

variable {α : Type} {R : α → α → Prop} {l : List α} (hl : l.Pairwise R) {n : Nat} {row : α}
  (hrow : l[n]? = some row)

include hl hrow

-- A row of a chain comes after all that stand before it, and before all that stand
-- behind it.
theorem pairwise_around : (∀ b ∈ l.take n, R b row) ∧ ∀ b ∈ l.drop (n + 1), R row b := by
  rcases List.getElem?_eq_some_iff.mp hrow with ⟨hn, hget⟩
  have hsplit : l.take n ++ row :: l.drop (n + 1) = l := by
    rw [← hget, List.getElem_cons_drop, List.take_append_drop]
  rw [← hsplit, List.pairwise_append, List.pairwise_cons] at hl
  exact ⟨fun b hb => hl.2.2 b hb row List.mem_cons_self, hl.2.1.1⟩

variable (hasymm : ∀ a b, R a b → ¬ R b a)

include hasymm

-- A row of a chain stands up to another one if it does not come after it.
theorem mem_take_iff {b : α} (hb : b ∈ l) : b ∈ l.take (n + 1) ↔ ¬ R row b := by
  have haround := pairwise_around hl hrow
  constructor
  · intro hmem hafter
    rw [List.take_add_one, hrow, Option.toList_some] at hmem
    rcases List.mem_append.mp hmem with hfront | hself
    · exact hasymm b row (haround.1 b hfront) hafter
    · rw [List.mem_singleton.mp hself] at hafter
      exact hasymm row row hafter hafter
  · intro hnot
    rw [← List.take_append_drop (n + 1) l] at hb
    rcases List.mem_append.mp hb with hfront | hback
    · exact hfront
    · exact absurd (haround.2 b hback) hnot

/-- In a chain the rows after one of them are those that stand behind it. -/
theorem filter_eq_drop {after : α → Bool} (hafter : ∀ b ∈ l, after b = true ↔ R row b) :
    l.filter after = l.drop (n + 1) := by
  have hfront : (l.take (n + 1)).filter after = [] := by
    rw [List.filter_eq_nil_iff]
    intro b hb hb'
    have hmem := List.mem_of_mem_take hb
    exact (mem_take_iff hl hrow hasymm hmem).mp hb ((hafter b hmem).mp hb')
  have hback : (l.drop (n + 1)).filter after = l.drop (n + 1) := by
    rw [List.filter_eq_self]
    intro b hb
    exact (hafter b (List.mem_of_mem_drop hb)).mpr ((pairwise_around hl hrow).2 b hb)
  calc l.filter after = (l.take (n + 1) ++ l.drop (n + 1)).filter after := by
        rw [List.take_append_drop]
    _ = l.drop (n + 1) := by rw [List.filter_append, hfront, hback, List.nil_append]

end Chain

end WideColumn
