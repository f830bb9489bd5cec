import WideColumn.Keyed

/-!
# Lookups in Keyed Lists

What the operations on keyed lists do to lookups.

Hardly a statement needs the names to be in order or different from each
other. A lookup finds the first pair of a name, filing puts a pair where it is
found first, and restricting drops all pairs of a name or none, so the laws hold
of whatever list a caller may have put together.

## Theorems

* `get?_insert`: Filing changes the lookup of the filed name only.
* `get?_restrict`: Restricting forgets the names that fail the test.
* `mem_of_get?_eq_some`: What is found is in the list.
* `get?_eq_some_iff`: Lookups where the names are different.
* `contains_iff_mem`: What is contained is in the list.
* `restrict_restrict`: Restricting twice is restricting by both tests.
* `restrict_eq_self_iff`: When restricting changes nothing.
* `insert_pairwise`, `ofList_pairwise`: Filing keeps the order.
* `sortedNames_pairwise`, `mem_sortedNames`: Sorting names puts them in order, and neither
  loses nor adds one.
-/

namespace WideColumn

namespace Keyed

variable {α : Type}

theorem get?_nil (name : String) : get? ([] : Keyed α) name = none := rfl

theorem get?_cons (name other : String) (content : α) (rest : Keyed α) :
    get? ((other, content) :: rest) name = if name = other then some content else get? rest name := by
  by_cases h : name = other
  · rw [if_pos h, h, get?, List.lookup_cons_self]
  · rw [if_neg h, get?, List.lookup_cons, beq_eq_false_iff_ne.mpr h]
    rfl

theorem mem_of_get?_eq_some {m : Keyed α} {name : String} {content : α}
    (h : get? m name = some content) : (name, content) ∈ m := by
  induction m with
  | nil => rw [get?_nil] at h; exact absurd h (by simp only [reduceCtorEq, not_false_eq_true])
  | cons pair rest ih =>
      rw [get?_cons] at h
      by_cases hname : name = pair.1
      · rw [if_pos hname, Option.some.injEq] at h
        rw [hname, ← h]
        exact List.mem_cons_self
      · rw [if_neg hname] at h
        exact List.mem_cons_of_mem pair (ih h)

theorem contains_iff_mem {m : Keyed α} {name : String} :
    contains m name = true ↔ name ∈ m.map Prod.fst := by
  rw [contains]
  induction m with
  | nil => exact iff_of_false Bool.false_ne_true List.not_mem_nil
  | cons pair rest ih =>
      rw [get?_cons, List.map_cons, List.mem_cons]
      by_cases hname : name = pair.1
      · rw [if_pos hname]
        exact iff_of_true rfl (Or.inl hname)
      · rw [if_neg hname, ih]
        exact (or_iff_right hname).symm

theorem get?_insert (m : Keyed α) (name other : String) (content : α) :
    get? (insert name content m) other = if other = name then some content else get? m other := by
  induction m with
  | nil => exact get?_cons other name content []
  | cons pair rest ih =>
      obtain ⟨head, held⟩ := pair
      rw [insert]
      by_cases hlt : name < head
      · rw [if_pos hlt, get?_cons]
      · rw [if_neg hlt]
        by_cases heq : name = head
        · rw [if_pos heq, get?_cons, get?_cons, heq]
          by_cases hother : other = head
          · rw [if_pos hother, if_pos hother]
          · rw [if_neg hother, if_neg hother, if_neg hother]
        · rw [if_neg heq, get?_cons, get?_cons, ih]
          by_cases hother : other = head
          · rw [if_pos hother, if_pos hother, if_neg]
            rw [hother]
            exact fun h => heq h.symm
          · rw [if_neg hother, if_neg hother]

theorem get?_restrict (m : Keyed α) (keep : String → Bool) (name : String) :
    get? (restrict m keep) name = if keep name then get? m name else none := by
  induction m with
  | nil => rw [restrict, List.filter_nil, get?_nil, ite_self]
  | cons pair rest ih =>
      obtain ⟨head, held⟩ := pair
      rw [restrict] at ih
      rw [restrict, List.filter_cons, get?_cons]
      by_cases hname : name = head
      · by_cases hkeep : keep head = true
        · rw [if_pos hkeep, get?_cons, if_pos hname, if_pos hname, hname, if_pos hkeep]
        · rw [if_neg hkeep, ih, hname, if_neg hkeep, if_neg hkeep]
      · by_cases hkeep : keep head = true
        · rw [if_pos hkeep, get?_cons, if_neg hname, if_neg hname, ih]
        · rw [if_neg hkeep, ih, if_neg hname]

theorem restrict_restrict (m : Keyed α) (p q : String → Bool) :
    restrict (restrict m p) q = restrict m fun name => q name && p name := by
  rw [restrict, restrict, restrict, List.filter_filter]

-- Restricting by a weaker test first changes nothing.
theorem restrict_restrict_of_imp (m : Keyed α) {p q : String → Bool}
    (h : ∀ name, q name = true → p name = true) : restrict (restrict m p) q = restrict m q := by
  rw [restrict_restrict]
  congr 1
  funext name
  cases hq : q name with
  | false => rw [Bool.false_and]
  | true => rw [Bool.true_and, h name hq]

-- Leaving out what fails a test leaves everything just if nothing fails it.
theorem restrict_eq_self_iff {m : Keyed α} {keep : String → Bool} :
    restrict m keep = m ↔ ∀ name, contains m name = true → keep name = true := by
  rw [restrict, List.filter_eq_self]
  constructor
  · intro h name hname
    rcases List.mem_map.mp (contains_iff_mem.mp hname) with ⟨pair, hpair, rfl⟩
    exact h pair hpair
  · intro h pair hpair
    exact h pair.1 (contains_iff_mem.mpr (List.mem_map_of_mem hpair))

theorem mem_insert (m : Keyed α) (name other : String) (content : α) :
    other ∈ (insert name content m).map Prod.fst ↔ other = name ∨ other ∈ m.map Prod.fst := by
  induction m with
  | nil => simp only [insert, List.map_cons, List.map_nil, List.mem_singleton, List.not_mem_nil,
      or_false]
  | cons pair rest ih =>
      obtain ⟨head, held⟩ := pair
      rw [insert]
      by_cases hlt : name < head
      · rw [if_pos hlt, List.map_cons, List.mem_cons]
      · rw [if_neg hlt]
        by_cases heq : name = head
        · rw [if_pos heq, List.map_cons, List.map_cons, List.mem_cons, List.mem_cons, heq]
          exact ⟨Or.inr, fun h => h.elim Or.inl id⟩
        · rw [if_neg heq, List.map_cons, List.map_cons, List.mem_cons, List.mem_cons, ih]
          exact or_left_comm

/-- Filing keeps the names in ascending order. -/
theorem insert_pairwise {m : Keyed α} (h : (m.map Prod.fst).Pairwise (· < ·)) (name : String)
    (content : α) : ((insert name content m).map Prod.fst).Pairwise (· < ·) := by
  induction m with
  | nil => exact List.pairwise_singleton _ _
  | cons pair rest ih =>
      obtain ⟨head, held⟩ := pair
      rw [List.map_cons, List.pairwise_cons] at h
      rw [insert]
      by_cases hlt : name < head
      · rw [if_pos hlt, List.map_cons, List.map_cons, List.pairwise_cons, List.pairwise_cons]
        refine ⟨fun other hother => ?_, h⟩
        rcases List.mem_cons.mp hother with rfl | hrest
        · exact hlt
        · exact String.lt_trans hlt (h.1 other hrest)
      · rw [if_neg hlt]
        by_cases heq : name = head
        · rw [if_pos heq, List.map_cons, List.pairwise_cons, heq]
          exact h
        · have hgt : head < name :=
            String.not_le.mp fun hle => heq (String.le_antisymm hle (String.not_lt.mp hlt))
          rw [if_neg heq, List.map_cons, List.pairwise_cons]
          refine ⟨fun other hother => ?_, ih h.2⟩
          rcases (mem_insert rest name other content).mp hother with rfl | hrest
          · exact hgt
          · exact h.1 other hrest

/-- Pairs that are filed one after the other come to stand in ascending order. -/
theorem ofList_pairwise (pairs : List (String × α)) :
    ((ofList pairs).map Prod.fst).Pairwise (· < ·) := by
  have hfold : ∀ m : Keyed α, (m.map Prod.fst).Pairwise (· < ·) →
      ((pairs.foldl (fun m pair => insert pair.1 pair.2 m) m).map Prod.fst).Pairwise
        (· < ·) := by
    induction pairs with
    | nil => exact fun _ h => h
    | cons pair rest ih => exact fun m h => ih _ (insert_pairwise h pair.1 pair.2)
  exact hfold [] List.Pairwise.nil

/-- Where names are different from each other, a lookup finds what is in the list. -/
theorem get?_eq_some_iff {m : Keyed α} (h : (m.map Prod.fst).Nodup) {name : String}
    {content : α} : get? m name = some content ↔ (name, content) ∈ m := by
  refine ⟨mem_of_get?_eq_some, fun hmem => ?_⟩
  induction m with
  | nil => exact absurd hmem List.not_mem_nil
  | cons pair rest ih =>
      obtain ⟨head, held⟩ := pair
      rw [List.map_cons, List.nodup_cons] at h
      rw [get?_cons]
      rcases List.mem_cons.mp hmem with heq | hrest
      · rw [Prod.mk.injEq] at heq
        rw [if_pos heq.1, heq.2]
      · -- The first name does not occur again behind it.
        have hname : name ≠ head := fun heq =>
          h.1 (List.mem_map.mpr ⟨(name, content), hrest, heq⟩)
        rw [if_neg hname]
        exact ih h.2 hrest

end Keyed

theorem sortedNames_pairwise (names : List String) : (sortedNames names).Pairwise (· < ·) :=
  Keyed.ofList_pairwise _

theorem mem_sortedNames (names : List String) (name : String) :
    name ∈ sortedNames names ↔ name ∈ names := by
  -- The fold is generalised over what was filed before.
  have hfold : ∀ (rest : List String) (m : Keyed Unit),
      name ∈ ((rest.map fun n => (n, ())).foldl (fun m pair => Keyed.insert pair.1 pair.2 m) m).map
        Prod.fst ↔ name ∈ rest ∨ name ∈ m.map Prod.fst := by
    intro rest
    induction rest with
    | nil => intro m; simp only [List.map_nil, List.foldl_nil, List.not_mem_nil, false_or]
    | cons head rest ih =>
        intro m
        rw [List.map_cons, List.foldl_cons, ih, Keyed.mem_insert, List.mem_cons, or_left_comm,
          or_assoc]
  rw [sortedNames, Keyed.ofList, hfold]
  simp only [List.map_nil, List.not_mem_nil, or_false]

end WideColumn
