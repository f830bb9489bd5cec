import WideColumn.Value.Basic

/-!
# Sameness of Values

Structural sameness is symmetric and transitive.

It is no equivalence, since a double that is no number is not the same as
itself, and neither is anything with one in it. Replacing an item by its key
needs the other two laws only: if the item that is written has the key of one
row, then it has the key of no other row, because those two would share theirs.

The proofs follow the recursion of `same`, which goes through lists of values
and lists of entries in step with the values themselves.

## Theorems

* `Binary64.equal_comm`, `Binary64.equal_trans`: The laws for doubles.
* `same_comm`, `same_trans`: The laws for values.
* `sameOptional_comm`, `sameOptional_trans`: The laws for values that may be
  missing.
-/

namespace WideColumn

namespace Binary64

theorem equal_iff (x y : Binary64) :
    x.equal y = true ↔ x.isNaN = false ∧ y.isNaN = false ∧ x.rank = y.rank := by
  unfold equal compare?
  cases hx : x.isNaN <;> cases hy : y.isNaN <;> simp

theorem equal_comm (x y : Binary64) : x.equal y = y.equal x := by
  rw [Bool.eq_iff_iff, equal_iff, equal_iff]
  constructor
  · intro h
    exact ⟨h.2.1, h.1, h.2.2.symm⟩
  · intro h
    exact ⟨h.2.1, h.1, h.2.2.symm⟩

theorem equal_trans {x y z : Binary64} (hxy : x.equal y = true) (hyz : y.equal z = true) :
    x.equal z = true := by
  rw [equal_iff] at *
  exact ⟨hxy.1, hyz.2.1, hxy.2.2.trans hyz.2.2⟩

end Binary64

namespace Value

mutual

theorem same_comm (a b : Value) : same a b = same b a := by
  cases a <;> cases b <;> simp only [same]
  case string.string s t => exact Bool.beq_comm
  case integer.integer i j => exact Bool.beq_comm
  case float.float x y => exact Binary64.equal_comm x y
  case boolean.boolean a b => exact Bool.beq_comm
  case binary.binary a b => exact Bool.beq_comm
  case list.list xs ys => exact sameElements_comm xs ys
  case map.map xs ys => exact sameEntries_comm xs ys

theorem sameElements_comm (xs ys : List Value) : sameElements xs ys = sameElements ys xs := by
  cases xs with
  | nil => cases ys <;> rfl
  | cons x xs =>
      cases ys with
      | nil => rfl
      | cons y ys => rw [sameElements, sameElements, same_comm x y, sameElements_comm xs ys]

theorem sameEntries_comm (xs ys : List (String × Value)) :
    sameEntries xs ys = sameEntries ys xs := by
  cases xs with
  | nil => cases ys <;> rfl
  | cons x xs =>
      cases ys with
      | nil => rfl
      | cons y ys =>
          obtain ⟨name, x⟩ := x
          obtain ⟨other, y⟩ := y
          rw [sameEntries, sameEntries, same_comm x y, sameEntries_comm xs ys,
            Bool.beq_comm (a := name)]

end

mutual

theorem same_trans {a b c : Value} (hab : same a b = true) (hbc : same b c = true) :
    same a c = true := by
  cases a <;> cases b <;> simp only [same, Bool.false_eq_true] at hab <;>
    cases c <;> simp only [same, Bool.false_eq_true] at hbc ⊢
  case string.string.string => rw [beq_iff_eq] at *; exact hab.trans hbc
  case integer.integer.integer => rw [beq_iff_eq] at *; exact hab.trans hbc
  case float.float.float => exact Binary64.equal_trans hab hbc
  case boolean.boolean.boolean => rw [beq_iff_eq] at *; exact hab.trans hbc
  case binary.binary.binary => rw [beq_iff_eq] at *; exact hab.trans hbc
  case list.list.list => exact sameElements_trans hab hbc
  case map.map.map => exact sameEntries_trans hab hbc
termination_by structural a

theorem sameElements_trans {xs ys zs : List Value} (hxy : sameElements xs ys = true)
    (hyz : sameElements ys zs = true) : sameElements xs zs = true := by
  cases xs <;> cases ys <;> simp only [sameElements, Bool.false_eq_true] at hxy <;>
    cases zs <;> simp only [sameElements, Bool.false_eq_true, Bool.and_eq_true] at hxy hyz ⊢
  case cons.cons.cons => exact ⟨same_trans hxy.1 hyz.1, sameElements_trans hxy.2 hyz.2⟩
termination_by structural xs

theorem sameEntries_trans {xs ys zs : List (String × Value)} (hxy : sameEntries xs ys = true)
    (hyz : sameEntries ys zs = true) : sameEntries xs zs = true := by
  rcases xs with _ | ⟨⟨name, x⟩, xs⟩ <;> rcases ys with _ | ⟨⟨other, y⟩, ys⟩ <;>
    simp only [sameEntries, Bool.false_eq_true, Bool.and_eq_true, beq_iff_eq] at hxy
  · exact hyz
  · rcases zs with _ | ⟨⟨third, z⟩, zs⟩ <;>
      simp only [sameEntries, Bool.false_eq_true, Bool.and_eq_true, beq_iff_eq] at hyz ⊢
    exact ⟨⟨hxy.1.1.trans hyz.1.1, same_trans hxy.1.2 hyz.1.2⟩, sameEntries_trans hxy.2 hyz.2⟩
termination_by structural xs

end

theorem sameOptional_comm (a b : Option Value) : sameOptional a b = sameOptional b a := by
  cases a with
  | none => cases b <;> rfl
  | some a =>
      cases b with
      | none => rfl
      | some b => exact same_comm a b

theorem sameOptional_trans {a b c : Option Value} (hab : sameOptional a b = true)
    (hbc : sameOptional b c = true) : sameOptional a c = true := by
  cases a <;> cases b <;> simp only [sameOptional, Bool.false_eq_true] at hab <;>
    cases c <;> simp only [sameOptional, Bool.false_eq_true] at hbc ⊢
  exact same_trans hab hbc

end Value

end WideColumn
