import WideColumn.Condition.Holds
import WideColumn.Proofs.Value.Same

/-!
# Equality and Sameness

How far the equality that conditions test is the sameness that a store goes by.

A store finds an item by the structure of its key, and a condition compares. The
two differ in one place: an integer and a double that compare equal are not the same.
Apart from such pairs they agree on all values, scalars or not, because what does not
compare is held to be equal by its structure.

The same values cannot be told apart by a condition that has one of them as its
operand. So it does not matter whether two operands are identical or only the same,
and `Alike` does not distinguish them. It has both because a double that is no number
is identical to itself and not the same.

## Main definitions

* `Value.crosses`: An integer beside a double.
* `Value.Alike`: Identical or the same.

## Theorems

* `equals_eq_same`: Equality is sameness but for an integer beside a double.
* `equals_of_same`, `crosses_of_same`: The same values are equal and of one form.
* `Alike.compare?_eq`, `Alike.equals_eq`: Operands that are alike compare alike.
* `Alike.holds_eq`: So do conditions hold alike with them.
-/

namespace WideColumn

namespace Binary64

-- Doubles that are equal stand at one place of the order.
theorem compare?_of_equal (x : Binary64) {y z : Binary64} (h : y.equal z = true) :
    x.compare? y = x.compare? z := by
  rw [equal_iff] at h
  rw [compare?, compare?, h.1, h.2.1, h.2.2]

end Binary64

namespace Value

/-- One of the values is an integer and the other one a double. -/
def crosses : Value → Value → Bool
  | integer _, float _ => true
  | float _, integer _ => true
  | _, _ => false

/-- The values are identical or the same. -/
def Alike (v w : Value) : Prop := v = w ∨ v.same w = true

-- Where the order decides equality, comparing equal is being equal.
theorem compare_beq_eq {α : Type} [Ord α] [BEq α] [LawfulBEq α] [Std.LawfulEqOrd α] (a b : α) :
    (compare a b == .eq) = (a == b) := by
  rw [Bool.eq_iff_iff, beq_iff_eq, beq_iff_eq, Std.LawfulEqOrd.compare_eq_iff_eq]

/-- Equality is sameness, but for an integer beside a double. -/
theorem equals_eq_same {v w : Value} (h : v.crosses w = false) : v.equals w = v.same w := by
  cases v <;> cases w
  case integer.float => exact absurd h.symm Bool.false_ne_true
  case float.integer => exact absurd h.symm Bool.false_ne_true
  case string.string s t => exact compare_beq_eq s t
  case boolean.boolean a b => exact compare_beq_eq a b
  case binary.binary a b => exact compare_beq_eq a b
  case integer.integer i j =>
    change (compare i.toInt j.toInt == .eq) = (i == j)
    rw [compare_beq_eq, Bool.eq_iff_iff, beq_iff_eq, beq_iff_eq, Int64.toInt_inj]
  case float.float x y =>
    rw [equals, compare?, same, Binary64.equal]
    cases x.compare? y <;> rfl
  -- What is left has no order, so it is its structure that counts.
  all_goals rfl

theorem crosses_of_same {v w : Value} (h : v.same w = true) : v.crosses w = false := by
  cases v <;> cases w
  case integer.float => exact absurd h Bool.false_ne_true
  case float.integer => exact absurd h Bool.false_ne_true
  all_goals rfl

/-- The same values are equal. -/
theorem equals_of_same {v w : Value} (h : v.same w = true) : v.equals w = true :=
  (equals_eq_same (crosses_of_same h)).trans h

-- The same operands stand at one place of the order.
theorem compare?_of_same (a : Value) {v w : Value} (h : v.same w = true) :
    a.compare? v = a.compare? w := by
  cases v <;> cases w <;> simp only [same, Bool.false_eq_true, beq_iff_eq] at h
  case float.float x y =>
    cases a
    case integer i => exact Binary64.compare?_of_equal _ h
    case float z => exact Binary64.compare?_of_equal z h
    all_goals rfl
  case null.null => rfl
  case list.list => cases a <;> rfl
  case map.map => cases a <;> rfl
  all_goals rw [h]

namespace Alike

variable {v w : Value} (h : v.Alike w)

include h

theorem compare?_eq (a : Value) : a.compare? v = a.compare? w := by
  rcases h with rfl | h
  · rfl
  · exact compare?_of_same a h

theorem same_eq (a : Value) : a.same v = a.same w := by
  rcases h with rfl | h
  · rfl
  · rw [Bool.eq_iff_iff]
    exact ⟨fun hv => same_trans hv h, fun hw => same_trans hw (same_comm v w ▸ h)⟩

/-- Operands that are alike are equal to the same values. -/
theorem equals_eq (a : Value) : a.equals v = a.equals w := by
  rw [equals, equals, h.compare?_eq a, h.same_eq a]

theorem includes_eq (a : Value) : a.includes v = a.includes w := by
  have hequals : ∀ elements : List Value,
      elements.any (·.equals v) = elements.any (·.equals w) := fun elements => by
    congr 1
    funext element
    exact h.equals_eq element
  rcases h with rfl | hsame
  · rfl
  · cases a
    case list elements => exact hequals elements
    case string s =>
      cases v <;> cases w <;> simp only [same, Bool.false_eq_true, beq_iff_eq] at hsame
      case string.string => rw [hsame]
      all_goals rfl
    all_goals rfl

/-- Comparisons with operands that are alike hold of the same values. -/
theorem holds_eq (comparator : Comparator) (a : Value) :
    comparator.holds a v = comparator.holds a w := by
  cases comparator <;>
    simp only [Comparator.holds, atMost, atLeast, h.equals_eq a, h.compare?_eq a]

end Alike

end Value

end WideColumn
