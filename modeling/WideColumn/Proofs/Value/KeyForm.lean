import WideColumn.Proofs.Value.Same

/-!
# Key Forms

Sameness of values as equality.

Two values are the same to a store if they are equal up to the sign of zeros, which may be
anywhere inside of them, and if no double in them stands for no number. Taking the sign from
all zeros leaves the first of these conditions an equality (`same_iff`). So what a store files
under a key can be spoken of as a map, whose keys are values in their key form, without an
equivalence to carry along.

The second condition is on one of the two values only. A value in which something stands for
no number has a key form like any other, but no value without it shares that form.

## Main definitions

* `Binary64.unsigned`: A double, with zero for both zeros.
* `Value.hasNaN`: Something in a value stands for no number.
* `Value.keyForm`: A value whose zeros have no sign.

## Theorems

* `Binary64.eq_of_rank_eq`: Only the zeros share a rank.
* `Binary64.equal_iff_unsigned`: Numerical equality of doubles.
* `same_iff`: Sameness of values.
* `sameOptional_iff`: Sameness of values that may be missing.
-/

namespace WideColumn

namespace Binary64

/-- The double, with zero for both zeros. -/
def unsigned (x : Binary64) : Binary64 :=
  if x.rank = 0 then zero else x

-- The bits are the sign and the magnitude.
theorem toNat_bits (x : Binary64) :
    x.bits.toNat = (if x.isNegative then signBit else 0) + x.magnitude := by
  have hlt : x.bits.toNat < 0x10000000000000000 := x.bits.toNat_lt
  rw [isNegative, magnitude]
  by_cases hsign : signBit ≤ x.bits.toNat
  · rw [decide_eq_true hsign, if_pos rfl]
    rw [signBit] at hsign ⊢
    omega
  · rw [decide_eq_false hsign, if_neg Bool.false_ne_true, Nat.zero_add]
    exact (Nat.mod_eq_of_lt (Nat.lt_of_not_le hsign)).symm

/-- Only the zeros share a rank. -/
theorem eq_of_rank_eq {x y : Binary64} (h : x.rank = y.rank) (hzero : x.rank ≠ 0) : x = y := by
  have hbits : x.bits.toNat = y.bits.toNat := by
    rw [toNat_bits x, toNat_bits y]
    unfold rank at h hzero
    cases hx : x.isNegative <;> cases hy : y.isNegative <;>
      simp only [hx, hy, if_true, Bool.false_eq_true, if_false] at h hzero ⊢ <;> omega
  obtain ⟨bits⟩ := x
  obtain ⟨others⟩ := y
  exact congrArg mk (UInt64.toNat_inj.mp hbits)

theorem rank_unsigned (x : Binary64) : x.unsigned.rank = x.rank := by
  rw [unsigned]
  by_cases hzero : x.rank = 0
  · rw [if_pos hzero, hzero]
    decide
  · rw [if_neg hzero]

theorem unsigned_eq_iff {x y : Binary64} : x.unsigned = y.unsigned ↔ x.rank = y.rank := by
  constructor
  · intro h
    rw [← rank_unsigned x, h, rank_unsigned]
  · intro h
    rw [unsigned, unsigned, ← h]
    by_cases hzero : x.rank = 0
    · rw [if_pos hzero, if_pos hzero]
    · rw [if_neg hzero, if_neg hzero, eq_of_rank_eq h hzero]

-- What stands for no number has a rank beyond that of infinity.
theorem isNaN_eq_of_rank_eq {x y : Binary64} (h : x.rank = y.rank) : x.isNaN = y.isNaN := by
  by_cases hzero : x.rank = 0
  · have hnumber : ∀ z : Binary64, z.rank = 0 → z.isNaN = false := by
      intro z hz
      have hmagnitude : z.magnitude = 0 := by
        unfold rank at hz
        split at hz <;> omega
      rw [isNaN, hmagnitude]
      rfl
    rw [hnumber x hzero, hnumber y (h ▸ hzero)]
  · rw [eq_of_rank_eq h hzero]

/-- Doubles are equal as numbers if they are equal but for the sign of zeros, and stand for
    numbers. -/
theorem equal_iff_unsigned {x y : Binary64} :
    x.equal y = true ↔ x.isNaN = false ∧ x.unsigned = y.unsigned := by
  rw [equal_iff, unsigned_eq_iff]
  constructor
  · exact fun h => ⟨h.1, h.2.2⟩
  · exact fun h => ⟨h.1, isNaN_eq_of_rank_eq h.2 ▸ h.1, h.2⟩

end Binary64

namespace Value

mutual

/-- Something in the value stands for no number. -/
def hasNaN : Value → Bool
  | float x => x.isNaN
  | list xs => elementsHaveNaN xs
  | map xs => entriesHaveNaN xs
  | _ => false
termination_by structural v => v

/-- Something in one of the elements stands for no number. -/
def elementsHaveNaN : List Value → Bool
  | [] => false
  | x :: xs => hasNaN x || elementsHaveNaN xs
termination_by structural xs => xs

/-- Something in one of the entries stands for no number. -/
def entriesHaveNaN : List (String × Value) → Bool
  | [] => false
  | (_, x) :: xs => hasNaN x || entriesHaveNaN xs
termination_by structural xs => xs

end

mutual

/-- The value with zeros that have no sign. -/
def keyForm : Value → Value
  | float x => float x.unsigned
  | list xs => list (elementsKeyForm xs)
  | map xs => map (entriesKeyForm xs)
  | v => v
termination_by structural v => v

/-- The forms of the elements. -/
def elementsKeyForm : List Value → List Value
  | [] => []
  | x :: xs => keyForm x :: elementsKeyForm xs
termination_by structural xs => xs

/-- The forms of the entries. -/
def entriesKeyForm : List (String × Value) → List (String × Value)
  | [] => []
  | (name, x) :: xs => (name, keyForm x) :: entriesKeyForm xs
termination_by structural xs => xs

end

mutual

/-- Values are the same if they have one key form and nothing in them stands for no number. -/
theorem same_iff (a b : Value) :
    same a b = true ↔ a.hasNaN = false ∧ a.keyForm = b.keyForm := by
  cases a <;> cases b <;>
    simp only [same, hasNaN, keyForm, reduceCtorEq, Bool.false_eq_true, and_false, true_and,
      string.injEq, integer.injEq, float.injEq, boolean.injEq, binary.injEq, list.injEq,
      map.injEq, beq_iff_eq]
  case float.float x y => exact Binary64.equal_iff_unsigned
  case list.list xs ys => exact sameElements_iff xs ys
  case map.map xs ys => exact sameEntries_iff xs ys
termination_by structural a

theorem sameElements_iff (xs ys : List Value) : sameElements xs ys = true ↔
    elementsHaveNaN xs = false ∧ elementsKeyForm xs = elementsKeyForm ys := by
  cases xs with
  | nil => cases ys <;> simp [sameElements, elementsHaveNaN, elementsKeyForm]
  | cons x xs =>
      cases ys with
      | nil => simp [sameElements, elementsKeyForm]
      | cons y ys =>
          rw [sameElements, elementsHaveNaN, elementsKeyForm, elementsKeyForm, Bool.and_eq_true,
            same_iff x y, sameElements_iff xs ys, Bool.or_eq_false_iff, List.cons.injEq]
          exact and_and_and_comm
termination_by structural xs

theorem sameEntries_iff (xs ys : List (String × Value)) : sameEntries xs ys = true ↔
    entriesHaveNaN xs = false ∧ entriesKeyForm xs = entriesKeyForm ys := by
  cases xs with
  | nil => rcases ys with _ | ⟨⟨_, _⟩, _⟩ <;> simp [sameEntries, entriesHaveNaN, entriesKeyForm]
  | cons x xs =>
      obtain ⟨name, x⟩ := x
      cases ys with
      | nil => simp [sameEntries, entriesKeyForm]
      | cons y ys =>
          obtain ⟨other, y⟩ := y
          rw [sameEntries, entriesHaveNaN, entriesKeyForm, entriesKeyForm, Bool.and_eq_true,
            Bool.and_eq_true, beq_iff_eq, same_iff x y, sameEntries_iff xs ys,
            Bool.or_eq_false_iff, List.cons.injEq, Prod.mk.injEq]
          constructor
          · exact fun ⟨⟨hname, hx, hform⟩, hxs, hforms⟩ => ⟨⟨hx, hxs⟩, ⟨hname, hform⟩, hforms⟩
          · exact fun ⟨⟨hx, hxs⟩, ⟨hname, hform⟩, hforms⟩ => ⟨⟨hname, hx, hform⟩, hxs, hforms⟩
termination_by structural xs

end

/-- Values that may be missing are the same if their key forms are equal, unless something in
    them stands for no number. -/
theorem sameOptional_iff (a b : Option Value) : sameOptional a b = true ↔
    (∀ v, a = some v → v.hasNaN = false) ∧ a.map keyForm = b.map keyForm := by
  cases a with
  | none => cases b <;> simp [sameOptional]
  | some a =>
      cases b with
      | none => simp [sameOptional]
      | some b => simp [sameOptional, same_iff]

end Value

end WideColumn
