import WideColumn.Proofs.Binary64.Rounding

/-!
# Rounding and Order

Going from integers to doubles keeps their order.

Integers that are too far from zero share doubles, so the order is kept in the weak
sense only: an integer that is not above another one does not come to lie above it. Two
cases make up the argument for natural numbers. Where the first bits of both are in one
place they are rounded to the same units, and rounding to an integer is monotone. Where
they are not, the smaller number may be rounded up to the next power of two and no
further, and the greater one is not below that power.

## Theorems

* `roundHalfEven_mono`: Rounding to an integer keeps the order.
* `nearestMagnitude_mono`: Rounding natural numbers to doubles keeps the order.
* `rank_ofInt_mono`: Rounding integers to doubles keeps the order.
-/

namespace WideColumn

/-- Rounding to an integer keeps the order. -/
theorem roundHalfEven_mono {a b : Nat} (den : Nat) (h : a ≤ b) :
    roundHalfEven a den ≤ roundHalfEven b den := by
  have hdiv : a / den ≤ b / den := Nat.div_le_div_right h
  by_cases hfloor : a / den = b / den
  · -- With one floor for both, what is left over decides.
    have hrest : a % den ≤ b % den := by
      have ha := Nat.div_add_mod a den
      have hb := Nat.div_add_mod b den
      rw [hfloor] at ha
      omega
    have hparity := Nat.mod_lt (b / den) Nat.two_pos
    unfold roundHalfEven
    dsimp only
    rw [hfloor]
    repeat' split
    all_goals omega
  · have hup := roundHalfEven_le a den
    have hdown := div_le_roundHalfEven b den
    omega

namespace Binary64

/-- Rounding natural numbers to doubles keeps the order. -/
theorem nearestMagnitude_mono {m n : Nat} (h : m ≤ n) :
    nearestMagnitude m 1 ≤ nearestMagnitude n 1 := by
  by_cases hm : m = 0
  · rw [hm]
    exact Nat.zero_le _
  have hn : n ≠ 0 := by omega
  rw [nearestMagnitude_one hm, nearestMagnitude_one hn]
  refine Nat.le_min.mpr ⟨Nat.min_le_left _ _, Nat.le_trans (Nat.min_le_right _ _) ?_⟩
  have hbits : Nat.log2 m ≤ Nat.log2 n :=
    (Nat.le_log2 hn).mpr (Nat.le_trans (Nat.log2_self_le hm) h)
  rcases Nat.lt_or_eq_of_le hbits with hlt | heq
  · -- The first bits are in different places, and the smaller number carries once at most.
    have hlow := unitsOf_le m
    have hhigh := fractions_le_unitsOf hn
    have hfield : (Nat.log2 m + 1 + 1022) * fractions ≤ (Nat.log2 n + 1022) * fractions :=
      Nat.mul_le_mul_right _ (by omega)
    rw [Nat.add_right_comm, Nat.succ_mul] at hfield
    omega
  · unfold unitsOf
    rw [heq]
    exact Nat.add_le_add_left (roundHalfEven_mono _ (Nat.mul_le_mul_right _ h)) _

-- The sign that is packed is the sign that is read.
theorem rank_ofMagnitude (negative : Bool) {m : Nat} (h : m ≤ infiniteMagnitude) :
    (ofMagnitude negative m).rank = if negative then -(m : Int) else m := by
  have hsign : (ofMagnitude negative m).isNegative = negative := by
    rw [infiniteMagnitude, fractions] at h
    unfold ofMagnitude isNegative
    rw [UInt64.toNat_ofNat', signBit]
    cases negative with
    | false =>
        rw [if_neg Bool.false_ne_true]
        exact decide_eq_false (by omega)
    | true =>
        rw [if_pos rfl]
        exact decide_eq_true (by omega)
  rw [rank, hsign, magnitude_ofMagnitude negative h]

theorem rank_ofInt (i : Int) :
    (ofInt i).rank = if i < 0 then -(nearestMagnitude i.natAbs 1 : Int)
      else nearestMagnitude i.natAbs 1 := by
  rw [ofInt, ofRatio, rank_ofMagnitude _ (nearestMagnitude_le _ _)]
  simp only [decide_eq_true_eq]

theorem isNaN_ofInt (i : Int) : (ofInt i).isNaN = false :=
  isNaN_ofRatio _ _ _

/-- Rounding integers to doubles keeps the order. -/
theorem rank_ofInt_mono {i j : Int} (h : i ≤ j) : (ofInt i).rank ≤ (ofInt j).rank := by
  rw [rank_ofInt, rank_ofInt]
  by_cases hi : i < 0
  · rw [if_pos hi]
    by_cases hj : j < 0
    · have hmono : nearestMagnitude j.natAbs 1 ≤ nearestMagnitude i.natAbs 1 :=
        nearestMagnitude_mono (by omega)
      rw [if_pos hj]
      omega
    · rw [if_neg hj]
      omega
  · have hmono : nearestMagnitude i.natAbs 1 ≤ nearestMagnitude j.natAbs 1 :=
      nearestMagnitude_mono (by omega)
    have hj : ¬ j < 0 := by omega
    rw [if_neg hi, if_neg hj]
    omega

end Binary64

end WideColumn
