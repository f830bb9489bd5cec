import WideColumn.Proofs.Binary64.Rounding

/-!
# Quotients of Counts

Dividing the double of one count by the double of another.

A count that is not zero becomes a double that is not zero, so dividing by it is no
division by zero, however large the count is. For counts of 64 bits the quotient is not
infinite either. Both doubles lie between one and two to the power of 64 or just above it,
and a quotient below two to the power of 65 is far from the last finite number.

## Main definitions

* `Binary64.IsQuotient`: The quotient of two counts, divided by no zero.

## Theorems

* `nearestMagnitude_lt_infinite`: Ratios whose nearest doubles are finite.
* `absRatio_ofNat`: Between which powers of two the doubles of counts lie.
* `isFinite_div_counts`: Quotients of counts are finite.
* `isQuotient_div`: Dividing by a count that is not zero is dividing by no zero.
-/

namespace WideColumn

namespace Binary64

/-- The double is the quotient of two counts that were taken to doubles. The divisor is no
    zero, and the quotient of counts of 64 bits is finite. -/
structure IsQuotient (x : Binary64) (a b : Nat) : Prop where
  divisor : (ofNat b).magnitude ≠ 0
  value : x = (ofNat a).div (ofNat b)
  finite : a < 0x10000000000000000 → b < 0x10000000000000000 → x.isFinite = true

theorem floorLog2_bounds (num den : Nat) :
    (Nat.log2 num : Int) - Nat.log2 den - 1 ≤ floorLog2 num den ∧
      floorLog2 num den ≤ (Nat.log2 num : Int) - Nat.log2 den := by
  unfold floorLog2
  dsimp only
  split <;> omega

/-- A ratio below two to the power of 65 is rounded to a finite number. -/
theorem nearestMagnitude_lt_infinite {num den : Nat} (hden : den ≠ 0)
    (h : num < Nat.pow 2 65 * den) : nearestMagnitude num den < infiniteMagnitude := by
  by_cases hnum : num = 0
  · have hinfinite : 0 < infiniteMagnitude := by decide
    rw [hnum]
    exact hinfinite
  have hfirst : Nat.log2 num < 65 + (Nat.log2 den + 1) := by
    rw [Nat.log2_lt hnum, Nat.pow_add]
    exact Nat.lt_trans h (Nat.mul_lt_mul_of_pos_left Nat.lt_log2_self (Nat.two_pow_pos 65))
  have hfloor := floorLog2_bounds num den
  unfold nearestMagnitude
  dsimp only
  rw [if_neg hnum]
  generalize hplace : max (floorLog2 num den - 52) (-1074) = place
  -- The place is known up to one, so the significand has 54 places instead of 53.
  have hunits : roundHalfEven (num * Nat.pow 2 (-place).toNat) (den * Nat.pow 2 place.toNat) ≤
      2 ^ 54 := roundHalfEven_le_two_pow hden (by omega)
  have hfield : (place + 1074).toNat * fractions ≤ 1087 * fractions :=
    Nat.mul_le_mul_right _ (by omega)
  have hroom : 1087 * fractions + 2 ^ 54 < infiniteMagnitude := by decide
  exact Nat.lt_of_le_of_lt (Nat.min_le_right _ _)
    (Nat.lt_of_le_of_lt (Nat.add_le_add hfield hunits) hroom)

theorem absRatio_den_pos (x : Binary64) : 0 < x.absRatio.2 :=
  Nat.two_pow_pos _

/-- The double of a count is not below one and hardly above two to the power of 64. -/
theorem absRatio_ofNat {n : Nat} (hn : n ≠ 0) (hcount : n < 0x10000000000000000) :
    (ofNat n).absRatio.2 ≤ (ofNat n).absRatio.1 ∧
      (ofNat n).absRatio.1 < Nat.pow 2 65 * (ofNat n).absRatio.2 := by
  have hbounds := nearestMagnitude_count hn hcount
  rw [← magnitude_ofRatio false, ← ofNat] at hbounds
  generalize ofNat n = x at hbounds
  have hpos : 0 < fractions := by decide
  have hlow : 1023 ≤ x.magnitude / fractions := (Nat.le_div_iff_mul_le hpos).mpr hbounds.1
  have hhigh : x.magnitude / fractions ≤ 1087 := Nat.div_le_of_le_mul (by omega)
  have hnormal : ¬ x.magnitude < fractions := by omega
  have hexponent : x.exponent = (x.magnitude / fractions : Nat) - 1075 := if_neg hnormal
  have hsignificand : fractions ≤ x.significand ∧ x.significand < 2 ^ 53 := by
    have hrest := Nat.mod_lt x.magnitude hpos
    have htwice : fractions + fractions = 2 ^ 53 := by decide
    rw [significand, if_neg hnormal]
    omega
  have hup : 2 ^ x.exponent.toNat ≤ 2 ^ 12 := Nat.pow_le_pow_right Nat.two_pos (by omega)
  have hdown : 2 ^ (-x.exponent).toNat ≤ 2 ^ 52 := Nat.pow_le_pow_right Nat.two_pos (by omega)
  have hupPos : 0 < 2 ^ x.exponent.toNat := Nat.two_pow_pos _
  have hdownPos : 0 < 2 ^ (-x.exponent).toNat := Nat.two_pow_pos _
  change 2 ^ (-x.exponent).toNat ≤ x.significand * 2 ^ x.exponent.toNat ∧
    x.significand * 2 ^ x.exponent.toNat < 2 ^ 65 * 2 ^ (-x.exponent).toNat
  constructor
  · exact Nat.le_trans (Nat.le_trans hdown hsignificand.1) (Nat.le_mul_of_pos_right _ hupPos)
  · calc x.significand * 2 ^ x.exponent.toNat < 2 ^ 53 * 2 ^ x.exponent.toNat :=
          Nat.mul_lt_mul_of_pos_right hsignificand.2 hupPos
      _ ≤ 2 ^ 53 * 2 ^ 12 := Nat.mul_le_mul_left _ hup
      _ ≤ 2 ^ 65 * 2 ^ (-x.exponent).toNat := Nat.le_mul_of_pos_right _ hdownPos

theorem absRatio_ofNat_lt {n : Nat} (hcount : n < 0x10000000000000000) :
    (ofNat n).absRatio.1 < Nat.pow 2 65 * (ofNat n).absRatio.2 := by
  by_cases hn : n = 0
  · rw [hn]
    exact Nat.mul_pos (Nat.two_pow_pos 65) (absRatio_den_pos _)
  · exact (absRatio_ofNat hn hcount).2

/-- Quotients of counts are finite. -/
theorem isFinite_div_counts {a b : Nat} (ha : a < 0x10000000000000000) (hb : b ≠ 0)
    (hcount : b < 0x10000000000000000) : ((ofNat a).div (ofNat b)).isFinite = true := by
  have hnumber : ∀ n, (ofNat n).isNaN = false := fun n => isNaN_ofRatio false n 1
  have hratio : (ofNat a).absRatio.1 * (ofNat b).absRatio.2 <
      2 ^ 65 * ((ofNat a).absRatio.2 * (ofNat b).absRatio.1) := by
    rcases absRatio_ofNat hb hcount with ⟨hle, _⟩
    have hpos : 0 < (ofNat b).absRatio.1 := Nat.lt_of_lt_of_le (absRatio_den_pos _) hle
    calc (ofNat a).absRatio.1 * (ofNat b).absRatio.2
        ≤ (ofNat a).absRatio.1 * (ofNat b).absRatio.1 := Nat.mul_le_mul_left _ hle
      _ < 2 ^ 65 * (ofNat a).absRatio.2 * (ofNat b).absRatio.1 :=
          Nat.mul_lt_mul_of_pos_right (absRatio_ofNat_lt ha) hpos
      _ = 2 ^ 65 * ((ofNat a).absRatio.2 * (ofNat b).absRatio.1) := Nat.mul_assoc _ _ _
  have hden : (ofNat a).absRatio.2 * (ofNat b).absRatio.1 ≠ 0 := fun heq => by
    rw [heq, Nat.mul_zero] at hratio
    exact Nat.not_lt_zero _ hratio
  unfold div
  dsimp only
  rw [hnumber, hnumber, Bool.or_false, if_neg Bool.false_ne_true,
    if_neg (magnitude_ofNat_ne_zero hb), isFinite_ofNat_of_lt hcount, isFinite_ofNat_of_lt ha,
    Bool.not_true, if_neg Bool.false_ne_true, if_neg Bool.false_ne_true, isFinite,
    magnitude_ofRatio]
  exact decide_eq_true (nearestMagnitude_lt_infinite hden hratio)

/-- Dividing by a count that is not zero is dividing by no zero. -/
theorem isQuotient_div (a : Nat) {b : Nat} (hb : b ≠ 0) :
    ((ofNat a).div (ofNat b)).IsQuotient a b :=
  ⟨magnitude_ofNat_ne_zero hb, rfl, fun ha hcount => isFinite_div_counts ha hb hcount⟩

end Binary64

end WideColumn
