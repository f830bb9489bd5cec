import WideColumn.Binary64.Rounding

/-!
# Results of Rounding

Which results of the arithmetic of doubles are numbers.

Rounding itself always gives one: a magnitude is cut back to infinity and never goes
beyond it. So a product or a quotient can only fail to be a number where the exact result
is undefined, at zero by zero or where infinity meets infinity or zero.

Counts do not get there. A natural number is rounded to the 53 places from its first bit on.
Unless it is zero that bit is somewhere, so its double is no zero, however large it is. A
natural number of 64 bits has its first bit in one of 64 places, so its double has an exponent
in the middle of the range and is not infinite either. Dividing by the double of a count that
is not zero, and multiplying with a finite one that is no zero, is always defined.

## Main definitions

* `Binary64.unitsOf`: The significand of a natural number.

## Theorems

* `roundHalfEven_le`, `div_le_roundHalfEven`: Rounding to an integer goes up by one at most,
  and not down.
* `roundHalfEven_le_two_pow`: How many places a rounded quotient has.
* `floorLog2_one`: The place of the first bit of a natural number.
* `nearestMagnitude_one`: The nearest double of a natural number, by its first bit.
* `nearestMagnitude_count`: The nearest double of a count is in the middle of the range.
* `magnitude_ofNat_ne_zero`: No natural number but zero becomes a zero.
* `isFinite_ofNat_of_lt`: Counts become finite doubles.
* `isNaN_ofRatio`: Rounding gives a number.
* `isNaN_div_count`: So does division by a count.
* `isNaN_mul_finite`: And so does multiplication with a finite number but zero.
-/

namespace WideColumn

theorem roundHalfEven_le (num den : Nat) : roundHalfEven num den ≤ num / den + 1 := by
  unfold roundHalfEven
  have hparity := Nat.mod_lt (num / den) Nat.two_pos
  dsimp only
  split
  · omega
  · split <;> omega

theorem div_le_roundHalfEven (num den : Nat) : num / den ≤ roundHalfEven num den := by
  unfold roundHalfEven
  dsimp only
  split
  · exact Nat.le_refl _
  · split <;> omega

-- The guess of the logarithm is exact over the denominator one.
theorem floorLog2_one {n : Nat} (hn : n ≠ 0) : floorLog2 n 1 = Nat.log2 n := by
  have hone : Nat.log2 1 = 0 := by decide
  have hself : Nat.pow 2 (Nat.log2 n) ≤ n := Nat.log2_self_le hn
  have hdown : (-((Nat.log2 n : Int) - (0 : Nat))).toNat = 0 := by omega
  have hup : ((Nat.log2 n : Int) - (0 : Nat)).toNat = Nat.log2 n := by omega
  have hzero : Nat.pow 2 0 = 1 := rfl
  unfold floorLog2
  dsimp only
  rw [hone, hdown, hup, hzero, Nat.mul_one, Nat.one_mul, if_neg (Nat.not_lt_of_ge hself)]
  omega

-- A scaled quotient with that many places carries into one more at most when it is rounded.
theorem roundHalfEven_le_two_pow {num den up down places : Nat} (hden : den ≠ 0)
    (h : up + (Nat.log2 num + 1) ≤ down + (Nat.log2 den + places)) :
    roundHalfEven (num * Nat.pow 2 up) (den * Nat.pow 2 down) ≤ Nat.pow 2 places := by
  have hnum : num < 2 ^ (Nat.log2 num + 1) := Nat.lt_log2_self
  have hself : 2 ^ Nat.log2 den ≤ den := Nat.log2_self_le hden
  have hscaled : num * 2 ^ up < den * 2 ^ down * 2 ^ places := by
    calc num * 2 ^ up < 2 ^ (Nat.log2 num + 1) * 2 ^ up :=
          Nat.mul_lt_mul_of_pos_right hnum (Nat.two_pow_pos up)
      _ = 2 ^ (up + (Nat.log2 num + 1)) := by rw [Nat.mul_comm, ← Nat.pow_add]
      _ ≤ 2 ^ (down + (Nat.log2 den + places)) := Nat.pow_le_pow_right Nat.two_pos h
      _ = 2 ^ Nat.log2 den * 2 ^ down * 2 ^ places := by
          rw [Nat.mul_comm (2 ^ Nat.log2 den), ← Nat.pow_add, ← Nat.pow_add, Nat.add_assoc]
      _ ≤ den * 2 ^ down * 2 ^ places :=
          Nat.mul_le_mul_right _ (Nat.mul_le_mul_right _ hself)
  have hquotient : num * 2 ^ up / (den * 2 ^ down) < 2 ^ places := Nat.div_lt_of_lt_mul hscaled
  exact Nat.le_trans (roundHalfEven_le _ _) hquotient

namespace Binary64

/-- A natural number in units of the place 52 under its first bit. -/
def unitsOf (n : Nat) : Nat :=
  roundHalfEven (n * Nat.pow 2 (-((Nat.log2 n : Int) - 52)).toNat)
    (1 * Nat.pow 2 ((Nat.log2 n : Int) - 52).toNat)

theorem nearestMagnitude_one {n : Nat} (hn : n ≠ 0) :
    nearestMagnitude n 1 =
      min infiniteMagnitude ((Nat.log2 n + 1022) * fractions + unitsOf n) := by
  have hplace : max ((Nat.log2 n : Int) - 52) (-1074) = (Nat.log2 n : Int) - 52 := by omega
  have hfield : ((Nat.log2 n : Int) - 52 + 1074).toNat = Nat.log2 n + 1022 := by omega
  unfold nearestMagnitude unitsOf
  dsimp only
  rw [if_neg hn, floorLog2_one hn, hplace, hfield]

-- The significand of a natural number has 53 places, and rounding carries once at most.
theorem unitsOf_le (n : Nat) : unitsOf n ≤ 2 * fractions := by
  have hone : Nat.log2 1 = 0 := by decide
  have hplaces : (-((Nat.log2 n : Int) - 52)).toNat + (Nat.log2 n + 1) ≤
      ((Nat.log2 n : Int) - 52).toNat + (Nat.log2 1 + 53) := by omega
  exact roundHalfEven_le_two_pow Nat.one_ne_zero hplaces

-- Its first place is taken.
theorem fractions_le_unitsOf {n : Nat} (hn : n ≠ 0) : fractions ≤ unitsOf n := by
  have hself : 2 ^ Nat.log2 n ≤ n := Nat.log2_self_le hn
  unfold unitsOf
  generalize hup : (-((Nat.log2 n : Int) - 52)).toNat = up
  generalize hdown : ((Nat.log2 n : Int) - 52).toNat = down
  have hplaces : 52 + down = Nat.log2 n + up := by omega
  have hscaled : 2 ^ 52 * 2 ^ down ≤ n * 2 ^ up := by
    calc 2 ^ 52 * 2 ^ down = 2 ^ Nat.log2 n * 2 ^ up := by
          rw [← Nat.pow_add, ← Nat.pow_add, hplaces]
      _ ≤ n * 2 ^ up := Nat.mul_le_mul_right _ hself
  have hquotient : 2 ^ 52 ≤ n * 2 ^ up / (1 * 2 ^ down) := by
    rw [Nat.one_mul]
    exact (Nat.le_div_iff_mul_le (Nat.two_pow_pos down)).mpr hscaled
  exact Nat.le_trans hquotient (div_le_roundHalfEven _ _)

/-- The nearest double of a count is in the middle of the range. -/
theorem nearestMagnitude_count {n : Nat} (hn : n ≠ 0) (hcount : n < 0x10000000000000000) :
    1023 * fractions ≤ nearestMagnitude n 1 ∧ nearestMagnitude n 1 ≤ 1087 * fractions := by
  have hfirst : Nat.log2 n < 64 := (Nat.log2_lt hn).mpr hcount
  have hlow := fractions_le_unitsOf hn
  have hhigh := unitsOf_le n
  have hfield : 1022 * fractions ≤ (Nat.log2 n + 1022) * fractions ∧
      (Nat.log2 n + 1022) * fractions ≤ 1085 * fractions :=
    ⟨Nat.mul_le_mul_right _ (by omega), Nat.mul_le_mul_right _ (by omega)⟩
  have hroom : 1087 * fractions ≤ infiniteMagnitude := by decide
  rw [nearestMagnitude_one hn]
  omega

-- A magnitude up to infinity is packed as it is.
theorem magnitude_ofMagnitude (negative : Bool) {m : Nat} (h : m ≤ infiniteMagnitude) :
    (ofMagnitude negative m).magnitude = m := by
  rw [infiniteMagnitude, fractions] at h
  unfold ofMagnitude magnitude
  rw [UInt64.toNat_ofNat', signBit]
  cases negative with
  | false =>
      rw [if_neg Bool.false_ne_true]
      omega
  | true =>
      rw [if_pos rfl]
      omega

theorem isNaN_ofMagnitude (negative : Bool) {m : Nat} (h : m ≤ infiniteMagnitude) :
    (ofMagnitude negative m).isNaN = false := by
  rw [isNaN, magnitude_ofMagnitude negative h]
  exact decide_eq_false (Nat.not_lt_of_ge h)

theorem nearestMagnitude_le (num den : Nat) : nearestMagnitude num den ≤ infiniteMagnitude := by
  unfold nearestMagnitude
  dsimp only
  split
  · exact Nat.zero_le infiniteMagnitude
  · exact Nat.min_le_left _ _

theorem magnitude_ofRatio (negative : Bool) (num den : Nat) :
    (ofRatio negative num den).magnitude = nearestMagnitude num den :=
  magnitude_ofMagnitude negative (nearestMagnitude_le num den)

/-- Rounding gives a number. -/
theorem isNaN_ofRatio (negative : Bool) (num den : Nat) :
    (ofRatio negative num den).isNaN = false :=
  isNaN_ofMagnitude negative (nearestMagnitude_le num den)

theorem isNaN_infinity (negative : Bool) : (infinity negative).isNaN = false :=
  isNaN_ofMagnitude negative (Nat.le_refl infiniteMagnitude)

/-- No natural number but zero becomes a zero. -/
theorem magnitude_ofNat_ne_zero {n : Nat} (hn : n ≠ 0) : (ofNat n).magnitude ≠ 0 := by
  have hunits := fractions_le_unitsOf hn
  have hpos : 0 < fractions := by decide
  have hinfinite : 0 < infiniteMagnitude := by decide
  rw [ofNat, magnitude_ofRatio, nearestMagnitude_one hn]
  exact Nat.ne_of_gt (Nat.lt_min.mpr ⟨hinfinite, by omega⟩)

/-- The nearest double of a natural number of 64 bits is finite. -/
theorem isFinite_ofNat_of_lt {n : Nat} (h : n < 0x10000000000000000) :
    (ofNat n).isFinite = true := by
  rw [isFinite, ofNat, magnitude_ofRatio]
  by_cases hn : n = 0
  · rw [hn]
    rfl
  · have hroom : 1087 * fractions < infiniteMagnitude := by decide
    exact decide_eq_true (Nat.lt_of_le_of_lt (nearestMagnitude_count hn h).2 hroom)

/-- Dividing by a count that is not zero gives a number. -/
theorem isNaN_div_count {x : Binary64} (hx : x.isNaN = false) {n : Nat} (hn : n ≠ 0)
    (hcount : n < 0x10000000000000000) : (x.div (ofNat n)).isNaN = false := by
  have hfinite := isFinite_ofNat_of_lt hcount
  have hnumber : (ofNat n).isNaN = false := isNaN_ofRatio false n 1
  unfold div
  dsimp only
  rw [hx, hnumber, Bool.or_false, if_neg Bool.false_ne_true, if_neg (magnitude_ofNat_ne_zero hn),
    hfinite, Bool.not_true, if_neg Bool.false_ne_true]
  by_cases hinfinite : x.isFinite = true
  · rw [hinfinite, Bool.not_true, if_neg Bool.false_ne_true]
    exact isNaN_ofRatio _ _ _
  · rw [Bool.not_eq_true] at hinfinite
    rw [hinfinite, Bool.not_false, if_pos rfl]
    exact isNaN_infinity _

/-- Multiplying with a finite number that is no zero gives a number. -/
theorem isNaN_mul_finite {x y : Binary64} (hx : x.isNaN = false) (hfinite : y.isFinite = true)
    (hzero : y.magnitude ≠ 0) : (x.mul y).isNaN = false := by
  have hlt : y.magnitude < infiniteMagnitude := of_decide_eq_true hfinite
  have hnumber : y.isNaN = false := decide_eq_false (Nat.not_lt_of_gt hlt)
  unfold mul
  dsimp only
  rw [hx, hnumber, Bool.or_false, if_neg Bool.false_ne_true, hfinite, Bool.and_true]
  by_cases hinfinite : x.isFinite = true
  · rw [if_pos hinfinite]
    exact isNaN_ofRatio _ _ _
  · -- An infinite number is no zero either.
    have hleft : x.magnitude ≠ 0 := fun heq => hinfinite (by
      rw [isFinite, heq]
      rfl)
    rw [if_neg hinfinite, if_neg]
    · exact isNaN_infinity _
    · rw [Bool.or_eq_true, decide_eq_true_eq, decide_eq_true_eq, not_or]
      exact ⟨hleft, hzero⟩

end Binary64

end WideColumn
