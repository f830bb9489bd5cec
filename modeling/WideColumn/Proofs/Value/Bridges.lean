import WideColumn.Proofs.Binary64.Monotone
import WideColumn.Proofs.Value.Place
import WideColumn.Proofs.Value.Same

/-!
# Where the Order of Values Breaks

The triples of values for which the order of scans is not transitive.

The order is oriented for all values, so nothing but transitivity can fail, and that only
with a double in the middle. A double that stands for no number ties with all numbers, so
it leads from any number down to any smaller one. And an integer goes to its nearest double
before it is compared with one, so two integers that differ may both tie with the double
between them. `Bridges` names these two cases, and `breaks_iff` says that there is no third.

Values of different types are no part of this, since the type decides first, and values of
one type that is not the number type have places. For numbers the argument is that they
stand in the order of their doubles. Rounding keeps that order, so an integer among doubles
does no harm at either end, and no harm in the middle either.

## Main definitions

* `Value.nearest?`: The double of a number.
* `Value.Bridges`: A double ties with two values that are apart.
* `Value.Breaks`: Three values for which the order is not transitive.

## Theorems

* `keyOrder_self`: Every value ties with itself.
* `typeRank_le_of_keyOrder`: The type decides first.
* `rank_nearest_le`: Numbers stand in the order of their doubles.
* `bridges_of_keyOrder`: What a triple of numbers looks like that breaks the order.
* `breaks_iff`: The order is transitive but for bridges.
-/

namespace WideColumn

theorem Binary64.compare?_eq_some_iff {x y : Binary64} {o : Ordering} :
    x.compare? y = some o ↔
      x.isNaN = false ∧ y.isNaN = false ∧ compare x.rank y.rank = o := by
  unfold compare?
  cases hx : x.isNaN <;> cases hy : y.isNaN <;> simp

theorem Binary64.compare?_eq_none_iff {x y : Binary64} :
    x.compare? y = none ↔ (x.isNaN || y.isNaN) = true := by
  unfold compare?
  cases x.isNaN || y.isNaN <;> simp

namespace Value

/-- Every value ties with itself. -/
theorem keyOrder_self (a : Option Value) : keyOrder a a = .eq := by
  have hswap := keyOrder_swap a a
  cases h : keyOrder a a with
  | eq => rfl
  | lt => rw [h] at hswap; exact absurd hswap (by decide)
  | gt => rw [h] at hswap; exact absurd hswap (by decide)

/-- The double of a number: its own, or the nearest one of an integer. -/
def nearest? : Value → Option Binary64
  | integer i => some (Binary64.ofInt i.toInt)
  | float x => some x
  | _ => none

/-- A double ties with two values although the first is above the second. -/
inductive Bridges (x : Binary64) : Value → Value → Prop
  /-- What stands for no number ties with every number. -/
  | unordered {a c : Value} : x.isNaN = true → a.type = .number → a.compare? c = some .gt →
      Bridges x a c
  /-- Two integers are rounded to the one double. -/
  | rounded {i j : Int64} : j.toInt < i.toInt → (Binary64.ofInt i.toInt).equal x = true →
      (Binary64.ofInt j.toInt).equal x = true → Bridges x (integer i) (integer j)

/-- The order leads from the first value over the second to the third, and not from the
    first to the third: the second is a double between them. -/
def Breaks (a b c : Option Value) : Prop :=
  ∃ v x w, a = some v ∧ b = some (float x) ∧ c = some w ∧ Bridges x v w

/-- The type decides first. -/
theorem typeRank_le_of_keyOrder {a b : Value} (h : keyOrder (some a) (some b) ≠ .gt) :
    a.typeRank ≤ b.typeRank := by
  by_cases hle : a.typeRank ≤ b.typeRank
  · exact hle
  · have hne : a.typeRank ≠ b.typeRank := by omega
    rw [keyOrder, compare?_of_typeRank_ne hne, Option.getD_none] at h
    exact absurd (Nat.compare_eq_gt.mpr (by omega)) h

theorem type_of_typeRank_eq {a b : Value} (h : a.typeRank = b.typeRank) : a.type = b.type := by
  cases a <;> cases b <;> simp only [typeRank, type, reduceCtorEq] at h ⊢ <;> omega

theorem exists_nearest? {a : Value} (h : a.type = .number) : ∃ x, a.nearest? = some x := by
  cases a <;> simp only [type, reduceCtorEq] at h
  case integer i => exact ⟨_, rfl⟩
  case float x => exact ⟨x, rfl⟩

-- Two integers are compared themselves, and all other numbers by their doubles.
theorem compare?_numbers {a b : Value} {x y : Binary64} (ha : a.nearest? = some x)
    (hb : b.nearest? = some y) :
    (∃ i j, a = integer i ∧ b = integer j ∧ x = Binary64.ofInt i.toInt ∧
      y = Binary64.ofInt j.toInt) ∨ a.compare? b = x.compare? y := by
  cases a <;> simp only [nearest?, Option.some.injEq, reduceCtorEq] at ha <;>
    cases b <;> simp only [nearest?, Option.some.injEq, reduceCtorEq] at hb
  case integer.integer i j => exact Or.inl ⟨i, j, rfl, rfl, ha.symm, hb.symm⟩
  all_goals exact Or.inr (by rw [← ha, ← hb]; rfl)

theorem type_of_nearest? {a : Value} {x : Binary64} (h : a.nearest? = some x) :
    a.type = .number := by
  cases a <;> simp only [nearest?, reduceCtorEq] at h <;> rfl

-- Where one of two numbers stands for none, they tie.
theorem keyOrder_eq_of_unordered {a b : Value} (htype : a.type = b.type)
    (h : a.compare? b = none) : keyOrder (some a) (some b) = .eq := by
  rw [keyOrder, h, Option.getD_none, typeRank, typeRank, htype]
  exact Nat.compare_eq_eq.mpr rfl

section

variable {a b : Value} {x y : Binary64} (ha : a.nearest? = some x) (hb : b.nearest? = some y)

include ha hb

/-- Numbers stand in the order of their doubles. -/
theorem rank_nearest_le (hx : x.isNaN = false) (hy : y.isNaN = false)
    (h : keyOrder (some a) (some b) ≠ .gt) : x.rank ≤ y.rank := by
  rcases compare?_numbers ha hb with ⟨i, j, rfl, rfl, rfl, rfl⟩ | hcompare
  · have hle : i.toInt ≤ j.toInt := Int.compare_ne_gt.mp h
    exact Binary64.rank_ofInt_mono hle
  · have hsome : a.compare? b = some (compare x.rank y.rank) := by
      rw [hcompare, Binary64.compare?, hx, hy]
      rfl
    rw [keyOrder, hsome, Option.getD_some] at h
    exact Int.compare_ne_gt.mp h

-- What is above another number has a greater double, if it is not an integer beside an
-- integer.
theorem rank_nearest_lt (h : keyOrder (some a) (some b) = .gt) :
    (∃ i j, a = integer i ∧ b = integer j ∧ j.toInt < i.toInt) ∨ y.rank < x.rank := by
  rcases compare?_numbers ha hb with ⟨i, j, rfl, rfl, rfl, rfl⟩ | hcompare
  · exact Or.inl ⟨i, j, rfl, rfl, Int.compare_eq_gt.mp h⟩
  · refine Or.inr ?_
    cases hxy : x.compare? y with
    | none =>
        rw [keyOrder_eq_of_unordered
          ((type_of_nearest? ha).trans (type_of_nearest? hb).symm) (hcompare.trans hxy)] at h
        exact absurd h (by decide)
    | some o =>
        rw [keyOrder, hcompare, hxy, Option.getD_some] at h
        rw [h] at hxy
        exact Int.compare_eq_gt.mp (Binary64.compare?_eq_some_iff.mp hxy).2.2

end

-- A value that is above another one of its type compares with it.
theorem compare?_eq_gt {a c : Value} (htype : a.type = c.type)
    (h : keyOrder (some a) (some c) = .gt) : a.compare? c = some .gt := by
  cases hcompare : a.compare? c with
  | none =>
      rw [keyOrder_eq_of_unordered htype hcompare] at h
      exact absurd h (by decide)
  | some o =>
      rw [keyOrder, hcompare, Option.getD_some] at h
      rw [h]

/-- What a triple of numbers looks like that breaks the order. -/
theorem bridges_of_keyOrder {a b c : Value} {x y z : Binary64} (ha : a.nearest? = some x)
    (hb : b.nearest? = some y) (hc : c.nearest? = some z)
    (hab : keyOrder (some a) (some b) ≠ .gt) (hbc : keyOrder (some b) (some c) ≠ .gt)
    (hac : keyOrder (some a) (some c) = .gt) : ∃ m, b = float m ∧ Bridges m a c := by
  have htype := (type_of_nearest? ha).trans (type_of_nearest? hc).symm
  have hcompare := compare?_eq_gt htype hac
  cases hnan : y.isNaN with
  | true =>
      -- Only a double stands for no number.
      cases b with
      | integer k =>
          rw [nearest?, Option.some.injEq] at hb
          rw [← hb, Binary64.isNaN_ofInt] at hnan
          exact absurd hnan (by decide)
      | float m =>
          rw [nearest?, Option.some.injEq] at hb
          exact ⟨m, rfl, .unordered (hb ▸ hnan) (type_of_nearest? ha) hcompare⟩
      | _ => exact absurd hb (by simp only [nearest?, reduceCtorEq, not_false_eq_true])
  | false =>
      have hends : x.isNaN = false ∧ z.isNaN = false := by
        rcases compare?_numbers ha hc with ⟨i, j, _, _, rfl, rfl⟩ | hdoubles
        · exact ⟨Binary64.isNaN_ofInt _, Binary64.isNaN_ofInt _⟩
        · have hgt := Binary64.compare?_eq_some_iff.mp (hdoubles.symm.trans hcompare)
          exact ⟨hgt.1, hgt.2.1⟩
      have hxy := rank_nearest_le ha hb hends.1 hnan hab
      have hyz := rank_nearest_le hb hc hnan hends.2 hbc
      rcases rank_nearest_lt ha hc hac with ⟨i, j, rfl, rfl, hlt⟩ | hlt
      · cases b with
        | integer k =>
            have hik : i.toInt ≤ k.toInt := Int.compare_ne_gt.mp hab
            have hkj : k.toInt ≤ j.toInt := Int.compare_ne_gt.mp hbc
            omega
        | float m =>
            obtain rfl := Option.some.inj ha
            obtain rfl := Option.some.inj hb
            obtain rfl := Option.some.inj hc
            have hji := Binary64.rank_ofInt_mono (Int.le_of_lt hlt)
            refine ⟨m, rfl, .rounded hlt ?_ ?_⟩
            · exact (Binary64.equal_iff _ _).mpr ⟨hends.1, hnan, by omega⟩
            · exact (Binary64.equal_iff _ _).mpr ⟨hends.2, hnan, by omega⟩
        | _ => exact absurd hb (by simp only [nearest?, reduceCtorEq, not_false_eq_true])
      · omega

-- A bridge ties with both of its ends.
theorem Bridges.keyOrder {x : Binary64} {a c : Value} (h : Bridges x a c) :
    Value.keyOrder (some a) (some (float x)) = .eq ∧
      Value.keyOrder (some (float x)) (some c) = .eq ∧
      Value.keyOrder (some a) (some c) = .gt := by
  cases h with
  | unordered hnan htype hcompare =>
      have hother : c.type = .number := by
        cases a <;> cases c <;> simp only [type, compare?, reduceCtorEq] at htype hcompare ⊢
      have hleft : a.compare? (float x) = none := by
        cases a <;> simp only [type, reduceCtorEq] at htype <;>
          simp only [compare?, Binary64.compare?, hnan, Bool.or_true, if_true]
      have hright : (float x).compare? c = none := by
        cases c <;> simp only [type, reduceCtorEq] at hother <;>
          simp only [compare?, Binary64.compare?, hnan, Bool.true_or, if_true]
      refine ⟨keyOrder_eq_of_unordered htype hleft, keyOrder_eq_of_unordered hother.symm hright, ?_⟩
      rw [Value.keyOrder, hcompare, Option.getD_some]
  | @rounded i j hlt hi hj =>
      rw [Binary64.equal_comm, Binary64.equal, beq_iff_eq] at hj
      rw [Binary64.equal, beq_iff_eq] at hi
      have hleft : (integer i).compare? (float x) = some .eq := hi
      have hright : (float x).compare? (integer j) = some .eq := hj
      refine ⟨?_, ?_, Int.compare_eq_gt.mpr hlt⟩
      · rw [Value.keyOrder, hleft, Option.getD_some]
      · rw [Value.keyOrder, hright, Option.getD_some]

-- Values of any type but the number type are uniform.
theorem uniform_of_type_ne {v : Value} (h : v.type ≠ .number) : v.Uniform .integer := by
  cases v <;> simp only [type, ne_eq, not_true_eq_false] at h <;> trivial

section

variable {a b c : Value} (hab : keyOrder (some a) (some b) ≠ .gt)
  (hbc : keyOrder (some b) (some c) ≠ .gt)

include hab hbc

-- Values that break the order are of one type, since types do not.
theorem types_of_keyOrder_gt (hac : keyOrder (some a) (some c) = .gt) :
    b.type = a.type ∧ c.type = a.type := by
  have hca : keyOrder (some c) (some a) ≠ .gt := by
    rw [← keyOrder_swap (some a) (some c), hac]
    decide
  have hleft := typeRank_le_of_keyOrder hab
  have hright := typeRank_le_of_keyOrder hbc
  have hround := typeRank_le_of_keyOrder hca
  exact ⟨type_of_typeRank_eq (by omega), type_of_typeRank_eq (by omega)⟩

-- Values that are no numbers do not break it: they have places.
theorem keyOrder_ne_gt_of_type_ne (ha : a.type ≠ .number) (hb : b.type ≠ .number)
    (hc : c.type ≠ .number) : keyOrder (some a) (some c) ≠ .gt := by
  have huniform : ∀ v : Value, v.type ≠ .number → ∀ w, some v = some w → w.Uniform .integer :=
    fun v hv w hw => Option.some.inj hw ▸ uniform_of_type_ne hv
  rw [keyOrder_eq_order_place_of_uniform (huniform a ha) (huniform b hb)] at hab
  rw [keyOrder_eq_order_place_of_uniform (huniform b hb) (huniform c hc)] at hbc
  rw [keyOrder_eq_order_place_of_uniform (huniform a ha) (huniform c hc)]
  exact Ordering.isLE_iff_ne_gt.mp (Std.TransCmp.isLE_trans (Ordering.isLE_iff_ne_gt.mpr hab)
    (Ordering.isLE_iff_ne_gt.mpr hbc))

/-- Values that break the order are numbers, with a bridge in the middle. -/
theorem exists_bridges_of_keyOrder (hac : keyOrder (some a) (some c) = .gt) :
    ∃ x, b = float x ∧ Bridges x a c := by
  rcases types_of_keyOrder_gt hab hbc hac with ⟨hb, hc⟩
  by_cases ha : a.type = .number
  · rcases exists_nearest? ha with ⟨x, hx⟩
    rcases exists_nearest? (hb.trans ha) with ⟨y, hy⟩
    rcases exists_nearest? (hc.trans ha) with ⟨z, hz⟩
    exact bridges_of_keyOrder hx hy hz hab hbc hac
  · exact absurd hac (keyOrder_ne_gt_of_type_ne hab hbc ha (hb ▸ ha) (hc ▸ ha))

end

/-- The order is transitive but for bridges. -/
theorem breaks_iff (a b c : Option Value) :
    keyOrder a b ≠ .gt ∧ keyOrder b c ≠ .gt ∧ keyOrder a c = .gt ↔ Breaks a b c := by
  constructor
  · rintro ⟨hab, hbc, hac⟩
    -- A missing value is below all others, so none of the three is missing.
    cases a with
    | none => cases c <;> exact absurd hac nofun
    | some a =>
    cases b with
    | none => exact absurd rfl hab
    | some b =>
    cases c with
    | none => exact absurd rfl hbc
    | some c =>
        rcases exists_bridges_of_keyOrder hab hbc hac with ⟨x, rfl, h⟩
        exact ⟨a, x, c, rfl, rfl, rfl, h⟩
  · rintro ⟨v, x, w, rfl, rfl, rfl, h⟩
    rcases h.keyOrder with ⟨hleft, hright, hends⟩
    rw [hleft, hright]
    exact ⟨by decide, by decide, hends⟩

end Value

end WideColumn
