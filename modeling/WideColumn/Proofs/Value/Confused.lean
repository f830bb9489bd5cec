import WideColumn.Proofs.Value.Bridges
import WideColumn.Proofs.Value.Equality
import WideColumn.Proofs.Value.KeyForm

/-!
# Values That Tie

What ties in the order of scans and is not the same.

A store tells values apart by their structure and a scan by their order, and the order is
the coarser of the two. `Confused` lists what it takes together: a number in its two forms,
a number and what is none, two lists, and two maps. Everything else that ties is the same.

## Main definitions

* `Value.Confused`: Values that tie and are not the same.
* `Value.ConfusedUnder`: Two items have such values under an attribute.

## Theorems

* `compare?_eq_none_cases`: Why two values of one type do not compare.
* `keyOrder_eq_iff_confused`: Values tie if they are the same or confused.
* `keyOrder_get?_eq_iff`: The same of the values of two items under an attribute.
-/

namespace WideColumn

namespace Value

/-- Values that tie in the order of scans and are not the same. -/
inductive Confused : Value → Value → Prop
  /-- A number in its two forms. -/
  | crossing {v w : Value} : v.crosses w = true → v.equals w = true → Confused v w
  /-- A number beside what stands for none, which is not even the same as itself. -/
  | unordered {v w : Value} : v.type = .number → w.type = .number →
      (v.hasNaN || w.hasNaN) = true → Confused v w
  | lists {xs ys : List Value} : sameElements xs ys = false → Confused (list xs) (list ys)
  | maps {xs ys : List (String × Value)} : sameEntries xs ys = false → Confused (map xs) (map ys)

/-- Two items have values under an attribute that tie and are not the same. -/
def ConfusedUnder (attr : String) (a b : Item) : Prop :=
  ∃ v w, a.get? attr = some v ∧ b.get? attr = some w ∧ Confused v w

theorem Confused.type_eq {v w : Value} (h : Confused v w) : v.type = w.type := by
  cases h with
  | crossing hcrosses _ =>
      cases v <;> cases w <;> simp only [crosses, Bool.false_eq_true] at hcrosses <;> rfl
  | unordered hv hw _ => exact hv.trans hw.symm
  | lists _ => rfl
  | maps _ => rfl

theorem type_eq_of_same {v w : Value} (h : v.same w = true) : v.type = w.type := by
  cases v <;> cases w <;> simp only [same, Bool.false_eq_true] at h <;> rfl

/-- Why two values of one type do not compare. -/
theorem compare?_eq_none_cases {v w : Value} (htype : v.type = w.type)
    (h : v.compare? w = none) : v.same w = true ∨ Confused v w := by
  cases v <;> cases w <;> simp only [type, reduceCtorEq] at htype <;>
    simp only [compare?, reduceCtorEq, Binary64.compare?_eq_none_iff, Binary64.isNaN_ofInt] at h
  case integer.float i x => exact Or.inr (.unordered rfl rfl h)
  case float.integer x i => exact Or.inr (.unordered rfl rfl h)
  case float.float x y => exact Or.inr (.unordered rfl rfl h)
  case null.null => exact Or.inl rfl
  case list.list xs ys =>
    cases hsame : sameElements xs ys with
    | true => exact Or.inl hsame
    | false => exact Or.inr (.lists hsame)
  case map.map xs ys =>
    cases hsame : sameEntries xs ys with
    | true => exact Or.inl hsame
    | false => exact Or.inr (.maps hsame)

-- A number does not compare with what stands for none.
theorem compare?_of_hasNaN {v w : Value} (hv : v.type = .number) (hw : w.type = .number)
    (h : (v.hasNaN || w.hasNaN) = true) : v.compare? w = none := by
  cases v <;> simp only [type, reduceCtorEq] at hv <;>
    cases w <;> simp only [type, reduceCtorEq] at hw
  case integer.integer => exact absurd h Bool.false_ne_true
  all_goals
    simp only [compare?, Binary64.compare?_eq_none_iff, Binary64.isNaN_ofInt]
    exact h

-- Equal values of one type tie.
theorem keyOrder_eq_of_equals {v w : Value} (htype : v.type = w.type)
    (h : v.equals w = true) : keyOrder (some v) (some w) = .eq := by
  unfold equals at h
  cases hcompare : v.compare? w with
  | none => exact keyOrder_eq_of_unordered htype hcompare
  | some o =>
      simp only [hcompare, beq_iff_eq] at h
      rw [keyOrder, hcompare, Option.getD_some, h]

theorem Confused.keyOrder_eq {v w : Value} (h : Confused v w) :
    keyOrder (some v) (some w) = .eq := by
  have htype := h.type_eq
  cases h with
  | crossing _ hequals => exact keyOrder_eq_of_equals htype hequals
  | unordered hv hw hnan => exact keyOrder_eq_of_unordered htype (compare?_of_hasNaN hv hw hnan)
  | lists _ => rfl
  | maps _ => rfl

/-- Values tie if they are the same or confused. -/
theorem keyOrder_eq_iff_confused (v w : Value) :
    keyOrder (some v) (some w) = .eq ↔ v.same w = true ∨ Confused v w := by
  constructor
  · intro h
    have hrank : v.typeRank = w.typeRank := by
      by_cases hrank : v.typeRank = w.typeRank
      · exact hrank
      · rw [keyOrder, compare?_of_typeRank_ne hrank, Option.getD_none, Nat.compare_eq_eq] at h
        exact h
    cases hcompare : v.compare? w with
    | none => exact compare?_eq_none_cases (type_of_typeRank_eq hrank) hcompare
    | some o =>
        rw [keyOrder, hcompare, Option.getD_some] at h
        have hequals : v.equals w = true := by
          rw [equals, hcompare, h]
          rfl
        cases hcrosses : v.crosses w with
        | true => exact Or.inr (.crossing hcrosses hequals)
        | false => exact Or.inl (equals_eq_same hcrosses ▸ hequals)
  · rintro (hsame | hconfused)
    · exact keyOrder_eq_of_equals (type_eq_of_same hsame) (equals_of_same hsame)
    · exact hconfused.keyOrder_eq

/-- The values of two items under an attribute tie if they are the same or confused. -/
theorem keyOrder_get?_eq_iff (attr : String) (a b : Item) :
    keyOrder (a.get? attr) (b.get? attr) = .eq ↔
      sameOptional (a.get? attr) (b.get? attr) = true ∨ ConfusedUnder attr a b := by
  unfold ConfusedUnder
  cases a.get? attr with
  | none =>
      cases b.get? attr <;> simp only [keyOrder, sameOptional, reduceCtorEq, Bool.false_eq_true,
        false_and, exists_false, or_false]
  | some v =>
      cases b.get? attr with
      | none => simp only [keyOrder, sameOptional, reduceCtorEq, Bool.false_eq_true, false_and,
          and_false, exists_false, or_false]
      | some w => simp only [keyOrder_eq_iff_confused, sameOptional, Option.some.injEq,
          exists_and_left, exists_eq_left']

end Value

end WideColumn
