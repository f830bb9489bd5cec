import WideColumn.Value.Order

/-!
# Places of Values

Where the order of values is a lawful one.

`Value.keyOrder` is oriented for all values, but it is not transitive: integers
and doubles that round to each other form cycles, and what is no number ties with
every number. Neither happens among values whose numbers have one form. For these
the order is read off a `Place`, a tuple with one component for each type, and what
holds of tuples holds of them: two values of one type differ only in the component
of that type, and two values of different types differ in the first.

Lists and maps still tie with everything of their type. Values that are placeable
are none of these, and are told apart.

The laws are stated for `Place.order`, which is lawful everywhere, so later
arguments do not carry the side conditions along. They need
`keyOrder_eq_order_place` once, to enter.

A placeable value that ties with another one is the same value, in the sense in
which a store finds the item to replace.

## Main definitions

* `Value.NumberForm`, `Value.Uniform`: Values whose numbers have one form.
* `Value.Placeable`: Those that the order tells apart.
* `Value.Place`: The place of an optional value.
* `Value.Place.order`: The order of places.

## Theorems

* `keyOrder_swap`: The order of values is oriented, whatever the values.
* `keyOrder_eq_order_place_of_uniform`, `keyOrder_eq_order_place`: Such values are
  ordered by their places.
* `same_of_keyOrder_eq`: Placeable values that tie are the same.
-/

namespace WideColumn

theorem Binary64.compare?_swap (x y : Binary64) :
    (x.compare? y).map Ordering.swap = y.compare? x := by
  unfold Binary64.compare?
  rw [Bool.or_comm y.isNaN]
  by_cases h : (x.isNaN || y.isNaN) = true
  · rw [if_pos h, if_pos h]
    rfl
  · rw [if_neg h, if_neg h, Option.map_some, ← Std.OrientedOrd.eq_swap]

namespace Value

theorem compare?_swap (a b : Value) : (a.compare? b).map Ordering.swap = b.compare? a := by
  cases a <;> cases b <;>
    simp only [compare?, Option.map_some, Option.map_none, Binary64.compare?_swap,
      ← Std.OrientedOrd.eq_swap]

/-- The order of values is oriented, whatever the values. -/
theorem keyOrder_swap (a b : Option Value) : (keyOrder a b).swap = keyOrder b a := by
  cases a with
  | none => cases b <;> rfl
  | some a =>
      cases b with
      | none => rfl
      | some b =>
          have hswap := compare?_swap a b
          simp only [keyOrder]
          cases hab : a.compare? b with
          | none =>
              rw [hab, Option.map_none] at hswap
              rw [← hswap, Option.getD_none, Option.getD_none, ← Std.OrientedOrd.eq_swap]
          | some o =>
              rw [hab, Option.map_some] at hswap
              rw [← hswap, Option.getD_some, Option.getD_some]

/-- One of the two forms of numbers. -/
inductive NumberForm where
  | integer
  | double
deriving DecidableEq

/-- The order tells the value apart from others whose numbers have the same
    form: it is neither a list nor a map, and if it is of the number type it is
    a number of that form. -/
def Placeable (form : NumberForm) : Value → Prop
  | list _ => False
  | map _ => False
  | integer _ => form = .integer
  | float x => form = .double ∧ x.isNaN = false
  | _ => True

/-- If the value is of the number type it is a number of that form. It may be a list or a
    map, and then it ties with all others of its type. -/
def Uniform (form : NumberForm) : Value → Prop
  | integer _ => form = .integer
  | float x => form = .double ∧ x.isNaN = false
  | _ => True

theorem Placeable.uniform {form : NumberForm} {v : Value} (h : v.Placeable form) :
    v.Uniform form := by
  cases v with
  | list _ => exact h.elim
  | map _ => exact h.elim
  | _ => exact h

/-- The place of an optional value. Each component but the first belongs to one
    type and is constant on all others. -/
structure Place where
  rank : Nat
  truth : Bool
  number : Int
  text : String
  bytes : List UInt8

namespace Place

/-- Places are ordered by their components in turn. -/
def order : Place → Place → Ordering :=
  compareLex (compareOn rank) <| compareLex (compareOn truth) <|
    compareLex (compareOn number) <| compareLex (compareOn text) (compareOn bytes)

instance : Std.TransCmp order :=
  inferInstanceAs (Std.TransCmp (compareLex (compareOn rank) <| compareLex (compareOn truth) <|
    compareLex (compareOn number) <| compareLex (compareOn text) (compareOn bytes)))

end Place

/-- The place of an optional value. Missing values stand first. -/
def place : Option Value → Place
  | none => ⟨0, false, 0, "", []⟩
  | some v =>
    match v with
    | boolean b => ⟨v.typeRank + 1, b, 0, "", []⟩
    | integer i => ⟨v.typeRank + 1, false, i.toInt, "", []⟩
    | float x => ⟨v.typeRank + 1, false, x.rank, "", []⟩
    | string s => ⟨v.typeRank + 1, false, 0, s, []⟩
    | binary bytes => ⟨v.typeRank + 1, false, 0, "", bytes⟩
    | _ => ⟨v.typeRank + 1, false, 0, "", []⟩

theorem rank_place (v : Value) : (place (some v)).rank = v.typeRank + 1 := by
  cases v <;> rfl

-- Values of different types do not compare.
theorem compare?_of_typeRank_ne {a b : Value} (h : a.typeRank ≠ b.typeRank) :
    a.compare? b = none := by
  cases a <;> cases b <;>
    simp only [typeRank, type, compare?, ne_eq, not_true_eq_false] at h ⊢

-- Values of different types are ordered by their types, and so are their places.
theorem keyOrder_eq_of_typeRank_ne {a b : Value} (h : a.typeRank ≠ b.typeRank) :
    keyOrder (some a) (some b) = (place (some a)).order (place (some b)) := by
  have hrank : compare (a.typeRank + 1) (b.typeRank + 1) = compare a.typeRank b.typeRank := by
    simp only [Nat.compare_eq_ite_lt, Nat.add_lt_add_iff_right]
  rw [keyOrder, compare?_of_typeRank_ne h, Option.getD_none]
  rw [Place.order, compareLex, compareOn, rank_place, rank_place, hrank]
  rcases Nat.lt_or_gt_of_ne h with hlt | hgt
  · rw [Nat.compare_eq_lt.mpr hlt]
    rfl
  · rw [Nat.compare_eq_gt.mpr hgt]
    rfl

-- Values of one type differ only in the component of that type.
theorem keyOrder_eq_of_typeRank_eq {form : NumberForm} {a b : Value}
    (ha : a.Uniform form) (hb : b.Uniform form) (h : a.typeRank = b.typeRank) :
    keyOrder (some a) (some b) = (place (some a)).order (place (some b)) := by
  -- Two numbers of different forms are excluded here: no form has both as its own.
  cases a <;> cases b <;> simp_all [Uniform, keyOrder, compare?, Binary64.compare?, place,
    Place.order, compareLex, compareOn, typeRank, type]

/-- Values whose numbers have one form are ordered by their places. -/
theorem keyOrder_eq_order_place_of_uniform {form : NumberForm} {a b : Option Value}
    (ha : ∀ v, a = some v → v.Uniform form) (hb : ∀ v, b = some v → v.Uniform form) :
    keyOrder a b = (place a).order (place b) := by
  cases a with
  | none =>
      cases b with
      | none => rfl
      | some b => cases b <;> rfl
  | some a =>
      cases b with
      | none => cases a <;> rfl
      | some b =>
          by_cases h : a.typeRank = b.typeRank
          · exact keyOrder_eq_of_typeRank_eq (ha a rfl) (hb b rfl) h
          · exact keyOrder_eq_of_typeRank_ne h

-- So are values that are placeable for one form of numbers.
theorem keyOrder_eq_order_place {form : NumberForm} {a b : Option Value}
    (ha : ∀ v, a = some v → v.Placeable form) (hb : ∀ v, b = some v → v.Placeable form) :
    keyOrder a b = (place a).order (place b) :=
  keyOrder_eq_order_place_of_uniform (fun v hv => (ha v hv).uniform)
    fun v hv => (hb v hv).uniform

/-- Placeable values that tie are the same. -/
theorem same_of_keyOrder_eq {form : NumberForm} {a b : Value}
    (ha : a.Placeable form) (hb : b.Placeable form)
    (h : keyOrder (some a) (some b) = .eq) : a.same b = true := by
  by_cases hrank : a.typeRank = b.typeRank
  · cases a <;> cases b <;>
      simp_all [Placeable, keyOrder, compare?, Binary64.compare?, Binary64.equal, same, typeRank,
        type, Int64.toInt_inj]
  · rw [keyOrder, compare?_of_typeRank_ne hrank, Option.getD_none, Nat.compare_eq_eq] at h
    exact absurd h hrank

-- The same of optional values.
theorem sameOptional_of_keyOrder_eq {form : NumberForm} {a b : Option Value}
    (ha : ∀ v, a = some v → v.Placeable form) (hb : ∀ v, b = some v → v.Placeable form)
    (h : keyOrder a b = .eq) : sameOptional a b = true := by
  cases a with
  | none =>
      cases b with
      | none => rfl
      | some b => exact absurd h (by simp only [keyOrder, reduceCtorEq, not_false_eq_true])
  | some a =>
      cases b with
      | none => exact absurd h (by simp only [keyOrder, reduceCtorEq, not_false_eq_true])
      | some b => exact same_of_keyOrder_eq (ha a rfl) (hb b rfl) h

end Value

end WideColumn
