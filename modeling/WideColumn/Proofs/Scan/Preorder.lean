import WideColumn.Proofs.Cursor.Ending
import WideColumn.Proofs.Value.Bridges

/-!
# When Rows Are Sorted by a Preorder

Which rows a scan can sort at all.

A scan sorts by `IndexView.order`, which goes through the values that place a row. A sort
is only good for an order that is lawful, and this one is as lawful as the order of the
values: reflexive and oriented for all of them, and transitive unless a double stands
between two numbers it ties with. So the rows that a scan can sort are those without such a
triple under any attribute that places them, and `keyOrder_laws` puts that beside the
exact law for three values.

The rows of a broken order come back from the sort in the order they happened to be stored
in, with a greater level in front of a smaller one (`keyOrder_breaks_readings`).

## Main definitions

* `IndexView.Unbroken`: No three rows break the order.
* `brokenReadings`: Three readings that do.

## Theorems

* `coherent_iff_unbroken`: The values that place rows have a transitive order just if no
  three of them break it.
* `keyOrder_laws`: The laws of the order of values, and of the order of rows.
-/

namespace WideColumn

namespace IndexView

/-- No three rows break the order of values under an attribute that places them. -/
def Unbroken (view : IndexView) (items : List Item) : Prop :=
  ∀ attr ∈ view.orderAttrs, ∀ a ∈ items, ∀ b ∈ items, ∀ c ∈ items,
    ¬ Value.Breaks (a.get? attr) (b.get? attr) (c.get? attr)

/-- The values that place rows have a transitive order just if no three of them break it. -/
theorem coherent_iff_unbroken {view : IndexView} {items : List Item} :
    view.Coherent items ↔ view.Unbroken items := by
  unfold Coherent Unbroken
  simp only [← Value.breaks_iff, ← Ordering.isLE_iff_ne_gt, not_and, ← ne_eq]

end IndexView

/-- The laws of the order of values and of the order of rows. A value ties with itself, and
    turning two values round turns their order round. The order is transitive but for
    triples with a bridge in the middle. Where no three rows have such values under an
    attribute that places them, the rows are sorted by a total preorder. -/
theorem keyOrder_laws (a b c : Option Value) :
    Value.keyOrder a a = .eq ∧
    Value.keyOrder b a = (Value.keyOrder a b).swap ∧
    (Value.keyOrder a b ≠ .gt ∧ Value.keyOrder b c ≠ .gt ∧ Value.keyOrder a c = .gt ↔
      Value.Breaks a b c) ∧
    ∀ (view : IndexView) (items : List Item), view.Unbroken items →
      Std.TransCmp fun p q : {item // item ∈ items} => view.order p.1 q.1 := by
  refine ⟨Value.keyOrder_self a, (Value.keyOrder_swap a b).symm, Value.breaks_iff a b c, ?_⟩
  intro view items hunbroken
  exact IndexView.order_transCmp (IndexView.coherent_iff_unbroken.mpr hunbroken)

/-- The tied readings are sorted by a total preorder. -/
theorem keyOrder_laws_tiedReadings :
    readingsByLevel.Unbroken (readingsByLevel.rows highestReadings tiedReadings.items) ∧
    Std.TransCmp fun p q : {item // item ∈
      readingsByLevel.rows highestReadings tiedReadings.items} => readingsByLevel.order p.1 q.1 := by
  have hunbroken := IndexView.coherent_iff_unbroken.mp coherent_tiedReadings
  exact ⟨hunbroken, (keyOrder_laws none none none).2.2.2 _ _ hunbroken⟩

/-- Three readings. The level of the first is greater by one than that of the last, and the
    level of the second is the double that both are rounded to. -/
def brokenReadings : List Item :=
  [reading 0 (.integer 9007199254740993), reading 1 (.float ⟨0x4340000000000000⟩),
    reading 2 (.integer 9007199254740992)]

/-- Three levels that break the order. None is above the next one, and the first is above
    the last. Sorted from the lowest level up, the first reading stays in front. -/
theorem keyOrder_breaks_readings :
    Value.keyOrder (some (.integer 9007199254740993)) (some (.float ⟨0x4340000000000000⟩)) ≠ .gt ∧
    Value.keyOrder (some (.float ⟨0x4340000000000000⟩)) (some (.integer 9007199254740992)) ≠ .gt ∧
    Value.keyOrder (some (.integer 9007199254740993)) (some (.integer 9007199254740992)) = .gt ∧
    readingsByLevel.ordered { highestReadings with forward := true } brokenReadings =
      brokenReadings := by
  refine ⟨by decide, by decide, by decide, rfl⟩

end WideColumn
