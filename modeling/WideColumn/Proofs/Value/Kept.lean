import WideColumn.Proofs.Value.Json
import WideColumn.Codec.Basic

/-!
# JSON Values that the Store Keeps

Which JSON values are read back as they were written.

What is read back is the value as it is stored, with each natural number beyond the signed
integers at its nearest double. So a value without such a number comes back as it is. For
the converse it is not enough that the two values differ as Lean terms, because the two
zeros do that too and are the same number to everyone who compares doubles. A natural
number and a double are told apart by either comparison, though, and a comparison goes
through arrays and objects down to every number. One such number anywhere makes the whole
value come back as another one.

The condition is therefore stated with the list of all numbers of a value, and both
equalities are shown equivalent to it around one circle: what fits is stored as it is, what
is stored as it is, is the same as before, and what is the same as before fits.

Records go the same way inside their codec. The one thing that it adds is that a record
must be an object. Nothing else can fail, and what is no object fails with the type that it
would have been stored as.

## Main definitions

* `Json.numbers`: The numbers of a value, at any depth.

## Theorems

* `Json.fits_iff`: A value fits just if each of its numbers does.
* `Json.stored_eq_iff`, `Json.same_stored_iff`: When a value is stored as it is.
* `toItem_object`, `toItem_eq_error`: Just the objects are records.
* `Value.ofNumber_ne_string`: No number is kept as its text.
* `Value.kept_iff_fits`: When a JSON value survives, by itself and as a record.
-/

namespace WideColumn

namespace Json

mutual

/-- The numbers of a value, at any depth. -/
def numbers : Json → List Number
  | number n => [n]
  | array elements => elementsNumbers elements
  | object members => membersNumbers members
  | _ => []
termination_by structural j => j

/-- The numbers in the elements. -/
def elementsNumbers : List Json → List Number
  | [] => []
  | j :: rest => numbers j ++ elementsNumbers rest
termination_by structural elements => elements

/-- The numbers in the members. -/
def membersNumbers : List (String × Json) → List Number
  | [] => []
  | (_, j) :: rest => numbers j ++ membersNumbers rest
termination_by structural members => members

end

mutual

/-- A value fits just if each of its numbers does. -/
theorem fits_iff (j : Json) : j.fits = true ↔ ∀ n ∈ j.numbers, n.fits = true := by
  cases j with
  | number n => simp only [fits, numbers, List.mem_singleton, forall_eq]
  | array elements => exact elementsFit_iff elements
  | object members => exact membersFit_iff members
  | _ => simp only [fits, numbers, List.not_mem_nil, false_implies, implies_true]

theorem elementsFit_iff (elements : List Json) :
    elementsFit elements = true ↔ ∀ n ∈ elementsNumbers elements, n.fits = true := by
  cases elements with
  | nil => simp only [elementsFit, elementsNumbers, List.not_mem_nil, false_implies, implies_true]
  | cons j rest =>
      rw [elementsFit, elementsNumbers, Bool.and_eq_true, fits_iff j, elementsFit_iff rest,
        List.forall_mem_append]

theorem membersFit_iff (members : List (String × Json)) :
    membersFit members = true ↔ ∀ n ∈ membersNumbers members, n.fits = true := by
  cases members with
  | nil => simp only [membersFit, membersNumbers, List.not_mem_nil, false_implies, implies_true]
  | cons member rest =>
      rw [membersFit, membersNumbers, Bool.and_eq_true, fits_iff member.2, membersFit_iff rest,
        List.forall_mem_append]

end

/-- A number beyond the signed integers is stored as one of another kind. -/
theorem Number.fits_of_same_stored {n : Number} (h : n.stored.same n = true) : n.fits = true := by
  cases n with
  | natural n =>
      by_cases hlt : n.toNat < 0x8000000000000000
      · exact decide_eq_true hlt
      · rw [stored, dif_neg hlt] at h
        exact absurd h Bool.false_ne_true
  | negative i neg => rfl
  | double x finite => rfl

mutual

/-- One number that does not fit is seen by a comparison of the whole value. -/
theorem fits_of_same_stored (j : Json) (h : j.stored.same j = true) : j.fits = true := by
  cases j with
  | number n => exact Number.fits_of_same_stored h
  | array elements => exact elementsFit_of_same_stored elements h
  | object members => exact membersFit_of_same_stored members h
  | _ => rfl

theorem elementsFit_of_same_stored (elements : List Json)
    (h : sameElements (storedElements elements) elements = true) :
    elementsFit elements = true := by
  cases elements with
  | nil => rfl
  | cons j rest =>
      rw [storedElements, sameElements, Bool.and_eq_true] at h
      rw [elementsFit, fits_of_same_stored j h.1, elementsFit_of_same_stored rest h.2,
        Bool.and_self]

theorem membersFit_of_same_stored (members : List (String × Json))
    (h : sameMembers (storedMembers members) members = true) :
    membersFit members = true := by
  cases members with
  | nil => rfl
  | cons member rest =>
      rw [storedMembers, sameMembers, Bool.and_eq_true, Bool.and_eq_true] at h
      rw [membersFit, fits_of_same_stored member.2 h.1.2, membersFit_of_same_stored rest h.2,
        Bool.and_self]

end

/-- A value is the same once it is stored just if each of its numbers fits. -/
theorem same_stored_iff (j : Json) :
    j.stored.same j = true ↔ ∀ n ∈ j.numbers, n.fits = true := by
  rw [← fits_iff]
  constructor
  · exact fits_of_same_stored j
  · intro h
    rw [stored_of_fits j h]
    exact same_self j

/-- A value is stored as it is just if each of its numbers fits. -/
theorem stored_eq_iff (j : Json) : j.stored = j ↔ ∀ n ∈ j.numbers, n.fits = true := by
  constructor
  · intro h
    rw [← same_stored_iff, h]
    exact same_self j
  · intro h
    exact stored_of_fits j ((fits_iff j).mpr h)

end Json

theorem toItem_object (members : List (String × Json)) :
    toItem (.object members) = .ok (Value.entriesOfJson members) :=
  rfl

theorem fromItem_entriesOfJson (members : List (String × Json)) :
    fromItem (Value.entriesOfJson members) = (Json.object members).stored :=
  Value.toJson_ofJson (.object members)

namespace Value

/-- No number is kept as its text, since every kind of number has a nearest double. -/
theorem ofNumber_ne_string (n : Json.Number) (s : String) : ofNumber n ≠ string s := by
  intro h
  have htype := type_ofNumber n
  rw [h] at htype
  exact absurd htype nofun

end Value

/-- Whatever is no object is refused with the type that it would have been stored as. -/
theorem toItem_eq_error {j : Json} (h : ∀ members, j ≠ .object members) :
    toItem j = .error (.notAMap (Value.ofJson j).type) := by
  have hmap : ∀ entries, Value.ofJson j ≠ .map entries := by
    intro entries hj
    cases j with
    | object members => exact h members rfl
    | number n =>
        have htype := Value.type_ofNumber n
        rw [show Value.ofNumber n = .map entries from hj] at htype
        exact absurd htype nofun
    | _ => exact Value.noConfusion hj
  unfold toItem
  split
  next entries hj => exact absurd hj (hmap entries)
  next => rfl

/-- What becomes of a JSON value in the store. It is read back as it was written just if
    none of its numbers, at any depth, is a natural one beyond the signed integers, and to
    compare it with what was written tells the same. An object is written as a record and
    read back from it under that condition, and what is no object is refused as a record.
    No number is kept as its text on the way. -/
theorem Value.kept_iff_fits (j : Json) :
    ((ofJson j).toJson = j ↔ ∀ n ∈ j.numbers, n.fits = true) ∧
      ((ofJson j).toJson.same j = true ↔ ∀ n ∈ j.numbers, n.fits = true) ∧
      (∀ members, j = .object members →
        ∃ item back, Codec.json.encode j = .ok item ∧ Codec.json.decode item = .ok back ∧
          (back = j ↔ ∀ n ∈ j.numbers, n.fits = true) ∧
          (back.same j = true ↔ ∀ n ∈ j.numbers, n.fits = true)) ∧
      ((∀ members, j ≠ .object members) →
        Codec.json.encode j = .error (.notAMap (ofJson j).type)) ∧
      ∀ n ∈ j.numbers, ∀ s, ofNumber n ≠ string s := by
  rw [toJson_ofJson]
  refine ⟨Json.stored_eq_iff j, Json.same_stored_iff j, ?_, toItem_eq_error,
    fun n _ => ofNumber_ne_string n⟩
  intro members hj
  subst hj
  have hback := fromItem_entriesOfJson members
  refine ⟨_, _, toItem_object members, congrArg Except.ok hback, ?_, ?_⟩
  · exact Json.stored_eq_iff (.object members)
  · exact Json.same_stored_iff (.object members)

end WideColumn
