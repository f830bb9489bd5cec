import WideColumn.Proofs.Binary64.Rounding
import WideColumn.Proofs.Keyed
import WideColumn.Proofs.Value.Same
import WideColumn.Value.OfJson

/-!
# JSON Values in the Store

What becomes of a JSON value that is written as an attribute value and read back.

Hardly anything is lost. Every kind of JSON value has a kind of attribute value to itself,
and so do negative integers, doubles, and the natural numbers that a signed integer of 64
bits can hold. The natural numbers from there on have none. Each of them is stored as the
double nearest to it, and many of them share one.

`Json.stored` is that loss and nothing else. It is what is read back, and values are the same
in the store just if they are the same as JSON values after it. A value without such numbers
is read back as it is.

## Main definitions

* `Json.same`: Equality of JSON values.
* `Json.fits`: The value has no natural number beyond the signed integers.
* `Json.stored`: The value with those numbers at their nearest doubles.

## Theorems

* `isFinite_ofNat`: The numbers that do not fit have finite doubles.
* `toJson_ofJson`: What is read back of a JSON value.
* `same_ofJson`: When two JSON values are stored as the same value.
* `stored_of_fits`: What fits is stored as it is.
-/

namespace WideColumn

/-- The nearest double of a natural number beyond the signed integers is finite. -/
theorem Binary64.isFinite_ofNat {n : Nat} (_ : 0x8000000000000000 ≤ n)
    (hhigh : n < 0x10000000000000000) : (Binary64.ofNat n).isFinite = true :=
  Binary64.isFinite_ofNat_of_lt hhigh

namespace Json

namespace Number

/-- The numbers are of one kind and equal. Doubles are equal as numbers, so the zeros are. -/
def same : Number → Number → Bool
  | natural m, natural n => m == n
  | negative i _, negative j _ => i == j
  | double x _, double y _ => x.equal y
  | _, _ => false

/-- The number is not a natural one beyond the signed integers. -/
def fits : Number → Bool
  | natural n => n.toNat < 0x8000000000000000
  | _ => true

/-- A number as it is stored: a natural one beyond the signed integers goes to the double
    nearest to it. -/
def stored : Number → Number
  | natural n =>
    if fits : n.toNat < 0x8000000000000000 then natural n
    else double (Binary64.ofNat n.toNat)
      (Binary64.isFinite_ofNat (Nat.le_of_not_lt fits) n.toNat_lt)
  | n => n

theorem stored_of_fits {n : Number} (h : n.fits = true) : n.stored = n := by
  cases n with
  | natural n => exact dif_pos (of_decide_eq_true h)
  | negative i neg => rfl
  | double x finite => rfl

theorem same_self (n : Number) : n.same n = true := by
  cases n with
  | natural n => exact beq_self_eq_true n
  | negative i neg => exact beq_self_eq_true i
  | double x finite =>
      have hnumber : x.isNaN = false := by
        have hlt : x.magnitude < Binary64.infiniteMagnitude := of_decide_eq_true finite
        exact decide_eq_false (Nat.not_lt_of_gt hlt)
      exact (Binary64.equal_iff x x).mpr ⟨hnumber, hnumber, rfl⟩

theorem fits_stored (n : Number) : n.stored.fits = true := by
  cases n with
  | natural n =>
      by_cases h : n.toNat < 0x8000000000000000
      · rw [stored, dif_pos h]
        exact decide_eq_true h
      · rw [stored, dif_neg h]
        rfl
  | negative i neg => rfl
  | double x finite => rfl

end Number

mutual

/-- Equality of JSON values. The members of objects are compared in order. -/
def same : Json → Json → Bool
  | null, null => true
  | bool a, bool b => a == b
  | number m, number n => m.same n
  | string s, string t => s == t
  | array xs, array ys => sameElements xs ys
  | object xs, object ys => sameMembers xs ys
  | _, _ => false
termination_by structural x => x

/-- The arrays agree element by element. -/
def sameElements : List Json → List Json → Bool
  | [], [] => true
  | x :: xs, y :: ys => same x y && sameElements xs ys
  | _, _ => false
termination_by structural xs => xs

/-- The objects agree in names and values. -/
def sameMembers : List (String × Json) → List (String × Json) → Bool
  | [], [] => true
  | (a, x) :: xs, (b, y) :: ys => a == b && same x y && sameMembers xs ys
  | _, _ => false
termination_by structural xs => xs

end

/-- Values that may be missing are the same when both are missing or both are there and
    the same. -/
def sameOptional : Option Json → Option Json → Bool
  | none, none => true
  | some x, some y => same x y
  | _, _ => false

mutual

/-- No natural number of the value is beyond the signed integers. -/
def fits : Json → Bool
  | number n => n.fits
  | array elements => elementsFit elements
  | object members => membersFit members
  | _ => true
termination_by structural j => j

/-- Every number in the elements fits. -/
def elementsFit : List Json → Bool
  | [] => true
  | j :: rest => fits j && elementsFit rest
termination_by structural elements => elements

/-- Every number in the members fits. -/
def membersFit : List (String × Json) → Bool
  | [] => true
  | (_, j) :: rest => fits j && membersFit rest
termination_by structural members => members

end

mutual

/-- A value as it is stored: with each number as it is stored. -/
def stored : Json → Json
  | null => null
  | bool b => bool b
  | number n => number n.stored
  | string s => string s
  | array elements => array (storedElements elements)
  | object members => object (storedMembers members)
termination_by structural j => j

/-- The elements as they are stored. -/
def storedElements : List Json → List Json
  | [] => []
  | j :: rest => stored j :: storedElements rest
termination_by structural elements => elements

/-- The members as they are stored. -/
def storedMembers : List (String × Json) → List (String × Json)
  | [] => []
  | (name, j) :: rest => (name, stored j) :: storedMembers rest
termination_by structural members => members

end

mutual

/-- What fits is stored as it is. -/
theorem stored_of_fits (j : Json) (h : j.fits = true) : j.stored = j := by
  cases j with
  | null => rfl
  | bool b => rfl
  | number n => rw [stored, Number.stored_of_fits h]
  | string s => rfl
  | array elements => rw [stored, storedElements_of_fits elements h]
  | object members => rw [stored, storedMembers_of_fits members h]

theorem storedElements_of_fits (elements : List Json) (h : elementsFit elements = true) :
    storedElements elements = elements := by
  cases elements with
  | nil => rfl
  | cons j rest =>
      rw [elementsFit, Bool.and_eq_true] at h
      rw [storedElements, stored_of_fits j h.1, storedElements_of_fits rest h.2]

theorem storedMembers_of_fits (members : List (String × Json)) (h : membersFit members = true) :
    storedMembers members = members := by
  cases members with
  | nil => rfl
  | cons member rest =>
      rw [membersFit, Bool.and_eq_true] at h
      rw [storedMembers, stored_of_fits member.2 h.1, storedMembers_of_fits rest h.2]

end

mutual

/-- A JSON value is the same as itself, since none of its doubles is no number. -/
theorem same_self (j : Json) : j.same j = true := by
  cases j with
  | null => rfl
  | bool b => exact beq_self_eq_true b
  | number n => exact n.same_self
  | string s => exact beq_self_eq_true s
  | array elements => exact sameElements_self elements
  | object members => exact sameMembers_self members

theorem sameElements_self (elements : List Json) : sameElements elements elements = true := by
  cases elements with
  | nil => rfl
  | cons j rest => rw [sameElements, same_self j, sameElements_self rest, Bool.and_self]

theorem sameMembers_self (members : List (String × Json)) :
    sameMembers members members = true := by
  cases members with
  | nil => rfl
  | cons member rest =>
      rw [sameMembers, same_self member.2, sameMembers_self rest, beq_self_eq_true, Bool.and_self,
        Bool.and_self]

end

theorem sameOptional_self (j : Option Json) : sameOptional j j = true := by
  cases j with
  | none => rfl
  | some j => exact same_self j

theorem Number.ofInt64_of_neg {i : Int64} (h : i < 0) : Number.ofInt64 i = .negative i h :=
  dif_pos h

theorem ofDouble_of_finite {x : Binary64} (h : x.isFinite = true) :
    Json.ofDouble x = .number (.double x h) := by
  rw [ofDouble, Number.ofDouble?, dif_pos h]
  rfl

theorem get?_storedMembers (members : Keyed Json) (name : String) :
    Keyed.get? (storedMembers members) name = (Keyed.get? members name).map stored := by
  induction members with
  | nil => rfl
  | cons member rest ih =>
      obtain ⟨other, j⟩ := member
      rw [storedMembers, Keyed.get?_cons, ih, Keyed.get?_cons]
      by_cases hname : name = other
      · rw [if_pos hname, if_pos hname, Option.map_some]
      · rw [if_neg hname, if_neg hname]

end Json

namespace Value

open Json.Number

theorem ofNumber_natural {n : UInt64} (h : n.toNat < 0x8000000000000000) :
    ofNumber (natural n) = integer (Int64.ofNat n.toNat) := by
  rw [ofNumber, toInt64?, if_pos h]

theorem ofNumber_beyond {n : UInt64} (h : ¬ n.toNat < 0x8000000000000000) :
    ofNumber (natural n) = float (Binary64.ofNat n.toNat) := by
  rw [ofNumber, toInt64?, if_neg h]
  rfl

theorem ofNumber_negative (i : Int64) (neg : i < 0) : ofNumber (negative i neg) = integer i :=
  rfl

theorem ofNumber_double (x : Binary64) (finite : x.isFinite = true) :
    ofNumber (double x finite) = float x :=
  rfl

theorem ofNumber_stored (n : Json.Number) : ofNumber n.stored = ofNumber n := by
  cases n with
  | natural n =>
      by_cases h : n.toNat < 0x8000000000000000
      · rw [stored, dif_pos h]
      · rw [stored, dif_neg h, ofNumber_double, ofNumber_beyond h]
  | negative i neg => rfl
  | double x finite => rfl

-- A natural number that fits is the signed integer that it is stored as.
theorem toInt_ofNat {n : UInt64} (h : n.toNat < 0x8000000000000000) :
    (Int64.ofNat n.toNat).toInt = n.toNat :=
  Int64.toInt_ofNat_of_lt h

-- A number that fits is read back as it is.
theorem toJson_ofNumber_of_fits {n : Json.Number} (h : n.fits = true) :
    (ofNumber n).toJson = .number n := by
  cases n with
  | natural n =>
      have hlt : n.toNat < 0x8000000000000000 := of_decide_eq_true h
      have hint := toInt_ofNat hlt
      have hneg : ¬ Int64.ofNat n.toNat < 0 := by
        rw [Int64.lt_iff_toInt_lt, hint, Int64.toInt_zero]
        omega
      rw [ofNumber_natural hlt, toJson, Json.ofInt64, ofInt64, dif_neg hneg, hint,
        Int.toNat_natCast]
      exact congrArg (fun n => Json.number (natural n)) UInt64.ofNat_toNat
  | negative i neg => rw [ofNumber_negative, toJson, Json.ofInt64, ofInt64_of_neg neg]
  | double x finite => rw [ofNumber_double, toJson, Json.ofDouble_of_finite finite]

-- Two numbers that fit are stored as one value just if they are of one kind and equal.
theorem same_ofNumber_of_fits {m n : Json.Number} (hm : m.fits = true) (hn : n.fits = true) :
    (ofNumber m).same (ofNumber n) = m.same n := by
  -- No natural number is stored as a negative integer.
  have hapart : ∀ {n : UInt64} {i : Int64}, n.toNat < 0x8000000000000000 → i < 0 →
      Int64.ofNat n.toNat ≠ i := fun {n i} hlt hneg heq => by
    have hint := toInt_ofNat hlt
    rw [Int64.lt_iff_toInt_lt, ← heq, hint, Int64.toInt_zero] at hneg
    omega
  cases m with
  | natural m =>
      have hlt : m.toNat < 0x8000000000000000 := of_decide_eq_true hm
      rw [ofNumber_natural hlt]
      cases n with
      | natural n =>
          have hlt' : n.toNat < 0x8000000000000000 := of_decide_eq_true hn
          rw [ofNumber_natural hlt', Value.same, Json.Number.same, Bool.eq_iff_iff, beq_iff_eq,
            beq_iff_eq]
          refine ⟨fun heq => ?_, fun heq => by rw [heq]⟩
          have hint := congrArg Int64.toInt heq
          rw [toInt_ofNat hlt, toInt_ofNat hlt'] at hint
          exact UInt64.toNat_inj.mp (Int.ofNat_inj.mp hint)
      | negative j neg =>
          rw [ofNumber_negative, Value.same, beq_eq_false_iff_ne.mpr (hapart hlt neg)]
          rfl
      | double y finite => rfl
  | negative i neg =>
      cases n with
      | natural n =>
          have hlt : n.toNat < 0x8000000000000000 := of_decide_eq_true hn
          rw [ofNumber_negative, ofNumber_natural hlt, Value.same,
            beq_eq_false_iff_ne.mpr (hapart hlt neg).symm]
          rfl
      | negative j neg' => rfl
      | double y finite => rfl
  | double x finite =>
      cases n with
      | natural n =>
          have hlt : n.toNat < 0x8000000000000000 := of_decide_eq_true hn
          rw [ofNumber_double, ofNumber_natural hlt]
          rfl
      | negative j neg => rfl
      | double y finite' => rfl

theorem same_ofNumber (m n : Json.Number) :
    (ofNumber m).same (ofNumber n) = m.stored.same n.stored := by
  rw [← ofNumber_stored m, ← ofNumber_stored n,
    same_ofNumber_of_fits (fits_stored m) (fits_stored n)]

mutual

/-- What is read back of a JSON value is the value as it is stored. -/
theorem toJson_ofJson (j : Json) : (ofJson j).toJson = j.stored := by
  cases j with
  | null => rfl
  | bool b => rfl
  | number n =>
      rw [ofJson, ← ofNumber_stored, toJson_ofNumber_of_fits (fits_stored n), Json.stored]
  | string s => rfl
  | array elements => rw [ofJson, toJson, elementsToJson_elementsOfJson elements, Json.stored]
  | object members => rw [ofJson, toJson, entriesToJson_entriesOfJson members, Json.stored]

theorem elementsToJson_elementsOfJson (elements : List Json) :
    elementsToJson (elementsOfJson elements) = Json.storedElements elements := by
  cases elements with
  | nil => rfl
  | cons j rest =>
      rw [elementsOfJson, elementsToJson, toJson_ofJson j, elementsToJson_elementsOfJson rest,
        Json.storedElements]

theorem entriesToJson_entriesOfJson (members : List (String × Json)) :
    entriesToJson (entriesOfJson members) = Json.storedMembers members := by
  cases members with
  | nil => rfl
  | cons member rest =>
      rw [entriesOfJson, entriesToJson, toJson_ofJson member.2, entriesToJson_entriesOfJson rest,
        Json.storedMembers]

end

theorem type_ofNumber (n : Json.Number) : (ofNumber n).type = .number := by
  cases n with
  | natural n =>
      by_cases h : n.toNat < 0x8000000000000000
      · rw [ofNumber_natural h, type]
      · rw [ofNumber_beyond h, type]
  | negative i neg => rfl
  | double x finite => rfl

theorem same_of_type_ne {v w : Value} (h : v.type ≠ w.type) : v.same w = false := by
  cases v <;> cases w <;> first | rfl | exact absurd rfl h

mutual

/-- Two JSON values are stored as the same value just if they are equal as they are
    stored. -/
theorem same_ofJson (a b : Json) : (ofJson a).same (ofJson b) = a.stored.same b.stored := by
  -- Values of two kinds are of two types, and only numbers do not show theirs.
  have hleft : ∀ {n : Json.Number} {v : Value}, v.type ≠ .number →
      (ofNumber n).same v = false := fun {n v} hv =>
    same_of_type_ne (by rw [type_ofNumber]; exact hv.symm)
  have hright : ∀ {v : Value} {n : Json.Number}, v.type ≠ .number →
      v.same (ofNumber n) = false := fun {v n} hv =>
    same_of_type_ne (by rw [type_ofNumber]; exact hv)
  cases a with
  | null =>
      cases b with
      | number n => exact hright nofun
      | _ => rfl
  | bool a =>
      cases b with
      | number n => exact hright nofun
      | _ => rfl
  | string s =>
      cases b with
      | number n => exact hright nofun
      | _ => rfl
  | number m =>
      cases b with
      | number n => exact same_ofNumber m n
      | _ => exact hleft nofun
  | array xs =>
      cases b with
      | number n => exact hright nofun
      | array ys => exact sameElements_ofJson xs ys
      | _ => rfl
  | object xs =>
      cases b with
      | number n => exact hright nofun
      | object ys => exact sameEntries_ofJson xs ys
      | _ => rfl

theorem sameElements_ofJson (xs ys : List Json) :
    sameElements (elementsOfJson xs) (elementsOfJson ys) =
      Json.sameElements (Json.storedElements xs) (Json.storedElements ys) := by
  cases xs with
  | nil => cases ys <;> rfl
  | cons x xs =>
      cases ys with
      | nil => rfl
      | cons y ys =>
          rw [elementsOfJson, elementsOfJson, sameElements, same_ofJson x y,
            sameElements_ofJson xs ys, Json.storedElements, Json.storedElements,
            Json.sameElements]

theorem sameEntries_ofJson (xs ys : List (String × Json)) :
    sameEntries (entriesOfJson xs) (entriesOfJson ys) =
      Json.sameMembers (Json.storedMembers xs) (Json.storedMembers ys) := by
  cases xs with
  | nil => cases ys <;> rfl
  | cons x xs =>
      cases ys with
      | nil => rfl
      | cons y ys =>
          rw [entriesOfJson, entriesOfJson, sameEntries, same_ofJson x.2 y.2,
            sameEntries_ofJson xs ys, Json.storedMembers, Json.storedMembers, Json.sameMembers]

end

theorem get?_entriesOfJson (members : Keyed Json) (name : String) :
    Keyed.get? (entriesOfJson members) name = (Keyed.get? members name).map ofJson := by
  induction members with
  | nil => rfl
  | cons member rest ih =>
      obtain ⟨other, j⟩ := member
      rw [entriesOfJson, Keyed.get?_cons, ih, Keyed.get?_cons]
      by_cases hname : name = other
      · rw [if_pos hname, if_pos hname, Option.map_some]
      · rw [if_neg hname, if_neg hname]

-- The same of members that may be missing.
theorem sameOptional_entriesOfJson (a b : Keyed Json) (name : String) :
    sameOptional (Keyed.get? (entriesOfJson a) name) (Keyed.get? (entriesOfJson b) name) =
      Json.sameOptional (Keyed.get? (Json.storedMembers a) name)
        (Keyed.get? (Json.storedMembers b) name) := by
  rw [get?_entriesOfJson, get?_entriesOfJson, Json.get?_storedMembers, Json.get?_storedMembers]
  cases Keyed.get? a name with
  | none => cases Keyed.get? b name <;> rfl
  | some x =>
      cases Keyed.get? b name with
      | none => rfl
      | some y => exact same_ofJson x y

end Value

end WideColumn
