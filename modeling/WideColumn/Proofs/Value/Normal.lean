import WideColumn.Proofs.Value.Json

/-!
# Values that JSON Keeps

Which attribute values come back from JSON as they were.

Two kinds of values have no JSON value to themselves. A binary is written as the list of its
bytes and comes back as a list of integers. A double that is no finite number is written as
null and comes back as null. Everything else is kept to the bit, integers apart from integral
doubles and the one zero apart from the other, since a JSON number has the same three kinds
however it is written.

The loss is seen from outside. Neither the list nor the null is the same value as what it
came from, so one such part at any depth makes the whole value another one, by structure and
by comparison alike. The loss is also final. What JSON holds of a value always fits, because
no number in it comes from beyond the signed integers, and what fits is kept when it goes
through the store. So the second pass finds nothing more to lose.

That is why idempotence needs no induction over values of its own. It is read off the other
round trip, from JSON through the store, at the JSON value in the middle.

## Main definitions

* `Value.throughJson`: A value as it comes back from JSON.
* `Value.parts`: The value and all values inside it.
* `Value.isPlain`: The value is no binary and no double that JSON has no number for.

## Theorems

* `fits_toJson`: What is written as JSON fits.
* `throughJson_of_plain`: A value of plain parts is kept.
* `plain_of_same_throughJson`: Any other part is seen to be lost.
* `throughJson_normal`: When a value is kept, and that the loss is final.
-/

namespace WideColumn

namespace Json

-- A signed integer from zero up is the natural number it stands for.
theorem Number.ofInt64_of_not_neg {i : Int64} (h : ¬ i < 0) :
    ∃ n : UInt64, Number.ofInt64 i = .natural n ∧ n.toNat < 0x8000000000000000 ∧
      Int64.ofNat n.toNat = i := by
  have hlow : 0 ≤ i.toInt := by
    rw [Int64.lt_iff_toInt_lt, Int64.toInt_zero] at h
    exact Int.not_lt.mp h
  have hhigh : i.toInt < 2 ^ 63 := i.toInt_lt
  have hlt : i.toInt.toNat < 0x8000000000000000 := by omega
  have hnat : i.toInt.toNat.toUInt64.toNat = i.toInt.toNat :=
    UInt64.toNat_ofNat_of_lt' (Nat.lt_trans hlt (by decide))
  refine ⟨i.toInt.toNat.toUInt64, dif_neg h, ?_, ?_⟩
  · rw [hnat]
    exact hlt
  · rw [hnat, ← Int64.toInt_inj, Int64.toInt_ofNat_of_lt hlt]
    exact Int.toNat_of_nonneg hlow

theorem Number.fits_ofInt64 (i : Int64) : (Number.ofInt64 i).fits = true := by
  by_cases h : i < 0
  · rw [ofInt64_of_neg h]
    rfl
  · rcases ofInt64_of_not_neg h with ⟨n, hn, hlt, -⟩
    rw [hn]
    exact decide_eq_true hlt

theorem ofDouble_of_not_finite {x : Binary64} (h : ¬ x.isFinite = true) :
    Json.ofDouble x = .null := by
  rw [ofDouble, Number.ofDouble?, dif_neg h]
  rfl

theorem fits_ofDouble (x : Binary64) : (Json.ofDouble x).fits = true := by
  by_cases h : x.isFinite = true
  · rw [ofDouble_of_finite h]
    rfl
  · rw [ofDouble_of_not_finite h]
    rfl

/-- The bytes of a binary are far below the numbers that do not fit. -/
theorem elementsFit_bytes (bytes : List UInt8) :
    elementsFit (bytes.map fun byte => .ofNat byte.toNat) = true := by
  induction bytes with
  | nil => rfl
  | cons byte rest ih =>
      have hbyte : byte.toNat < 256 := byte.toNat_lt
      have hnat : byte.toNat.toUInt64.toNat = byte.toNat :=
        UInt64.toNat_ofNat_of_lt' (Nat.lt_trans hbyte (by decide))
      rw [List.map_cons, elementsFit, ih, Bool.and_true, Json.ofNat, fits, Number.fits, hnat]
      exact decide_eq_true (Nat.lt_trans hbyte (by decide))

end Json

namespace Value

/-- A value as it comes back from JSON. -/
def throughJson (v : Value) : Value :=
  ofJson v.toJson

mutual

/-- The value and all values inside it, at any depth. -/
def parts : Value → List Value
  | list elements => list elements :: elementsParts elements
  | map entries => map entries :: entriesParts entries
  | v => [v]
termination_by structural v => v

/-- The parts of each element. -/
def elementsParts : List Value → List Value
  | [] => []
  | v :: rest => parts v ++ elementsParts rest
termination_by structural elements => elements

/-- The parts of each entry. -/
def entriesParts : List (String × Value) → List Value
  | [] => []
  | (_, v) :: rest => parts v ++ entriesParts rest
termination_by structural entries => entries

end

/-- The value is no binary and no double that JSON has no number for. -/
def isPlain : Value → Bool
  | binary _ => false
  | float x => x.isFinite
  | _ => true

mutual

/-- What is written as JSON fits, whatever it is written from. -/
theorem fits_toJson (v : Value) : v.toJson.fits = true := by
  cases v with
  | integer i => exact Json.Number.fits_ofInt64 i
  | float x => exact Json.fits_ofDouble x
  | binary bytes => exact Json.elementsFit_bytes bytes
  | list elements => exact elementsFit_elementsToJson elements
  | map entries => exact membersFit_entriesToJson entries
  | _ => rfl

theorem elementsFit_elementsToJson (elements : List Value) :
    Json.elementsFit (elementsToJson elements) = true := by
  cases elements with
  | nil => rfl
  | cons v rest =>
      rw [elementsToJson, Json.elementsFit, fits_toJson v, elementsFit_elementsToJson rest,
        Bool.and_self]

theorem membersFit_entriesToJson (entries : List (String × Value)) :
    Json.membersFit (entriesToJson entries) = true := by
  cases entries with
  | nil => rfl
  | cons entry rest =>
      rw [entriesToJson, Json.membersFit, fits_toJson entry.2, membersFit_entriesToJson rest,
        Bool.and_self]

end

theorem ofNumber_ofInt64 (i : Int64) : ofNumber (.ofInt64 i) = integer i := by
  by_cases h : i < 0
  · rw [Json.Number.ofInt64_of_neg h, ofNumber_negative]
  · rcases Json.Number.ofInt64_of_not_neg h with ⟨n, hn, hlt, hi⟩
    rw [hn, ofNumber_natural hlt, hi]

theorem throughJson_float {x : Binary64} (h : x.isFinite = true) :
    (float x).throughJson = float x := by
  rw [throughJson, toJson, Json.ofDouble_of_finite h, ofJson, ofNumber_double]

mutual

/-- A value of plain parts is kept. -/
theorem throughJson_of_plain (v : Value) (h : ∀ w ∈ v.parts, w.isPlain = true) :
    v.throughJson = v := by
  cases v with
  | integer i => exact ofNumber_ofInt64 i
  | float x => exact throughJson_float (h (float x) List.mem_cons_self)
  | binary bytes => exact absurd (h (binary bytes) List.mem_cons_self) Bool.false_ne_true
  | list elements =>
      have hrest : ∀ w ∈ elementsParts elements, w.isPlain = true := by
        intro w hw
        exact h w (List.mem_cons_of_mem _ hw)
      exact congrArg list (elementsThroughJson_of_plain elements hrest)
  | map entries =>
      have hrest : ∀ w ∈ entriesParts entries, w.isPlain = true := by
        intro w hw
        exact h w (List.mem_cons_of_mem _ hw)
      exact congrArg map (entriesThroughJson_of_plain entries hrest)
  | _ => rfl

theorem elementsThroughJson_of_plain (elements : List Value)
    (h : ∀ w ∈ elementsParts elements, w.isPlain = true) :
    elementsOfJson (elementsToJson elements) = elements := by
  cases elements with
  | nil => rfl
  | cons v rest =>
      rw [elementsParts, List.forall_mem_append] at h
      have hv : ofJson v.toJson = v := throughJson_of_plain v h.1
      rw [elementsToJson, elementsOfJson, hv, elementsThroughJson_of_plain rest h.2]

theorem entriesThroughJson_of_plain (entries : List (String × Value))
    (h : ∀ w ∈ entriesParts entries, w.isPlain = true) :
    entriesOfJson (entriesToJson entries) = entries := by
  cases entries with
  | nil => rfl
  | cons entry rest =>
      rw [entriesParts, List.forall_mem_append] at h
      have hv : ofJson entry.2.toJson = entry.2 := throughJson_of_plain entry.2 h.1
      rw [entriesToJson, entriesOfJson, hv, entriesThroughJson_of_plain rest h.2]

end

-- A zero keeps its sign, and one as a double stays apart from one as an integer.
example :
    (list [float ⟨0x8000000000000000⟩, float ⟨0x3FF0000000000000⟩, integer 1]).throughJson =
      list [float ⟨0x8000000000000000⟩, float ⟨0x3FF0000000000000⟩, integer 1] :=
  rfl

mutual

/-- A part that is not plain comes back as a value of another type, so it is seen to be lost
    wherever it is. -/
theorem plain_of_same_throughJson (v : Value) (h : v.throughJson.same v = true) :
    ∀ w ∈ v.parts, w.isPlain = true := by
  cases v with
  | float x =>
      by_cases hx : x.isFinite = true
      · intro w hw
        rw [List.mem_singleton.mp hw]
        exact hx
      · rw [throughJson, toJson, Json.ofDouble_of_not_finite hx] at h
        exact absurd h Bool.false_ne_true
  | binary bytes => exact absurd h Bool.false_ne_true
  | list elements =>
      exact List.forall_mem_cons.mpr ⟨rfl, plain_of_sameElements_throughJson elements h⟩
  | map entries =>
      exact List.forall_mem_cons.mpr ⟨rfl, plain_of_sameEntries_throughJson entries h⟩
  | _ =>
      intro w hw
      rw [List.mem_singleton.mp hw]
      rfl

theorem plain_of_sameElements_throughJson (elements : List Value)
    (h : sameElements (elementsOfJson (elementsToJson elements)) elements = true) :
    ∀ w ∈ elementsParts elements, w.isPlain = true := by
  cases elements with
  | nil => exact nofun
  | cons v rest =>
      rw [elementsToJson, elementsOfJson, sameElements, Bool.and_eq_true] at h
      rw [elementsParts, List.forall_mem_append]
      exact ⟨plain_of_same_throughJson v h.1, plain_of_sameElements_throughJson rest h.2⟩

theorem plain_of_sameEntries_throughJson (entries : List (String × Value))
    (h : sameEntries (entriesOfJson (entriesToJson entries)) entries = true) :
    ∀ w ∈ entriesParts entries, w.isPlain = true := by
  cases entries with
  | nil => exact nofun
  | cons entry rest =>
      rw [entriesToJson, entriesOfJson, sameEntries, Bool.and_eq_true, Bool.and_eq_true] at h
      rw [entriesParts, List.forall_mem_append]
      exact ⟨plain_of_same_throughJson entry.2 h.1.2, plain_of_sameEntries_throughJson rest h.2⟩

end

/-- What comes back from JSON is written as the same JSON. -/
theorem toJson_throughJson (v : Value) : v.throughJson.toJson = v.toJson := by
  rw [throughJson, toJson_ofJson, Json.stored_of_fits _ v.fits_toJson]

theorem throughJson_throughJson (v : Value) : v.throughJson.throughJson = v.throughJson := by
  rw [throughJson, toJson_throughJson, ← throughJson]

/-- What has come back from JSON is the same as itself, so no double in it is no number. -/
theorem same_throughJson (v : Value) : v.throughJson.same v.throughJson = true := by
  rw [throughJson, same_ofJson]
  exact Json.same_self v.toJson.stored

/-- What becomes of a value that goes through JSON. It comes back as itself just if no part
    of it, at any depth, is a binary or a double that is no finite number, and to compare it
    with what it was tells the same. Whatever it is, to go through JSON a second time changes
    nothing more, and what came back is written as the JSON it came from. -/
theorem throughJson_normal (v : Value) :
    (v.throughJson = v ↔ ∀ w ∈ v.parts, w.isPlain = true) ∧
      (v.throughJson.same v = true ↔ ∀ w ∈ v.parts, w.isPlain = true) ∧
      v.throughJson.throughJson = v.throughJson ∧
      v.throughJson.throughJson.same v.throughJson = true ∧
      v.throughJson.toJson = v.toJson := by
  -- What is itself again is the same as itself, for it has been through JSON.
  have hsame : v.throughJson = v → v.throughJson.same v = true := by
    intro h
    have hself := same_throughJson v
    rw [h] at hself
    rw [h]
    exact hself
  refine ⟨⟨fun h => plain_of_same_throughJson v (hsame h), throughJson_of_plain v⟩,
    ⟨plain_of_same_throughJson v, fun h => hsame (throughJson_of_plain v h)⟩,
    throughJson_throughJson v, ?_, toJson_throughJson v⟩
  rw [throughJson_throughJson]
  exact same_throughJson v

end Value

end WideColumn
