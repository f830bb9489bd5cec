import WideColumn.Value.Basic
import WideColumn.Json.Printer

/-!
# Values and JSON

The two directions between attribute values and JSON values.

Every JSON value has an attribute value. Its integers become integers as far as
they fit, and doubles from there on. That a number might have neither form is
provided for, but no number is of such a kind. Not every attribute value has a JSON value
of its own: a binary is written as the list of its bytes, and a double that is
no finite number is written as null.

## Main definitions

* `Value.toJson`: The JSON value of an attribute value.
* `Value.ofJson`: The attribute value of a JSON value.
-/

namespace WideColumn

namespace Value

mutual

/-- The JSON value of an attribute value. What kind of number it was is lost, and bytes become
    an array of numbers. -/
def toJson : Value → Json
  | string s => .string s
  | integer i => .ofInt64 i
  | float x => .ofDouble x
  | boolean b => .bool b
  | binary bytes => .array (bytes.map fun byte => .ofNat byte.toNat)
  | null => .null
  | list elements => .array (elementsToJson elements)
  | map entries => .object (entriesToJson entries)

/-- The JSON values of the elements of a list. -/
def elementsToJson : List Value → List Json
  | [] => []
  | v :: rest => toJson v :: elementsToJson rest

/-- The JSON values of the entries of a map. -/
def entriesToJson : List (String × Value) → List (String × Json)
  | [] => []
  | (name, v) :: rest => (name, toJson v) :: entriesToJson rest

end

/-- The attribute value of a number: an integer where it fits one, or else a double. A
    number that had neither form would be kept as its text. -/
def ofNumber (n : Json.Number) : Value :=
  match n.toInt64? with
  | some i => integer i
  | none =>
    match n.toDouble? with
    | some x => float x
    | none => string (String.ofList n.render)

mutual

/-- The attribute value of a JSON value. -/
def ofJson : Json → Value
  | .null => null
  | .bool b => boolean b
  | .number n => ofNumber n
  | .string s => string s
  | .array elements => list (elementsOfJson elements)
  | .object members => map (entriesOfJson members)

/-- The attribute values of the elements of an array. -/
def elementsOfJson : List Json → List Value
  | [] => []
  | j :: rest => ofJson j :: elementsOfJson rest

/-- The attribute values of the members of an object. -/
def entriesOfJson : List (String × Json) → List (String × Value)
  | [] => []
  | (name, j) :: rest => (name, ofJson j) :: entriesOfJson rest

end

end Value

end WideColumn
