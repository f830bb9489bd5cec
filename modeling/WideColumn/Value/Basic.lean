import WideColumn.Keyed
import WideColumn.Binary64.Basic

/-!
# Attribute Values

The values that a store keeps under attribute names, and the items made of
them.

Values are dynamically typed. Integers and doubles are two forms of the one
number type: they compare with each other, but they are never the same value,
so nothing that is written is silently turned into the other form.

Two notions of sameness are in use and must be kept apart. `same` goes through
the structure, and a store finds an item to replace by it. Comparison, which
conditions and scans use, is in `Value.Order`.

## Main definitions

* `Value`: The values.
* `Item`: Attribute values under their names.
* `ValueType`: The types of values.
* `Value.same`: Structural sameness.
-/

namespace WideColumn

/-- What an attribute can hold. Integers and doubles are kept apart, though they are compared
    as numbers. -/
inductive Value where
  | string (s : String)
  | integer (i : Int64)
  | float (x : Binary64)
  | boolean (b : Bool)
  | binary (bytes : List UInt8)
  | null
  | list (elements : List Value)
  | map (entries : List (String × Value))

/-- Attribute values under their names. Whole items, keys and continuation
    keys are all of this type. -/
abbrev Item := Keyed Value

/-- The types that values are told apart by, where numbers are of one type. -/
inductive ValueType where
  | string
  | number
  | boolean
  | binary
  | null
  | list
  | map
deriving DecidableEq

namespace ValueType

/-- The name of a type. -/
def name : ValueType → String
  | string => "String"
  | number => "Number"
  | boolean => "Boolean"
  | binary => "Binary"
  | null => "Null"
  | list => "List"
  | map => "Map"

/-- Every type, for reading names. -/
def all : List ValueType :=
  [string, number, boolean, binary, null, list, map]

end ValueType

namespace Value

/-- The type of a value. -/
def type : Value → ValueType
  | string _ => .string
  | integer _ => .number
  | float _ => .number
  | boolean _ => .boolean
  | binary _ => .binary
  | null => .null
  | list _ => .list
  | map _ => .map

/-- The text of a string. -/
def text? : Value → Option String
  | string s => some s
  | _ => none

mutual

/-- The two values have the same structure and equal leaves. Doubles are equal
    as numbers, so the zeros are and what is no number is not even the same as
    itself. -/
def same : Value → Value → Bool
  | string a, string b => a == b
  | integer a, integer b => a == b
  | float a, float b => a.equal b
  | boolean a, boolean b => a == b
  | binary a, binary b => a == b
  | null, null => true
  | list xs, list ys => sameElements xs ys
  | map xs, map ys => sameEntries xs ys
  | _, _ => false
termination_by structural x => x

/-- The lists agree element by element. -/
def sameElements : List Value → List Value → Bool
  | [], [] => true
  | x :: xs, y :: ys => same x y && sameElements xs ys
  | _, _ => false
termination_by structural xs => xs

/-- The lists agree in names and values. -/
def sameEntries : List (String × Value) → List (String × Value) → Bool
  | [], [] => true
  | (a, x) :: xs, (b, y) :: ys => a == b && same x y && sameEntries xs ys
  | _, _ => false
termination_by structural xs => xs

end

/-- Values that may be missing are the same when both are missing or both are
    there and the same. -/
def sameOptional : Option Value → Option Value → Bool
  | none, none => true
  | some x, some y => same x y
  | _, _ => false

end Value

end WideColumn
