import WideColumn.Value.Basic
import WideColumn.Binary64.Rounding

/-!
# Comparing Values

The partial order of values and the order that scans sort by.

Only scalars of one type compare. Numbers compare across their two forms after
the integer has gone to its nearest double, so integers that are too large to
be doubles are equal to a double they are not the same as. What is no number
compares with nothing.

A scan must place every two rows, so `keyOrder` fills the gaps: missing values
come first, and values that do not compare go by type. Values of one type that
do not compare therefore tie. That holds of lists and maps, and of a double
that is no number beside any number.

## Main definitions

* `compare?`: The order of scalars of one type.
* `equals`: Equality as conditions test it.
* `keyOrder`: The order of optional values that scans sort by.
* `startsWith`: The initial parts of strings and binaries.
-/

namespace WideColumn

namespace Value

/-- The order of two scalars of one type. Strings go by code points, binaries
    by bytes, and false comes before true. -/
def compare? : Value → Value → Option Ordering
  | string a, string b => some (compare a b)
  | integer a, integer b => some (compare a.toInt b.toInt)
  | integer a, float b => (Binary64.ofInt a.toInt).compare? b
  | float a, integer b => a.compare? (Binary64.ofInt b.toInt)
  | float a, float b => a.compare? b
  | binary a, binary b => some (compare a b)
  | boolean a, boolean b => some (compare a b)
  | _, _ => none

/-- The values compare equal, or do not compare and are the same. -/
def equals (a b : Value) : Bool :=
  match a.compare? b with
  | some ordering => ordering == .eq
  | none => a.same b

/-- `a` compares, and not above `b`. -/
def atMost (a b : Value) : Bool :=
  (a.compare? b).any (·.isLE)

/-- `a` compares, and not below `b`. -/
def atLeast (a b : Value) : Bool :=
  (a.compare? b).any (·.isGE)

/-- The place of a type among the types. -/
def typeRank (v : Value) : Nat :=
  match v.type with
  | .null => 0
  | .boolean => 1
  | .number => 2
  | .string => 3
  | .binary => 4
  | .list => 5
  | .map => 6

/-- The order that scans sort by. -/
def keyOrder : Option Value → Option Value → Ordering
  | none, none => .eq
  | none, some _ => .lt
  | some _, none => .gt
  | some a, some b => (a.compare? b).getD (compare a.typeRank b.typeRank)

/-- The value is a string that starts with the text, or a binary that starts
    with the text in UTF-8. -/
def startsWith (v : Value) (start : String) : Bool :=
  match v with
  | string s => start.toList.isPrefixOf s.toList
  | binary bytes => start.toUTF8.toList.isPrefixOf bytes
  | _ => false

end Value

end WideColumn
