import WideColumn.Keyed
import WideColumn.Binary64.Rounding

/-!
# JSON Values

The values that JSON texts stand for.

A number is kept as one of three kinds, so that integers survive unrounded: the
integers that are not negative and fit 64 bits, the negative integers that fit
64 bits, and finite doubles. The kinds do not overlap. An integral double is
still a double, and the negative kind holds no zero.

An object lists its members. Objects that are read are keyed lists; objects
that are written may list their members in the order their format prescribes.

## Main definitions

* `Json.Number`: The numbers, in three kinds.
* `Json`: The values.
* `Json.ofDouble`: A double, or null where it is no finite number.
-/

namespace WideColumn

/-- A number as it was read: the three kinds are kept apart, and no number is of two of them. -/
inductive Json.Number where
  /-- An integer from zero up. -/
  | natural (n : UInt64)
  /-- An integer below zero. -/
  | negative (i : Int64) (neg : i < 0)
  /-- A number with a fraction or a power of ten, or beyond the integers. -/
  | double (x : Binary64) (finite : x.isFinite = true)
deriving DecidableEq

/-- A JSON value. The members of an object stand in the order in which they are written. -/
inductive Json where
  | null
  | bool (b : Bool)
  | number (n : Json.Number)
  | string (s : String)
  | array (elements : List Json)
  | object (members : List (String × Json))

namespace Json

namespace Number

/-- A signed integer as a number, of the kind its sign asks for. -/
def ofInt64 (i : Int64) : Number :=
  if neg : i < 0 then .negative i neg else .natural i.toInt.toNat.toUInt64

/-- A double as a number, if it is finite. -/
def ofDouble? (x : Binary64) : Option Number :=
  if finite : x.isFinite = true then some (.double x finite) else none

/-- The number as a signed integer, if it is an integer that fits one. -/
def toInt64? : Number → Option Int64
  | .natural n => if n.toNat < 0x8000000000000000 then some (Int64.ofNat n.toNat) else none
  | .negative i _ => some i
  | .double _ _ => none

/-- The double nearest to the number. -/
def toDouble : Number → Binary64
  | .natural n => Binary64.ofNat n.toNat
  | .negative i _ => Binary64.ofInt i.toInt
  | .double x _ => x

/-- The number as a double, if it has a nearest one. All three kinds do. -/
def toDouble? (n : Number) : Option Binary64 :=
  some n.toDouble

end Number

/-- A signed integer. -/
def ofInt64 (i : Int64) : Json :=
  .number (.ofInt64 i)

/-- A natural number, which is taken modulo the range of the integers. -/
def ofNat (n : Nat) : Json :=
  .number (.natural n.toUInt64)

/-- A double. What is no finite number has no numeral and becomes null. -/
def ofDouble (x : Binary64) : Json :=
  ((Number.ofDouble? x).map Json.number).getD .null

/-- The content of an optional value, or null. -/
def ofOption {α : Type} (f : α → Json) : Option α → Json
  | none => .null
  | some a => f a

end Json

end WideColumn
