/-!
# Double Precision Numbers

Numbers of the 64 bit binary floating format, held by their bits.

Everything the library needs of a double is a statement about those bits, so
nothing here goes through a machine float: a bit pattern is a sign and a
magnitude, the magnitudes of the numbers stand in the order of the numbers,
and the greatest magnitude of a number is infinity. Above it lie the patterns
that stand for no number.

`rank` puts the sign in front of the magnitude. The two zeros share a rank, so
comparing ranks is the numerical comparison, and the only patterns it must
leave out are the ones that are no number.

## Main definitions

* `Binary64`: A bit pattern.
* `rank`: The place of a number among all numbers.
* `compare?`: The numerical order, undefined where either side is no number.
* `equal`: Numerical equality, which no pattern that is no number satisfies.
* `significand`, `exponent`: The value of a finite number, split.
-/

namespace WideColumn

/-- A double precision number, held by its bits. Two values are the same
    when their bits are, so the zeros differ here; `Binary64.equal` is the
    numerical comparison. -/
structure Binary64 where
  bits : UInt64
deriving DecidableEq

namespace Binary64

/-- The sign bit, read as a natural number. -/
def signBit : Nat := 0x8000000000000000

/-- How many patterns the fraction field has. -/
def fractions : Nat := 0x10000000000000

/-- The bits below the sign, read as a natural number. -/
def magnitude (x : Binary64) : Nat :=
  x.bits.toNat % signBit

/-- The sign bit is set. -/
def isNegative (x : Binary64) : Bool :=
  signBit ≤ x.bits.toNat

/-- The magnitude of infinity: an exponent field of all ones and no fraction. -/
def infiniteMagnitude : Nat :=
  0x7FF * fractions

/-- Patterns beyond infinity stand for no number. -/
def isNaN (x : Binary64) : Bool :=
  infiniteMagnitude < x.magnitude

/-- The pattern stands for a number that is not infinite. -/
def isFinite (x : Binary64) : Bool :=
  x.magnitude < infiniteMagnitude

/-- The pattern of a sign and a magnitude. -/
def ofMagnitude (negative : Bool) (magnitude : Nat) : Binary64 :=
  ⟨UInt64.ofNat (if negative then signBit + magnitude else magnitude)⟩

/-- Zero with a clear sign. -/
def zero : Binary64 := ofMagnitude false 0

/-- Infinity of either sign. -/
def infinity (negative : Bool) : Binary64 := ofMagnitude negative infiniteMagnitude

/-- The pattern written for every result that is no number. -/
def nan : Binary64 := ⟨0x7FF8000000000000⟩

/-- The greatest finite number. -/
def greatest : Binary64 := ofMagnitude false (infiniteMagnitude - 1)

/-- The place of a number among all numbers: its magnitude under its sign.
    Both zeros have rank zero. -/
def rank (x : Binary64) : Int :=
  if x.isNegative then -(x.magnitude : Int) else x.magnitude

/-- The numerical order. It is undefined where either side is no number. -/
def compare? (x y : Binary64) : Option Ordering :=
  if x.isNaN || y.isNaN then none else some (compare x.rank y.rank)

/-- Numerical equality. The zeros are equal, and a pattern that is no number
    equals nothing, itself included. -/
def equal (x y : Binary64) : Bool :=
  x.compare? y == some .eq

/-- `x` lies strictly below `y`. -/
def below (x y : Binary64) : Bool :=
  x.compare? y == some .lt

/-- The integer factor of a finite number's value. -/
def significand (x : Binary64) : Nat :=
  if x.magnitude < fractions then x.magnitude else fractions + x.magnitude % fractions

/-- The power of two that multiplies the significand. -/
def exponent (x : Binary64) : Int :=
  if x.magnitude < fractions then -1074 else (x.magnitude / fractions : Nat) - 1075

/-- The absolute value of a finite number as a numerator over a denominator,
    one of which is a power of two. -/
def absRatio (x : Binary64) : Nat × Nat :=
  (x.significand * Nat.pow 2 x.exponent.toNat, Nat.pow 2 (-x.exponent).toNat)

end Binary64

end WideColumn
