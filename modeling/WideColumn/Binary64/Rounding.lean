import WideColumn.Binary64.Basic

/-!
# Rounding to Double Precision

The double nearest to a rational number, and the arithmetic that follows.

A nonnegative rational is scaled so that the last place of the double falls on
the units, rounded there to the nearest integer with ties to the even one, and
packed. Packing needs no case for a carry out of the significand nor one for
the subnormal range: the exponent field and the fraction are neighbours, so
adding the rounded significand to the shifted exponent is right for all of
them, and a result past the last finite number is cut back to infinity.

Products and quotients are the nearest doubles to the exact results, which is
what the format asks of them.

## Main definitions

* `nearestMagnitude`: The magnitude nearest to a rational.
* `ofRatio`: The signed double nearest to a rational.
* `ofNat`, `ofInt`: The doubles nearest to integers.
* `mul`, `div`: Multiplication and division.
-/

namespace WideColumn

/-- The integer nearest to `num / den`, the even one of two that are equally
    near. -/
def roundHalfEven (num den : Nat) : Nat :=
  let floor := num / den
  let rest := num % den
  if 2 * rest < den then floor
  else if den < 2 * rest then floor + 1
  else floor + floor % 2

/-- The greatest power of two that is not above `num / den`, for a positive
    numerator and denominator. -/
def floorLog2 (num den : Nat) : Int :=
  let guess : Int := (Nat.log2 num : Int) - Nat.log2 den
  if num * Nat.pow 2 (-guess).toNat < den * Nat.pow 2 guess.toNat then guess - 1 else guess

namespace Binary64

/-- The magnitude of the double nearest to `num / den`, the one with an even
    significand of two that are equally near. What exceeds the last finite
    number by half a place or more becomes infinity. -/
def nearestMagnitude (num den : Nat) : Nat :=
  if num = 0 then 0
  else
    -- The weight of the last place: 52 places under the first, or the least there is.
    let place := max (floorLog2 num den - 52) (-1074)
    let units := roundHalfEven (num * Nat.pow 2 (-place).toNat) (den * Nat.pow 2 place.toNat)
    min infiniteMagnitude ((place + 1074).toNat * fractions + units)

/-- The double nearest to `num / den` under a sign. -/
def ofRatio (negative : Bool) (num den : Nat) : Binary64 :=
  ofMagnitude negative (nearestMagnitude num den)

/-- The double nearest to a natural number. -/
def ofNat (n : Nat) : Binary64 :=
  ofRatio false n 1

/-- The double nearest to an integer. Zero has a clear sign. -/
def ofInt (i : Int) : Binary64 :=
  ofRatio (i < 0) i.natAbs 1

/-- Multiplication: the double nearest to the exact product. -/
def mul (x y : Binary64) : Binary64 :=
  let negative := x.isNegative != y.isNegative
  if x.isNaN || y.isNaN then nan
  else if x.isFinite && y.isFinite then
    ofRatio negative (x.absRatio.1 * y.absRatio.1) (x.absRatio.2 * y.absRatio.2)
  else if x.magnitude = 0 || y.magnitude = 0 then nan
  else infinity negative

/-- Division: the double nearest to the exact quotient. -/
def div (x y : Binary64) : Binary64 :=
  let negative := x.isNegative != y.isNegative
  if x.isNaN || y.isNaN then nan
  else if y.magnitude = 0 then
    if x.magnitude = 0 then nan else infinity negative
  else if !y.isFinite then
    if x.isFinite then ofMagnitude negative 0 else nan
  else if !x.isFinite then infinity negative
  else ofRatio negative (x.absRatio.1 * y.absRatio.2) (x.absRatio.2 * y.absRatio.1)

end Binary64

end WideColumn
