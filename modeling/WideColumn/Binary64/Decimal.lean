import WideColumn.Binary64.Rounding

/-!
# Doubles and Decimals

The two directions between doubles and decimal numbers: the double nearest to
a decimal, and the shortest decimal whose nearest double is a given one.

The shortest decimal is looked for on ever finer grids. On the multiples of a
power of ten a double has two neighbours, the last multiple that is not above
it and the next one, and if any multiple of that power reads back then one of
the two does. So the first grid with a neighbour that reads back gives the
fewest digits, and the nearer neighbour on it is the closest of the shortest.
Where both neighbours are equally near, which of them is taken is the caller's
to say, since written formats disagree on it.

## Main definitions

* `Decimal`: Digits and a power of ten.
* `ofDecimal`: The double nearest to a decimal.
* `Tie`: What to do between two decimals that are equally near.
* `shortest`: The fewest digits that read back.
-/

namespace WideColumn

/-- The decimal number `digits * 10 ^ exponent`. -/
structure Decimal where
  digits : Nat
  exponent : Int
deriving DecidableEq

namespace Decimal

/-- The decimal as a numerator over a denominator. -/
def ratio (d : Decimal) : Nat × Nat :=
  (d.digits * Nat.pow 10 d.exponent.toNat, Nat.pow 10 (-d.exponent).toNat)

/-- The power of ten of the first digit. -/
def order (d : Decimal) : Int :=
  d.exponent + (Nat.toDigits 10 d.digits).length - 1

end Decimal

/-- The choice between two decimals that are equally near to a number. -/
inductive Tie where
  /-- Take the one with an even last digit. -/
  | even
  /-- Take the greater one. -/
  | up
deriving DecidableEq

namespace Binary64

/-- The double nearest to a decimal under a sign. Orders far outside the range
    of the format are settled before any power of ten is formed. -/
def ofDecimal (negative : Bool) (d : Decimal) : Binary64 :=
  if d.digits = 0 || d.order < -400 then ofMagnitude negative 0
  else if 400 < d.order then infinity negative
  else ofRatio negative d.ratio.1 d.ratio.2

/-- The decimal's nearest double has this magnitude. -/
def readsAs (magnitude : Nat) (d : Decimal) : Bool :=
  nearestMagnitude d.ratio.1 d.ratio.2 == magnitude

/-- The decimal on the grid of `10 ^ exponent` to write for `num / den`: the
    nearer of the two neighbours among those that read back. -/
def neighbour? (tie : Tie) (magnitude num den : Nat) (exponent : Int) : Option Decimal :=
  let scaledNum := num * Nat.pow 10 (-exponent).toNat
  let scaledDen := den * Nat.pow 10 exponent.toNat
  let lower : Decimal := ⟨scaledNum / scaledDen, exponent⟩
  let upper : Decimal := ⟨scaledNum / scaledDen + 1, exponent⟩
  let rest := 2 * (scaledNum % scaledDen)
  let upperIsNearer := scaledDen < rest ||
    (scaledDen == rest && (tie == .up || lower.digits % 2 == 1))
  match readsAs magnitude lower, readsAs magnitude upper with
  | true, true => some (if upperIsNearer then upper else lower)
  | true, false => some lower
  | false, true => some upper
  | false, false => none

/-- Search `steps` grids, each ten times finer than the last, for the first
    decimal that reads back. -/
def search (tie : Tie) (magnitude num den : Nat) : Nat → Int → Decimal
  | 0, exponent =>
    ⟨num * Nat.pow 10 (-exponent).toNat / (den * Nat.pow 10 exponent.toNat), exponent⟩
  | steps + 1, exponent =>
    match neighbour? tie magnitude num den exponent with
    | some d => d
    | none => search tie magnitude num den steps (exponent - 1)

/-- The decimal with the fewest digits that reads back as the absolute value
    of a finite number, and the closest one of those. -/
def shortest (tie : Tie) (x : Binary64) : Decimal :=
  if x.magnitude = 0 then ⟨0, 0⟩
  else
    let num := x.absRatio.1
    let den := x.absRatio.2
    -- A double has at most 17 digits, and this start lies at most four orders too high.
    let start := (floorLog2 num den + 1) * 30103 / 100000 + 1
    search tie x.magnitude num den 22 start

end Binary64

end WideColumn
