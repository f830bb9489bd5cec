import WideColumn.Binary64.Decimal

/-!
# Written Doubles

How the shortest digits of a double are laid out as text.

Two formats write doubles, and they agree on the plan: the shortest digits that
read back, positional in a middle range and with a power of ten outside it. A
positional number always has a fraction, if only `.0`, and a number with a
power of ten has one digit before its point and no point when that is the only
digit. Where the formats part is what a `Layout` records.

## Main definitions

* `Layout`: The decisions in which written formats differ.
* `write`: The text of a finite number.
-/

namespace WideColumn

/-- The decisions of a written format for doubles. -/
structure Layout where
  /-- The choice between two shortest decimals that are equally near. -/
  tie : Tie
  /-- Numbers of a lower order than this are written with a power of ten. -/
  leastOrder : Int
  /-- Numbers of this order or a higher one are written with a power of ten. -/
  orderLimit : Int
  /-- A power of ten that is not negative carries a plus sign. -/
  plusSign : Bool

namespace Layout

/-- Digits of the given order in positional notation. -/
def positional (digits : List Char) (order : Int) : List Char :=
  if order < 0 then
    '0' :: '.' :: (List.replicate (-order - 1).toNat '0' ++ digits)
  else
    let whole := order.toNat + 1
    if digits.length ≤ whole then
      digits ++ List.replicate (whole - digits.length) '0' ++ ['.', '0']
    else digits.take whole ++ '.' :: digits.drop whole

/-- Digits of the given order as a number below ten and a power of ten. -/
def scientific (layout : Layout) (digits : List Char) (order : Int) : List Char :=
  let power := if layout.plusSign && 0 ≤ order then '+' :: (Int.repr order).toList
    else (Int.repr order).toList
  match digits with
  | [] => []
  | [first] => first :: 'e' :: power
  | first :: rest => first :: '.' :: rest ++ 'e' :: power

/-- The text of a finite number's absolute value. -/
def writeAbs (layout : Layout) (x : Binary64) : List Char :=
  let decimal := x.shortest layout.tie
  let digits := Nat.toDigits 10 decimal.digits
  let order := decimal.order
  if x.magnitude = 0 then positional ['0'] 0
  else if layout.leastOrder ≤ order && order < layout.orderLimit then positional digits order
  else layout.scientific digits order

/-- The text of a finite number. A set sign is written for zero as well. -/
def write (layout : Layout) (x : Binary64) : String :=
  String.ofList (if x.isNegative then '-' :: layout.writeAbs x else layout.writeAbs x)

end Layout

end WideColumn
