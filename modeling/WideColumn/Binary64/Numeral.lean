import WideColumn.Binary64.Decimal

/-!
# Numerals

Decimal numerals as they are read.

The formats that hold numbers as text share one shape, digits with an optional
fraction and an optional power of ten, and differ in which digits may be left
out. `scan` reads the shape and keeps the digits as they stand, so that each
format can state its own condition on them.

## Main definitions

* `Numeral`: The parts of a numeral.
* `scan`: Reading the parts, with nothing left over.
* `decimal`: The number that the parts stand for.
-/

namespace WideColumn

/-- The value of a row of decimal digits. -/
def digitsValue (digits : List Char) : Nat :=
  digits.foldl (fun value c => 10 * value + (c.toNat - '0'.toNat)) 0

/-- The parts of an unsigned numeral. -/
structure Numeral where
  /-- The digits before the point. -/
  whole : List Char
  /-- The digits after the point, if there is one. -/
  fraction : Option (List Char)
  /-- The power of ten, if one is written. -/
  power : Option Int
deriving DecidableEq

namespace Numeral

/-- Read a power of ten: an optional sign and at least one digit, to the end. -/
def scanPower (cs : List Char) : Option Int :=
  let unsigned (ds : List Char) : Option Nat :=
    if ds.isEmpty || !ds.all Char.isDigit then none else some (digitsValue ds)
  match cs with
  | '-' :: ds => (unsigned ds).map fun n => -(n : Int)
  | '+' :: ds => (unsigned ds).map Int.ofNat
  | ds => (unsigned ds).map Int.ofNat

/-- Read what may follow the digits and the fraction: nothing, or a power. -/
def scanTail (whole : List Char) (fraction : Option (List Char)) :
    List Char → Option Numeral
  | [] => some ⟨whole, fraction, none⟩
  | c :: cs =>
    if c = 'e' || c = 'E' then (scanPower cs).map fun p => ⟨whole, fraction, some p⟩
    else none

/-- Read an unsigned numeral to the end of the text. The digits before and
    after the point may both be missing. -/
def scan (cs : List Char) : Option Numeral :=
  let whole := cs.takeWhile Char.isDigit
  match cs.dropWhile Char.isDigit with
  | '.' :: rest =>
    scanTail whole (some (rest.takeWhile Char.isDigit)) (rest.dropWhile Char.isDigit)
  | rest => scanTail whole none rest

/-- The number that the numeral stands for. -/
def decimal (n : Numeral) : Decimal :=
  let fraction := n.fraction.getD []
  ⟨digitsValue (n.whole ++ fraction), n.power.getD 0 - fraction.length⟩

end Numeral

end WideColumn
