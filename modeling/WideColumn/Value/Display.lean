import WideColumn.Value.OfJson
import WideColumn.Json.Printer
import WideColumn.Text.Quoted

/-!
# Displayed Values

The text that shows a value to a reader.

Scalars are shown so that their type can be told: strings are quoted, and a
double always has a fraction or a power of ten. Lists and maps are shown as
their JSON text, in which the doubles follow JSON's layout instead.

## Main definitions

* `Value.layout`: How a double is shown.
* `Value.display`: The text of a value.
-/

namespace WideColumn

namespace Value

/-- Doubles are positional from 0.0001 up to and without ten to the sixteenth, a
    power of ten carries no plus sign, and of two shortest decimals that are
    equally near the greater one is shown. -/
def layout : Layout where
  tie := .up
  leastOrder := -4
  orderLimit := 16
  plusSign := false

/-- A double on display, with words for what has no numeral. -/
def displayDouble (x : Binary64) : String :=
  if x.isFinite then layout.write x
  else if x.isNaN then "NaN"
  else if x.isNegative then "-inf"
  else "inf"

/-- A value on display. Compound values are shown as their JSON. -/
def display : Value → String
  | string s => Text.quote s
  | integer i => Int.repr i.toInt
  | float x => displayDouble x
  | boolean true => "true"
  | boolean false => "false"
  | binary bytes => "[" ++ ", ".intercalate (bytes.map fun byte => Nat.repr byte.toNat) ++ "]"
  | null => "null"
  | list elements => (toJson (list elements)).render
  | map entries => (toJson (map entries)).render

end Value

end WideColumn
