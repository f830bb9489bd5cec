import WideColumn.Condition.Basic
import WideColumn.Value.Order

/-!
# Conditions on Items

Whether an item satisfies a condition.

A condition on an attribute that the item lacks does not hold, with two
exceptions: a comparison by `notEqual` and the condition that the attribute is
missing. Ordering comparisons of values that do not compare do not hold either,
and neither does their opposite, so negating one is not the same as turning its
sign around.

## Main definitions

* `Comparator.holds`: A comparison of two values.
* `Value.includes`: Texts within texts and elements within lists.
* `Condition.holds`: Whether an item satisfies a condition.
-/

namespace WideColumn

/-- The comparison holds between a value and the one it is compared with. -/
def Comparator.holds : Comparator → Value → Value → Bool
  | equal, actual, expected => actual.equals expected
  | notEqual, actual, expected => !actual.equals expected
  | less, actual, expected => actual.compare? expected == some .lt
  | lessOrEqual, actual, expected => actual.atMost expected
  | greater, actual, expected => actual.compare? expected == some .gt
  | greaterOrEqual, actual, expected => actual.atLeast expected

/-- The characters occur one after the other somewhere in the text. -/
def occursIn (cs : List Char) : List Char → Bool
  | [] => cs.isEmpty
  | c :: rest => cs.isPrefixOf (c :: rest) || occursIn cs rest

/-- The value is a string with the text in it, or a list with an equal element. -/
def Value.includes (v part : Value) : Bool :=
  match v, part with
  | .string s, .string t => occursIn t.toList s.toList
  | .list elements, part => elements.any (·.equals part)
  | _, _ => false

namespace Condition

mutual

/-- The item satisfies the condition. -/
def holds : Condition → Item → Bool
  | .comparison attr comparator value, item =>
    match item.get? attr with
    | some actual => comparator.holds actual value
    | none => comparator == .notEqual
  | .between attr low high, item =>
    (item.get? attr).any fun actual => actual.atLeast low && actual.atMost high
  | .beginsWith attr start, item =>
    (item.get? attr).any fun actual => actual.startsWith start
  | .isIn attr values, item =>
    (item.get? attr).any fun actual => values.any fun v => actual.equals v
  | .contains attr value, item =>
    (item.get? attr).any fun actual => actual.includes value
  | .attributeExists attr, item => (item.get? attr).isSome
  | .attributeNotExists attr, item => (item.get? attr).isNone
  | .and inner, item => holdsAll inner item
  | .or inner, item => holdsAny inner item
  | .not inner, item => !holds inner item
termination_by structural c => c

/-- The item satisfies every condition of the list. -/
def holdsAll : List Condition → Item → Bool
  | [], _ => true
  | c :: rest, item => holds c item && holdsAll rest item
termination_by structural cs => cs

/-- The item satisfies some condition of the list. -/
def holdsAny : List Condition → Item → Bool
  | [], _ => false
  | c :: rest, item => holds c item || holdsAny rest item
termination_by structural cs => cs

end

end Condition

end WideColumn
