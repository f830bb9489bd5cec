import WideColumn.Value.Basic

/-!
# Conditions

Boolean conditions over the attributes of an item.

Key conditions and filters are conditions, and so are the predicates by which a
caller says what conditions on single attributes cannot: disjunctions,
negations and existence.

`all?` puts a list of conditions into one. It opens nested conjunctions, so the
result is a conjunction of conditions that are not themselves conjunctions, and
it makes no conjunction of fewer than two.

## Main definitions

* `Comparator`: The six comparisons.
* `Condition`: The conditions.
* `Condition.conjuncts`: What a condition is the conjunction of.
* `Condition.all?`: The conjunction of a list.
-/

namespace WideColumn

/-- How the attribute of an item is compared with an operand. -/
inductive Comparator where
  | equal
  | notEqual
  | less
  | lessOrEqual
  | greater
  | greaterOrEqual
deriving DecidableEq

namespace Comparator

/-- The name of a comparison in documents. -/
def name : Comparator → String
  | equal => "Equal"
  | notEqual => "NotEqual"
  | less => "LessThan"
  | lessOrEqual => "LessThanOrEqual"
  | greater => "GreaterThan"
  | greaterOrEqual => "GreaterThanOrEqual"

/-- The operator of a comparison in expressions. -/
def symbol : Comparator → String
  | equal => "="
  | notEqual => "<>"
  | less => "<"
  | lessOrEqual => "<="
  | greater => ">"
  | greaterOrEqual => ">="

/-- Every comparison, for reading names. -/
def all : List Comparator :=
  [equal, notEqual, less, lessOrEqual, greater, greaterOrEqual]

end Comparator

/-- What may be asked of an item. Junctions take any number of conditions, even none. -/
inductive Condition where
  | comparison (attr : String) (comparator : Comparator) (value : Value)
  | between (attr : String) (low high : Value)
  | beginsWith (attr : String) (start : String)
  | isIn (attr : String) (values : List Value)
  | contains (attr : String) (value : Value)
  | attributeExists (attr : String)
  | attributeNotExists (attr : String)
  | and (inner : List Condition)
  | or (inner : List Condition)
  | not (inner : Condition)

namespace Condition

/-- Two conditions at once. -/
def both (a b : Condition) : Condition := .and [a, b]

/-- At least one of two conditions. -/
def either (a b : Condition) : Condition := .or [a, b]

mutual

/-- The conditions that a condition is the conjunction of, from left to right.
    None of them is a conjunction. -/
def conjuncts : Condition → List Condition
  | .and inner => conjunctsOfAll inner
  | c => [c]

/-- The conjuncts of each condition in turn. -/
def conjunctsOfAll : List Condition → List Condition
  | [] => []
  | c :: rest => conjuncts c ++ conjunctsOfAll rest

end

/-- The conjunction of conjuncts: nothing of none, and a single one itself. -/
def conjoin? : List Condition → Option Condition
  | [] => none
  | [c] => some c
  | cs => some (.and cs)

/-- The conjunction of a list of conditions, with nested conjunctions opened. -/
def all? (conditions : List Condition) : Option Condition :=
  conjoin? (conjunctsOfAll conditions)

end Condition

end WideColumn
