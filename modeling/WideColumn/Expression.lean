import WideColumn.Condition.Basic

/-!
# Query Expressions

What a caller asks for, before it is known which index will serve it.

An expression holds at most one filter for each attribute, in the order in
which the attributes were first filtered, and next to them an order, a
selection of attributes, a demand for consistent reads and predicates. Nothing
in it is checked here: whether some index can serve it is for selection to say.

A selection of no attributes is a selection. It differs from none having been
made, in which case whole items are asked for.

## Main definitions

* `Filter`, `FilterKind`: A condition on a single attribute, and its kind.
* `Filter.toCondition`: The filter as a condition.
* `Expression`: What is asked for.
* `Expression.Call`, `Expression.ofCalls`: Building an expression step by step.
-/

namespace WideColumn

/-- The kind of a filter, without its operands. -/
inductive FilterKind where
  | equal
  | less
  | greater
  | lessOrEqual
  | greaterOrEqual
  | between
  | beginsWith
deriving DecidableEq

namespace FilterKind

/-- The name of a kind in documents. -/
def name : FilterKind → String
  | equal => "Equal"
  | less => "LessThan"
  | greater => "GreaterThan"
  | lessOrEqual => "LessThanOrEqual"
  | greaterOrEqual => "GreaterThanOrEqual"
  | between => "Between"
  | beginsWith => "BeginsWith"

/-- Every kind, for reading names. -/
def all : List FilterKind :=
  [equal, less, greater, lessOrEqual, greaterOrEqual, between, beginsWith]

end FilterKind

/-- A condition on a single attribute, which is named elsewhere. -/
inductive Filter where
  | equal (v : Value)
  | less (v : Value)
  | greater (v : Value)
  | lessOrEqual (v : Value)
  | greaterOrEqual (v : Value)
  | between (low high : Value)
  | beginsWith (start : String)

namespace Filter

/-- The kind of a filter. -/
def kind : Filter → FilterKind
  | equal _ => .equal
  | less _ => .less
  | greater _ => .greater
  | lessOrEqual _ => .lessOrEqual
  | greaterOrEqual _ => .greaterOrEqual
  | between _ _ => .between
  | beginsWith _ => .beginsWith

/-- The filter asks for one value. -/
def isEqual (f : Filter) : Bool :=
  f.kind == .equal

/-- The filter as a condition on an attribute. -/
def toCondition (attr : String) : Filter → Condition
  | equal v => .comparison attr .equal v
  | less v => .comparison attr .less v
  | greater v => .comparison attr .greater v
  | lessOrEqual v => .comparison attr .lessOrEqual v
  | greaterOrEqual v => .comparison attr .greaterOrEqual v
  | between low high => .between attr low high
  | beginsWith start => .beginsWith attr start

end Filter

/-- An order of results by an attribute. -/
structure OrderBy where
  attr : String
  ascending : Bool
deriving DecidableEq

/-- What a caller asks for. -/
structure Expression where
  /-- The filters, in the order in which their attributes were first named. -/
  filters : List (String × Filter)
  /-- The selected attributes, if a selection was made. -/
  selected : Option (List String)
  order : Option OrderBy
  /-- Reads must see every write that was acknowledged before. -/
  consistent : Bool
  predicates : List Condition

/-- Put a filter in place of the one on the attribute, or behind all others. -/
def placeFilter (attr : String) (f : Filter) :
    List (String × Filter) → List (String × Filter)
  | [] => [(attr, f)]
  | (other, g) :: rest =>
    if attr = other then (attr, f) :: rest
    else (other, g) :: placeFilter attr f rest

namespace Expression

/-- The expression that asks for everything. -/
def empty : Expression where
  filters := []
  selected := none
  order := none
  consistent := false
  predicates := []

/-- The filter on an attribute, of which there is at most one. -/
def filterOn (e : Expression) (attr : String) : Option Filter :=
  e.filters.lookup attr

/-- A step of building an expression. -/
inductive Call where
  /-- Filter an attribute, in place of an earlier filter on it. -/
  | filter (attr : String) (f : Filter)
  /-- Order the results, in place of an earlier order. -/
  | orderBy (attr : String) (ascending : Bool)
  /-- Select attributes in addition to those already selected. -/
  | select (attributes : List String)
  /-- Demand consistent reads, or give up the demand. -/
  | consistentRead (demanded : Bool)
  /-- Ask for one more predicate. -/
  | filterBy (predicate : Condition)

/-- The expression after one more step. -/
def apply (e : Expression) : Call → Expression
  | .filter attr f => { e with filters := placeFilter attr f e.filters }
  | .orderBy attr ascending => { e with order := some ⟨attr, ascending⟩ }
  | .select attributes => { e with selected := some (e.selected.getD [] ++ attributes) }
  | .consistentRead demanded => { e with consistent := demanded }
  | .filterBy predicate => { e with predicates := e.predicates ++ [predicate] }

/-- The expression that the steps build from the empty one. -/
def ofCalls (calls : List Call) : Expression :=
  calls.foldl apply empty

end Expression

end WideColumn
