import WideColumn.Request.Basic

/-!
# What Conditions Mention

The attributes and the operands of a condition, from left to right.

These are all that a condition has from its caller. What is left of it without them is its
shape, which is the same for a condition in which every attribute and every operand was
replaced by another one. A replacement must keep different attributes apart, since whether
two parts of a condition are about one attribute belongs to the shape. Operands need not be
kept apart, and nothing is asked of what takes their place.

The text that a value is to begin with is an operand of its own kind. It is no value, but
stands for one wherever operands are bound.

## Main definitions

* `Condition.attributes`: The attributes that a condition mentions.
* `Operand`, `Condition.operands`: The operands that it mentions.
* `Replacement`: Other attributes and operands in place of all that there are.
* `Condition.replaced`, `QueryRequest.replaced`: A condition and a request with replacements.

## Theorems

* `operands_replaced`: A condition mentions the replacements of its operands.
* `toCondition_replaced`: Replacing in a key condition is replacing in the condition it is.
-/

namespace WideColumn

/-- What a placeholder can stand for: a value, or a text that a value is to begin with. -/
inductive Operand where
  | value (v : Value)
  | start (text : String)

/-- The value that an operand is bound as. -/
def Operand.bound : Operand → Value
  | value v => v
  | start text => .string text

namespace Condition

mutual

/-- The attributes that a condition mentions. -/
def attributes : Condition → List String
  | .comparison attr _ _ => [attr]
  | .between attr _ _ => [attr]
  | .beginsWith attr _ => [attr]
  | .isIn attr _ => [attr]
  | .contains attr _ => [attr]
  | .attributeExists attr => [attr]
  | .attributeNotExists attr => [attr]
  | .and inner => attributesOfAll inner
  | .or inner => attributesOfAll inner
  | .not inner => attributes inner
termination_by structural c => c

/-- The attributes of each condition in turn. -/
def attributesOfAll : List Condition → List String
  | [] => []
  | c :: rest => attributes c ++ attributesOfAll rest
termination_by structural cs => cs

end

mutual

/-- The operands that a condition mentions. -/
def operands : Condition → List Operand
  | .comparison _ _ v => [.value v]
  | .between _ low high => [.value low, .value high]
  | .beginsWith _ start => [.start start]
  | .isIn _ vs => vs.map .value
  | .contains _ v => [.value v]
  | .attributeExists _ => []
  | .attributeNotExists _ => []
  | .and inner => operandsOfAll inner
  | .or inner => operandsOfAll inner
  | .not inner => operands inner
termination_by structural c => c

/-- The operands of each condition in turn. -/
def operandsOfAll : List Condition → List Operand
  | [] => []
  | c :: rest => operands c ++ operandsOfAll rest
termination_by structural cs => cs

end

end Condition

/-- Other attributes and operands in place of all that there are. Attributes that differ have
    replacements that differ. -/
structure Replacement where
  attr : String → String
  value : Value → Value
  start : String → String
  attr_injective : Function.Injective attr

/-- What takes the place of an operand. -/
def Replacement.operand (r : Replacement) : Operand → Operand
  | .value v => .value (r.value v)
  | .start text => .start (r.start text)

namespace Condition

mutual

/-- The condition with everything replaced, at every depth. -/
def replaced (r : Replacement) : Condition → Condition
  | .comparison attr comparator v => .comparison (r.attr attr) comparator (r.value v)
  | .between attr low high => .between (r.attr attr) (r.value low) (r.value high)
  | .beginsWith attr start => .beginsWith (r.attr attr) (r.start start)
  | .isIn attr vs => .isIn (r.attr attr) (vs.map r.value)
  | .contains attr v => .contains (r.attr attr) (r.value v)
  | .attributeExists attr => .attributeExists (r.attr attr)
  | .attributeNotExists attr => .attributeNotExists (r.attr attr)
  | .and inner => .and (allReplaced r inner)
  | .or inner => .or (allReplaced r inner)
  | .not inner => .not (replaced r inner)
termination_by structural c => c

/-- Each of the conditions with others in place of its names and operands. -/
def allReplaced (r : Replacement) : List Condition → List Condition
  | [] => []
  | c :: rest => replaced r c :: allReplaced r rest
termination_by structural cs => cs

end

mutual

/-- A condition mentions the replacements of its operands. -/
theorem operands_replaced (r : Replacement) (c : Condition) :
    (c.replaced r).operands = c.operands.map r.operand := by
  cases c with
  | isIn attr vs =>
      rw [replaced, operands, operands, List.map_map, List.map_map]
      rfl
  | and inner => exact operandsOfAll_replaced r inner
  | or inner => exact operandsOfAll_replaced r inner
  | not inner => exact operands_replaced r inner
  | _ => rfl

theorem operandsOfAll_replaced (r : Replacement) (cs : List Condition) :
    operandsOfAll (allReplaced r cs) = (operandsOfAll cs).map r.operand := by
  cases cs with
  | nil => rfl
  | cons c rest =>
      rw [allReplaced, operandsOfAll, operandsOfAll, List.map_append, operands_replaced r c,
        operandsOfAll_replaced r rest]

end

end Condition

/-- The filter with its operands replaced. -/
def Filter.replaced (r : Replacement) : Filter → Filter
  | equal v => equal (r.value v)
  | less v => less (r.value v)
  | greater v => greater (r.value v)
  | lessOrEqual v => lessOrEqual (r.value v)
  | greaterOrEqual v => greaterOrEqual (r.value v)
  | between low high => between (r.value low) (r.value high)
  | beginsWith start => beginsWith (r.start start)

-- A filter mentions the attribute that it is on.
theorem Filter.attributes_toCondition (f : Filter) (attr : String) :
    (f.toCondition attr).attributes = [attr] := by
  cases f <;> rfl

theorem Filter.toCondition_replaced (r : Replacement) (f : Filter) (attr : String) :
    (f.replaced r).toCondition (r.attr attr) = (f.toCondition attr).replaced r := by
  cases f <;> rfl

/-- The key condition with everything replaced. -/
def KeyCondition.replaced (r : Replacement) (key : KeyCondition) : KeyCondition where
  partition := r.attr key.partition
  value := r.value key.value
  sort := key.sort.map fun (attr, f) => (r.attr attr, f.replaced r)

/-- Replacing in a key condition is replacing in the condition it is. -/
theorem KeyCondition.toCondition_replaced (r : Replacement) (key : KeyCondition) :
    (key.replaced r).toCondition = key.toCondition.replaced r := by
  unfold toCondition replaced
  cases key.sort with
  | none => rfl
  | some sort =>
      simp only [Option.map_some, Filter.toCondition_replaced]
      rfl

namespace QueryRequest

/-- The operands of a request: those of its key condition, and then those of its filter. -/
def operands (request : QueryRequest) : List Operand :=
  request.key.toCondition.operands ++ request.filter.toList.flatMap Condition.operands

/-- The request with everything replaced that it is rendered from. -/
def replaced (r : Replacement) (request : QueryRequest) : QueryRequest :=
  { request with
    key := request.key.replaced r
    filter := request.filter.map (·.replaced r)
    projection := request.projection.map (·.map r.attr) }

theorem operands_replaced (r : Replacement) (request : QueryRequest) :
    (request.replaced r).operands = request.operands.map r.operand := by
  unfold operands replaced
  rw [KeyCondition.toCondition_replaced, Condition.operands_replaced, List.map_append]
  cases request.filter with
  | none => rfl
  | some filter =>
      simp only [Option.map_some, Option.toList_some, List.flatMap_cons, List.flatMap_nil,
        List.append_nil, Condition.operands_replaced]

end QueryRequest

end WideColumn
