import WideColumn.Format.Value
import WideColumn.Expression

/-!
# The Format of Conditions

Conditions, filters and orders as documents.

## Main definitions

* `Condition.write`, `Condition.read?`: Conditions.
* `Filter.write`, `Filter.read?`: Filters.
* `OrderBy.write`, `OrderBy.read?`: Orders.
-/

namespace WideColumn

namespace Condition

mutual

/-- The form of a condition, tagged by its kind. -/
def write : Condition → Json
  | comparison attr comparator value => .tagged "Comparison"
      (.object [("attribute", .string attr), ("comparator", .string comparator.name),
        ("value", value.write)])
  | between attr low high => .tagged "Between"
      (.object [("attribute", .string attr), ("low", low.write), ("high", high.write)])
  | beginsWith attr start => .tagged "BeginsWith"
      (.object [("attribute", .string attr), ("prefix", .string start)])
  | isIn attr values => .tagged "In"
      (.object [("attribute", .string attr), ("values", .array (values.map Value.write))])
  | contains attr value => .tagged "Contains"
      (.object [("attribute", .string attr), ("value", value.write)])
  | attributeExists attr => .tagged "AttributeExists" (.string attr)
  | attributeNotExists attr => .tagged "AttributeNotExists" (.string attr)
  | .and inner => .tagged "And" (.array (writeAll inner))
  | .or inner => .tagged "Or" (.array (writeAll inner))
  | .not inner => .tagged "Not" (write inner)

/-- The forms of conditions, in order. -/
def writeAll : List Condition → List Json
  | [] => []
  | c :: rest => write c :: writeAll rest

end

/-- A condition without others in it, from the content under a tag. -/
def readSimple? (tag : String) (content : Document) : Option Condition := do
  match tag with
  | "Comparison" =>
    let [attr, comparator, value] ← content.fields? ["attribute", "comparator", "value"] | none
    return comparison (← Document.required Document.string? attr)
      (← Document.required (Document.named? Comparator.name Comparator.all) comparator)
      (← Document.required Value.read? value)
  | "Between" =>
    let [attr, low, high] ← content.fields? ["attribute", "low", "high"] | none
    return between (← Document.required Document.string? attr)
      (← Document.required Value.read? low) (← Document.required Value.read? high)
  | "BeginsWith" =>
    let [attr, start] ← content.fields? ["attribute", "prefix"] | none
    return beginsWith (← Document.required Document.string? attr)
      (← Document.required Document.string? start)
  | "In" =>
    let [attr, values] ← content.fields? ["attribute", "values"] | none
    return isIn (← Document.required Document.string? attr)
      (← Document.required (Document.list? Value.read?) values)
  | "Contains" =>
    let [attr, value] ← content.fields? ["attribute", "value"] | none
    return contains (← Document.required Document.string? attr)
      (← Document.required Value.read? value)
  | "AttributeExists" => return attributeExists (← content.string?)
  | "AttributeNotExists" => return attributeNotExists (← content.string?)
  | _ => none

mutual

/-- The condition of a form. -/
def read? : Document → Option Condition
  | .object [(tag, .array inner)] =>
    if tag = "And" then (readAll? inner).map .and
    else if tag = "Or" then (readAll? inner).map .or
    else readSimple? tag (.array inner)
  | .object [(tag, content)] =>
    if tag = "Not" then (read? content).map .not else readSimple? tag content
  | _ => none
termination_by structural d => d

/-- The conditions of forms, if every one of them is a condition. -/
def readAll? : List Document → Option (List Condition)
  | [] => some []
  | d :: rest => do
    let c ← read? d
    let cs ← readAll? rest
    some (c :: cs)
termination_by structural ds => ds

end

end Condition

namespace Filter

/-- The form of a filter: its operands, tagged by its kind. -/
def write (f : Filter) : Json :=
  .tagged f.kind.name
    (match f with
    | equal v => v.write
    | less v => v.write
    | greater v => v.write
    | lessOrEqual v => v.write
    | greaterOrEqual v => v.write
    | between low high => .object [("low", low.write), ("high", high.write)]
    | beginsWith start => .string start)

/-- The filter of a form. -/
def read? : Document → Option Filter
  | .object [(tag, content)] => do
    match tag with
    | "Equal" => return equal (← Value.read? content)
    | "LessThan" => return less (← Value.read? content)
    | "GreaterThan" => return greater (← Value.read? content)
    | "LessThanOrEqual" => return lessOrEqual (← Value.read? content)
    | "GreaterThanOrEqual" => return greaterOrEqual (← Value.read? content)
    | "Between" =>
      let [low, high] ← content.fields? ["low", "high"] | none
      return between (← Document.required Value.read? low) (← Document.required Value.read? high)
    | "BeginsWith" => return beginsWith (← content.string?)
    | _ => none
  | _ => none

end Filter

namespace OrderBy

/-- The form of an order of results. -/
def write (order : OrderBy) : Json :=
  .object [("attribute", .string order.attr), ("ascending", .bool order.ascending)]

/-- The order of a form. -/
def read? (d : Document) : Option OrderBy := do
  let [attr, ascending] ← d.fields? ["attribute", "ascending"] | none
  return ⟨← Document.required Document.string? attr, ← Document.required Document.bool? ascending⟩

end OrderBy

end WideColumn
