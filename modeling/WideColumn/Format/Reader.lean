import WideColumn.Json.Parser

/-!
# Reading Records

How the parts of a record are read from a document.

A record is an object that has each of its fields at most once. Fields it does
not know are skipped, and whether a field may be missing is for the field to
say. A record may also be an array of its fields in their order. An array may be
cut short only before fields that have a default.

A choice is tagged by the name of the alternative: an object whose only member
has that name, or the bare name for an alternative without content.

## Main definitions

* `Document.integer?`, `double?`, `string?`, `bool?`: Scalars.
* `Document.list?`, `entries?`, `pair?`, `option?`: Compounds.
* `Document.leadingFields?`, `fields?`: The fields of a record.
* `Document.tagged?`: The alternative of a choice.
-/

namespace WideColumn

namespace Document

/-- An integer between two bounds. No number with a fraction or a power is one,
    not even an integral one. -/
def integer? (least greatest : Int) : Document → Option Int
  | number (.natural n) =>
    if least ≤ n.toNat ∧ (n.toNat : Int) ≤ greatest then some n.toNat else none
  | number (.negative i _) =>
    if least ≤ i.toInt ∧ i.toInt ≤ greatest then some i.toInt else none
  | _ => none

/-- A natural number below a bound. -/
def nat? (bound : Nat) (d : Document) : Option Nat :=
  (d.integer? 0 (bound - 1)).map Int.toNat

/-- A signed integer of 64 bits. -/
def int64? (d : Document) : Option Int64 :=
  (d.integer? Int64.minValue.toInt Int64.maxValue.toInt).map Int64.ofInt

/-- The double nearest to a number. -/
def double? : Document → Option Binary64
  | number n => some n.toDouble
  | _ => none

/-- A text. -/
def string? : Document → Option String
  | string s => some s
  | _ => none

/-- A truth value. -/
def bool? : Document → Option Bool
  | bool b => some b
  | _ => none

/-- Each element of an array. -/
def list? {α : Type} (read : Document → Option α) : Document → Option (List α)
  | array elements => elements.mapM read
  | _ => none

/-- An array of two elements. -/
def pair? {α β : Type} (first : Document → Option α) (second : Document → Option β) :
    Document → Option (α × β)
  | array [a, b] => do return (← first a, ← second b)
  | _ => none

/-- Each member of an object, the last one of a name winning. -/
def entries? {α : Type} (read : Document → Option α) : Document → Option (Keyed α)
  | object members =>
    (members.mapM fun member => (read member.2).map fun a => (member.1, a)).map Keyed.ofList
  | _ => none

/-- Null, or a content. -/
def option? {α : Type} (read : Document → Option α) : Document → Option (Option α)
  | null => some none
  | d => (read d).map some

/-- The member of a name, which may be missing but not repeated. -/
def member? (members : List (String × Document)) (name : String) : Option (Option Document) :=
  match members.filter fun member => member.1 == name with
  | [] => some none
  | [member] => some (some member.2)
  | _ => none

/-- The fields of a record by their names, with nothing for a field that is
    missing. An object may lack any field. An array has the fields in their order
    and may lack fields from its end, as long as it has `least` of them. -/
def leadingFields? (least : Nat) (names : List String) :
    Document → Option (List (Option Document))
  | object members => names.mapM (member? members)
  | array elements =>
    if least ≤ elements.length ∧ elements.length ≤ names.length then
      some (elements.map some ++ List.replicate (names.length - elements.length) none)
    else none
  | _ => none

/-- The fields of a record of which an array has all. -/
def fields? (names : List String) : Document → Option (List (Option Document)) :=
  leadingFields? names.length names

/-- A field that must be there. -/
def required {α : Type} (read : Document → Option α) (field : Option Document) : Option α :=
  field.bind read

/-- A field that may be missing or null. -/
def optional {α : Type} (read : Document → Option α) : Option Document → Option (Option α)
  | none => some none
  | some d => d.option? read

/-- The name of an alternative and its content, if it has any. Null is no
    content. -/
def tagged? : Document → Option (String × Option Document)
  | string tag => some (tag, none)
  | object [(tag, null)] => some (tag, none)
  | object [(tag, content)] => some (tag, some content)
  | _ => none

/-- One of alternatives without content, by its name. -/
def named? {α : Type} (name : α → String) (all : List α) (d : Document) : Option α :=
  match d.tagged? with
  | some (tag, none) => all.find? fun a => name a == tag
  | _ => none

end Document

/-- An alternative under its name. -/
def Json.tagged (tag : String) (content : Json) : Json :=
  .object [(tag, content)]

end WideColumn
