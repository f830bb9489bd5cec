import WideColumn.Format.Reader
import WideColumn.Value.Basic

/-!
# The Format of Values

Attribute values as tagged documents, in which every type of value survives.

## Main definitions

* `Value.write`: The document of a value.
* `Value.read?`: The value of a document.
-/

namespace WideColumn

namespace Value

mutual

/-- The form of a value: its content under the name of its kind, so that values of different
    kinds never have one form. -/
def write : Value → Json
  | string s => .tagged "String" (.string s)
  | integer i => .tagged "Integer" (.ofInt64 i)
  | float x => .tagged "Float" (.ofDouble x)
  | boolean b => .tagged "Boolean" (.bool b)
  | binary bytes => .tagged "Binary" (.array (bytes.map fun byte => .ofNat byte.toNat))
  | null => .string "Null"
  | list elements => .tagged "List" (.array (writeElements elements))
  | map entries => .tagged "Map" (.object (writeEntries entries))

/-- The forms of the elements of a list. -/
def writeElements : List Value → List Json
  | [] => []
  | v :: rest => write v :: writeElements rest

/-- The forms of the entries of a map, under their names. -/
def writeEntries : List (String × Value) → List (String × Json)
  | [] => []
  | (name, v) :: rest => (name, write v) :: writeEntries rest

end

/-- A scalar from the content under a tag. -/
def readScalar? (tag : String) (content : Document) : Option Value :=
  match tag with
  | "String" => content.string?.map string
  | "Integer" => content.int64?.map integer
  | "Float" => content.double?.map float
  | "Boolean" => content.bool?.map boolean
  | "Binary" => (content.list? (Document.nat? 256)).map fun bytes => binary (bytes.map Nat.toUInt8)
  | _ => none

mutual

/-- The value of a form. -/
def read? : Document → Option Value
  | .string tag => if tag = "Null" then some null else none
  | .object [(tag, .null)] => if tag = "Null" then some null else none
  | .object [(tag, .array elements)] =>
    if tag = "List" then (readElements? elements).map list
    else readScalar? tag (.array elements)
  | .object [(tag, .object members)] =>
    if tag = "Map" then (readEntries? members).map fun entries => map (Keyed.ofList entries)
    else none
  | .object [(tag, content)] => readScalar? tag content
  | _ => none
termination_by structural d => d

/-- The values of forms, if every one of them is a value. -/
def readElements? : List Document → Option (List Value)
  | [] => some []
  | d :: rest => do
    let v ← read? d
    let vs ← readElements? rest
    some (v :: vs)
termination_by structural ds => ds

/-- The same of forms under names. -/
def readEntries? : List (String × Document) → Option (List (String × Value))
  | [] => some []
  | (name, d) :: rest => do
    let v ← read? d
    let vs ← readEntries? rest
    some ((name, v) :: vs)
termination_by structural ds => ds

end

end Value

namespace Item

/-- The form of an item. -/
def write (item : Item) : Json :=
  .object (Value.writeEntries item)

/-- The item of a form, where the last of members with one name counts. -/
def read? (d : Document) : Option Item :=
  d.entries? Value.read?

end Item

end WideColumn
