import WideColumn.Format.Reader
import WideColumn.Catalog.Basic

/-!
# The Format of Catalogs

Descriptors and catalogs as documents.

## Main definitions

* `Projection.write`, `Projection.read?`: Projections.
* `TableDescriptor.write`, `TableDescriptor.read?`: Descriptors.
* `IndexCatalog.write`, `IndexCatalog.read?`: Catalogs.
-/

namespace WideColumn

namespace Document

/-- A number of items. -/
def count? : Document → Option Nat := nat? UInt64.size

/-- A list of texts. -/
def strings? : Document → Option (List String) := list? string?

/-- The part an attribute plays, by its name. -/
def keyRole? : Document → Option KeyRole := named? KeyRole.name KeyRole.all

/-- How an index is spread, by its name. -/
def distribution? : Document → Option Distribution := named? Distribution.name Distribution.all

end Document

open Document

/-- The form of a list of texts. -/
def Json.ofStrings (ss : List String) : Json :=
  .array (ss.map Json.string)

namespace KeyElement

/-- The form of a key attribute. -/
def write (element : KeyElement) : Json :=
  .object [("attribute", .string element.attr), ("role", .string element.role.name)]

/-- The key attribute of a form. -/
def read? (d : Document) : Option KeyElement := do
  let [attr, role] ← d.fields? ["attribute", "role"] | none
  return ⟨← required string? attr, ← required keyRole? role⟩

end KeyElement

namespace Projection

/-- The form of a projection, tagged only if it names attributes. -/
def write : Projection → Json
  | all => .string "All"
  | keysOnly => .string "KeysOnly"
  | including attrs => .tagged "Include" (.ofStrings attrs)

/-- The projection of a form. -/
def read? (d : Document) : Option Projection :=
  match d.tagged? with
  | some ("All", none) => some all
  | some ("KeysOnly", none) => some keysOnly
  | some ("Include", some attrs) => attrs.strings?.map including
  | _ => none

end Projection

namespace SecondaryDescriptor

/-- The form of a report on a secondary index. -/
def write (s : SecondaryDescriptor) : Json :=
  .object [("name", .string s.name),
    ("key_schema", .array (s.keySchema.map KeyElement.write)),
    ("projection", s.projection.write),
    ("distribution", .string s.distribution.name),
    ("item_count", .ofNat s.itemCount)]

/-- The report of a form. -/
def read? (d : Document) : Option SecondaryDescriptor := do
  let [name, schema, projection, distribution, count] ←
    d.fields? ["name", "key_schema", "projection", "distribution", "item_count"] | none
  return {
    name := ← required string? name
    keySchema := ← required (list? KeyElement.read?) schema
    projection := ← required Projection.read? projection
    distribution := ← required distribution? distribution
    itemCount := ← required count? count }

end SecondaryDescriptor

namespace TableDescriptor

/-- The form of a report on a table. -/
def write (t : TableDescriptor) : Json :=
  .object [("name", .string t.name),
    ("key_schema", .array (t.keySchema.map KeyElement.write)),
    ("item_count", .ofNat t.itemCount),
    ("secondary_indexes", .array (t.secondaries.map SecondaryDescriptor.write))]

/-- The report of a form. -/
def read? (d : Document) : Option TableDescriptor := do
  let [name, schema, count, secondaries] ←
    d.fields? ["name", "key_schema", "item_count", "secondary_indexes"] | none
  return {
    name := ← required string? name
    keySchema := ← required (list? KeyElement.read?) schema
    itemCount := ← required count? count
    secondaries := ← required (list? SecondaryDescriptor.read?) secondaries }

end TableDescriptor

namespace SparsityMultiplier

/-- The form of a multiplier. -/
def write : SparsityMultiplier → Json
  | finite factor => .tagged "Finite" (.ofDouble factor)
  | maximal => .string "Maximal"

/-- The multiplier of a form. -/
def read? (d : Document) : Option SparsityMultiplier :=
  match d.tagged? with
  | some ("Maximal", none) => some maximal
  | some ("Finite", some factor) => factor.double?.map finite
  | _ => none

end SparsityMultiplier

namespace TableIndex

/-- The form of an index with all its properties. -/
def write (i : TableIndex) : Json :=
  .object [("name", .string i.name),
    ("partition_key", .string i.keys.partition),
    ("sort_key", .ofOption .string i.keys.sort),
    ("distribution", .ofOption (fun d => .string d.name) i.distribution),
    ("size", .ofNat i.size),
    ("consistent_readable", .bool i.consistentReadable),
    ("includes_all_attributes", .bool i.includesAll),
    ("attribute_set", .ofOption .ofStrings i.attributeSet),
    ("is_sparse", .bool i.isSparse),
    ("sparsity", .ofDouble i.sparsity),
    ("sparsity_multiplier", i.multiplier.write)]

/-- The index of a form. The attribute set is put in order. -/
def read? (d : Document) : Option TableIndex := do
  let [name, partition, sort, distribution, size, consistent, whole, attrs, sparse, sparsity,
      multiplier] ←
    d.fields? ["name", "partition_key", "sort_key", "distribution", "size",
      "consistent_readable", "includes_all_attributes", "attribute_set", "is_sparse",
      "sparsity", "sparsity_multiplier"] | none
  return {
    name := ← required string? name
    keys := ⟨← required string? partition, ← optional string? sort⟩
    distribution := ← optional distribution? distribution
    size := ← required count? size
    consistentReadable := ← required bool? consistent
    includesAll := ← required bool? whole
    attributeSet := (← optional strings? attrs).map sortedNames
    isSparse := ← required bool? sparse
    sparsity := ← required double? sparsity
    multiplier := ← required SparsityMultiplier.read? multiplier }

end TableIndex

namespace IndexCatalog

/-- The form of a catalog. -/
def write (catalog : IndexCatalog) : Json :=
  .object [("table_name", .string catalog.tableName),
    ("indexes", .array (catalog.indexes.map TableIndex.write))]

/-- The catalog of a form. -/
def read? (d : Document) : Option IndexCatalog := do
  let [name, indexes] ← d.fields? ["table_name", "indexes"] | none
  return ⟨← required string? name, ← required (list? TableIndex.read?) indexes⟩

end IndexCatalog

end WideColumn
