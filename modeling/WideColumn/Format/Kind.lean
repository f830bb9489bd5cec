import WideColumn.Format.Request
import WideColumn.Format.Config

/-!
# Formats by Name

The kinds of records that have a format, under their names.

Writing what was read brings a document into its normal form: fields in their
order, numbers in the form of their type, sets sorted, defaults filled in.

## Main definitions

* `RecordKind`: The kinds.
* `RecordKind.normalize?`: Reading and writing.
-/

namespace WideColumn

/-- A kind of records that has a format. -/
inductive RecordKind where
  | value
  | valueType
  | comparator
  | condition
  | filter
  | filterKind
  | orderBy
  | keyRole
  | keyElement
  | projection
  | distribution
  | secondaryDescriptor
  | tableDescriptor
  | sparsityMultiplier
  | tableIndex
  | catalog
  | keyCondition
  | request
  | config
deriving DecidableEq

namespace RecordKind

/-- The name of a kind, which is that of its type where the format is declared. -/
def name : RecordKind → String
  | value => "AttributeValue"
  | valueType => "ValueType"
  | comparator => "Comparator"
  | condition => "Condition"
  | filter => "FilterCondition"
  | filterKind => "FilterKind"
  | orderBy => "OrderBy"
  | keyRole => "KeyRole"
  | keyElement => "KeySchemaElement"
  | projection => "Projection"
  | distribution => "IndexDistribution"
  | secondaryDescriptor => "SecondaryIndexDescriptor"
  | tableDescriptor => "TableDescriptor"
  | sparsityMultiplier => "SparsityMultiplier"
  | tableIndex => "TableIndex"
  | catalog => "IndexCatalog"
  | keyCondition => "KeyCondition"
  | request => "QueryRequest"
  | config => "ClientConfig"

/-- Every kind, for looking up names. -/
def all : List RecordKind :=
  [value, valueType, comparator, condition, filter, filterKind, orderBy, keyRole, keyElement,
    projection, distribution, secondaryDescriptor, tableDescriptor, sparsityMultiplier,
    tableIndex, catalog, keyCondition, request, config]

/-- The normal form of one of alternatives without content. -/
def normalizeName? {α : Type} (name : α → String) (all : List α) (d : Document) : Option Json :=
  (d.named? name all).map fun a => .string (name a)

/-- The normal form of a document of this kind. -/
def normalize? (kind : RecordKind) (d : Document) : Option Json :=
  match kind with
  | value => (Value.read? d).map Value.write
  | valueType => normalizeName? ValueType.name ValueType.all d
  | comparator => normalizeName? Comparator.name Comparator.all d
  | condition => (Condition.read? d).map Condition.write
  | filter => (Filter.read? d).map Filter.write
  | filterKind => normalizeName? FilterKind.name FilterKind.all d
  | orderBy => (OrderBy.read? d).map OrderBy.write
  | keyRole => normalizeName? KeyRole.name KeyRole.all d
  | keyElement => (KeyElement.read? d).map KeyElement.write
  | projection => (Projection.read? d).map Projection.write
  | distribution => normalizeName? Distribution.name Distribution.all d
  | secondaryDescriptor => (SecondaryDescriptor.read? d).map SecondaryDescriptor.write
  | tableDescriptor => (TableDescriptor.read? d).map TableDescriptor.write
  | sparsityMultiplier => (SparsityMultiplier.read? d).map SparsityMultiplier.write
  | tableIndex => (TableIndex.read? d).map TableIndex.write
  | catalog => (IndexCatalog.read? d).map IndexCatalog.write
  | keyCondition => (KeyCondition.read? d).map KeyCondition.write
  | request => (QueryRequest.read? d).map QueryRequest.write
  | config => (ClientConfig.read? d).map ClientConfig.write

end RecordKind

end WideColumn
