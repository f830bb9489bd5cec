import WideColumn.Catalog.Basic
import WideColumn.Value.Basic

/-!
# Table Schemas

The tables and secondary indexes of a store.

A secondary index has the items that carry all of its key attributes, and no
others. What a store reports of a table counts the items at that moment, so a
report ages while the schema does not.

## Main definitions

* `IndexSchema`, `TableSchema`: The definitions of indexes and tables.
* `IndexKeys.covers`: Which items an index has.
* `TableSchema.describe`: What a store reports of a table.
-/

namespace WideColumn

namespace IndexKeys

/-- The item carries every key attribute. -/
def covers (keys : IndexKeys) (item : Item) : Bool :=
  keys.attrs.all item.contains

/-- The first key attribute that the item lacks. -/
def missingFrom? (keys : IndexKeys) (item : Item) : Option String :=
  keys.attrs.find? fun attr => !item.contains attr

/-- The key attributes and the parts they play. -/
def schema (keys : IndexKeys) : List KeyElement :=
  ⟨keys.partition, .partition⟩ :: keys.sort.toList.map fun attr => ⟨attr, .sort⟩

end IndexKeys

/-- A secondary index as it is declared. -/
structure IndexSchema where
  name : String
  keys : IndexKeys
  distribution : Distribution
  projection : Projection
deriving DecidableEq

/-- A table as it is declared. -/
structure TableSchema where
  name : String
  keys : IndexKeys
  indexes : List IndexSchema
deriving DecidableEq

namespace IndexSchema

/-- An index that is partitioned on its own. -/
def global (name : String) (keys : IndexKeys) (projection : Projection) : IndexSchema :=
  ⟨name, keys, .global, projection⟩

/-- An index within the partitions of a table, whose partition key it shares. -/
def colocated (table : IndexKeys) (name sort : String) (projection : Projection) :
    IndexSchema :=
  ⟨name, ⟨table.partition, some sort⟩, .colocated, projection⟩

/-- The report on an index of a table that holds the given items. -/
def describe (index : IndexSchema) (items : List Item) : SecondaryDescriptor where
  name := index.name
  keySchema := index.keys.schema
  projection := index.projection
  distribution := index.distribution
  itemCount := items.countP index.keys.covers

end IndexSchema

namespace TableSchema

/-- The first secondary index of a name. -/
def findIndex? (schema : TableSchema) (name : String) : Option IndexSchema :=
  schema.indexes.find? (·.name == name)

/-- The report on a table that holds the given items. -/
def describe (schema : TableSchema) (items : List Item) : TableDescriptor where
  name := schema.name
  keySchema := schema.keys.schema
  itemCount := items.length
  secondaries := schema.indexes.map (·.describe items)

end TableSchema

end WideColumn
