/-!
# Table Descriptors

What a store reports about a table.

A descriptor names the key attributes of a table and of its secondary indexes,
says what each secondary index carries and how it is spread, and counts items.
It is taken as it comes: keys may be missing or repeated, names may clash, and
the counts are as old as the store's metadata. `IndexCatalog.build` says which
descriptors make a catalog.

## Main definitions

* `KeyElement`: A key attribute and the part it plays.
* `Projection`: What a secondary index carries.
* `Distribution`: How a secondary index is spread.
* `SecondaryDescriptor`, `TableDescriptor`: The reports.
-/

namespace WideColumn

/-- The part an attribute plays in a key. -/
inductive KeyRole where
  | partition
  | sort
deriving DecidableEq

namespace KeyRole

/-- The name of a part in documents and messages. -/
def name : KeyRole → String
  | partition => "Partition"
  | sort => "Sort"

/-- Both parts, for reading names. -/
def all : List KeyRole := [partition, sort]

end KeyRole

/-- A key attribute and the part it plays. -/
structure KeyElement where
  attr : String
  role : KeyRole
deriving DecidableEq

/-- What a secondary index carries of an item. -/
inductive Projection where
  /-- The whole item. -/
  | all
  /-- The key attributes of the index and of the table. -/
  | keysOnly
  /-- The key attributes and some others. -/
  | including (attrs : List String)
deriving DecidableEq

/-- How a secondary index is spread. -/
inductive Distribution where
  /-- Partitioned on its own, so that its reads lag behind writes. -/
  | global
  /-- Kept within the table's partitions. -/
  | colocated
deriving DecidableEq

namespace Distribution

/-- The name in documents. -/
def name : Distribution → String
  | global => "Global"
  | colocated => "Local"

/-- Both ways, for reading names. -/
def all : List Distribution := [global, colocated]

end Distribution

/-- What a store reports about a secondary index. -/
structure SecondaryDescriptor where
  name : String
  keySchema : List KeyElement
  projection : Projection
  distribution : Distribution
  itemCount : Nat
deriving DecidableEq

/-- What a store reports about a table. -/
structure TableDescriptor where
  name : String
  keySchema : List KeyElement
  itemCount : Nat
  secondaries : List SecondaryDescriptor
deriving DecidableEq

end WideColumn
