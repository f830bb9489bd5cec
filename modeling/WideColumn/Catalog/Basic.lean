import WideColumn.Catalog.Descriptor
import WideColumn.Binary64.Basic

/-!
# Index Catalogs

The indexes of a table with the properties by which one of them is chosen.

A catalog lists the primary index first and the secondary indexes after it. The
primary index has a name of its own that no secondary index can bear.

## Main definitions

* `IndexKeys`: The key attributes of an index.
* `TableIndex`: An index and its properties.
* `IndexCatalog`: The indexes of a table.
-/

namespace WideColumn

/-- The key attributes of a table or an index. -/
structure IndexKeys where
  partition : String
  sort : Option String
deriving DecidableEq

namespace IndexKeys

/-- The key attributes, the partition key first. -/
def attrs (keys : IndexKeys) : List String :=
  keys.partition :: keys.sort.toList

end IndexKeys

/-- How much a sparse index narrows a query down. -/
inductive SparsityMultiplier where
  | finite (factor : Binary64)
  /-- The index holds nothing at all. -/
  | maximal
deriving DecidableEq

/-- An index and the properties by which it is chosen. -/
structure TableIndex where
  name : String
  keys : IndexKeys
  /-- How the index is spread. The primary index is the table itself. -/
  distribution : Option Distribution
  /-- How many items the index was reported to hold. -/
  size : Nat
  consistentReadable : Bool
  /-- Items come from the index whole. -/
  includesAll : Bool
  /-- The attributes that items from the index have, if they do not come whole,
      in ascending order without repetition. -/
  attributeSet : Option (List String)
  /-- Items may well be missing from the index. -/
  isSparse : Bool
  /-- The part of the table's items that the index holds. -/
  sparsity : Binary64
  multiplier : SparsityMultiplier
deriving DecidableEq

namespace TableIndex

/-- The name of the primary index. -/
def primaryName : String := "<primary>"

/-- The index is the table itself. -/
def isPrimary (index : TableIndex) : Bool :=
  index.name == primaryName

/-- The index has a sort key. -/
def isComposite (index : TableIndex) : Bool :=
  index.keys.sort.isSome

/-- Items from the index have the attribute if the table's items do. -/
def includes (index : TableIndex) (attr : String) : Bool :=
  match index.attributeSet with
  | none => index.includesAll
  | some attrs => attrs.contains attr

end TableIndex

/-- The indexes of a table as it was described, the primary index first. -/
structure IndexCatalog where
  tableName : String
  indexes : List TableIndex
deriving DecidableEq

namespace IndexCatalog

/-- The index that is the table itself. -/
def primary? (catalog : IndexCatalog) : Option TableIndex :=
  catalog.indexes.head?

/-- The other indexes, in the order in which they were described. -/
def secondary (catalog : IndexCatalog) : List TableIndex :=
  catalog.indexes.tail

/-- The first index of a name. -/
def get? (catalog : IndexCatalog) (name : String) : Option TableIndex :=
  catalog.indexes.find? (·.name == name)

end IndexCatalog

end WideColumn
