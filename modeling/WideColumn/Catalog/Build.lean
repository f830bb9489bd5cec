import WideColumn.Catalog.Basic
import WideColumn.Binary64.Rounding
import WideColumn.Keyed

/-!
# Building Catalogs

From a descriptor to the catalog of a table, or to the first defect in it.

Every index must have one partition key and at most one sort key, and the names
of the secondary indexes must differ from each other and from the name of the
primary one. Defects are looked for in the order of the descriptor.

An index that holds few of the table's items is sparse: the items it lacks are
the ones without its sort key, and a query that never mentions that key would
miss them. The threshold says what few means. It is a part of the table's
items, so a threshold above one makes every index sparse that could be, and one
that is not above zero makes none.

## Main definitions

* `CatalogError`: The defects.
* `resolveKeys`: The keys of a key schema.
* `isSparseIndex`: Whether a secondary index is sparse.
* `IndexCatalog.build`: The catalog of a descriptor.
-/

namespace WideColumn

/-- What keeps a descriptor from being made a catalog, and of which index. -/
inductive CatalogError where
  | missingPartitionKey (index : String)
  | duplicateKeyRole (index : String) (role : KeyRole)
  | duplicateIndexName (name : String)
  | reservedIndexName (name : String)
deriving DecidableEq

namespace CatalogError

/-- What is said about a defect. -/
def message : CatalogError → String
  | missingPartitionKey index => s!"index {index} has no partition key"
  | duplicateKeyRole index role =>
    s!"index {index} declares more than one {role.name} key"
  | duplicateIndexName name => s!"duplicate index name: {name}"
  | reservedIndexName name => s!"index name is reserved: {name}"

end CatalogError

/-- The keys that part of a key schema has given so far. -/
structure KeySlots where
  partition : Option String
  sort : Option String

namespace KeySlots

/-- The key in a part. -/
def get? (slots : KeySlots) : KeyRole → Option String
  | .partition => slots.partition
  | .sort => slots.sort

/-- Put a key attribute into its part, which must be free. -/
def fill (index : String) (slots : KeySlots) (element : KeyElement) :
    Except CatalogError KeySlots :=
  if (slots.get? element.role).isSome then .error (.duplicateKeyRole index element.role)
  else
    match element.role with
    | .partition => .ok { slots with partition := some element.attr }
    | .sort => .ok { slots with sort := some element.attr }

end KeySlots

/-- The keys of a key schema. A repeated part is found before a missing one. -/
def resolveKeys (index : String) (schema : List KeyElement) :
    Except CatalogError IndexKeys := do
  let slots ← schema.foldlM (KeySlots.fill index) ⟨none, none⟩
  match slots.partition with
  | some partition => .ok ⟨partition, slots.sort⟩
  | none => .error (.missingPartitionKey index)

/-- The double nearest to the quotient of two counts that were first taken to
    doubles themselves. -/
def countRatio (a b : Nat) : Binary64 :=
  (Binary64.ofNat a).div (Binary64.ofNat b)

/-- The part of the table's items that an index holds. Nothing is no part of an
    empty table. -/
def sparsityOf (tableSize count : Nat) : Binary64 :=
  if tableSize = 0 then .zero else countRatio count tableSize

/-- How much an index narrows a query down. -/
def multiplierOf (tableSize count : Nat) : SparsityMultiplier :=
  if count = 0 then .maximal else .finite (countRatio tableSize count)

/-- A secondary index is sparse if items may lack its sort key, which is not so
    of a sort key that is one of the table's keys, and if it holds too small a
    part of the items. -/
def isSparseIndex (table keys : IndexKeys) (sparsity threshold : Binary64) : Bool :=
  match keys.sort with
  | none => false
  | some sort =>
    !table.attrs.contains sort && Binary64.zero.below threshold &&
      ((Binary64.ofNat 1).below threshold || sparsity.below threshold)

/-- The attributes that items from an index have, if they do not come whole. -/
def projectedAttributes (table keys : IndexKeys) : Projection → Option (List String)
  | .all => none
  | .keysOnly => some (sortedNames (keys.attrs ++ table.attrs))
  | .including attrs => some (sortedNames (keys.attrs ++ table.attrs ++ attrs))

/-- The primary index of a table. -/
def primaryIndex (keys : IndexKeys) (size : Nat) : TableIndex where
  name := TableIndex.primaryName
  keys := keys
  distribution := none
  size := size
  consistentReadable := true
  includesAll := true
  attributeSet := none
  isSparse := false
  sparsity := Binary64.ofNat 1
  multiplier := .finite (Binary64.ofNat 1)

/-- The secondary index of a descriptor, once its keys are known. -/
def secondaryIndex (table : IndexKeys) (tableSize : Nat) (threshold : Binary64)
    (d : SecondaryDescriptor) (keys : IndexKeys) : TableIndex where
  name := d.name
  keys := keys
  distribution := some d.distribution
  size := d.itemCount
  consistentReadable := d.distribution != .global
  includesAll := d.projection == .all
  attributeSet := projectedAttributes table keys d.projection
  isSparse := isSparseIndex table keys (sparsityOf tableSize d.itemCount) threshold
  sparsity := sparsityOf tableSize d.itemCount
  multiplier := multiplierOf tableSize d.itemCount

/-- The secondary indexes of descriptors, given the names that came before. -/
def secondaryIndexes (table : IndexKeys) (tableSize : Nat) (threshold : Binary64) :
    List String → List SecondaryDescriptor → Except CatalogError (List TableIndex)
  | _, [] => .ok []
  | seen, d :: rest => do
    if d.name = TableIndex.primaryName then throw (.reservedIndexName d.name)
    if seen.contains d.name then throw (.duplicateIndexName d.name)
    let keys ← resolveKeys d.name d.keySchema
    let indexes ← secondaryIndexes table tableSize threshold (d.name :: seen) rest
    return secondaryIndex table tableSize threshold d keys :: indexes

/-- The catalog of a descriptor, or the first defect in it. -/
def IndexCatalog.build (d : TableDescriptor) (threshold : Binary64) :
    Except CatalogError IndexCatalog := do
  let keys ← resolveKeys TableIndex.primaryName d.keySchema
  let indexes ← secondaryIndexes keys d.itemCount threshold [] d.secondaries
  return ⟨d.name, primaryIndex keys d.itemCount :: indexes⟩

end WideColumn
