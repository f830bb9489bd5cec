import WideColumn.Catalog.Basic
import WideColumn.Expression
import WideColumn.Binary64.Rounding
import WideColumn.Json.Printer

/-!
# Index Selection

Which index of a catalog serves an expression.

An index is viable if nothing stands against it. What may stand against it is
listed in full, so that a caller whose expression no index can serve learns of
every index why not. Among viable indexes the one with the highest score is
chosen, and the first of them where scores tie.

The score rewards an index for holding few items and for the kind of filter
that the expression puts on its sort key. An index that was reported empty beats
every other, which may be because the report is old, so choosing it comes with
a warning.

## Main definitions

* `Infraction`: What may stand against an index.
* `infractions`: All that stands against an index.
* `SortKeyMultiplier`, `score`: How good an index is.
* `IndexCatalog.choose`: The index to use, or why there is none.
* `staleWarning?`: The warning that comes with the choice.
-/

namespace WideColumn

/-- What may stand against an index. -/
inductive Infraction where
  /-- No filter asks for one value of the partition key. -/
  | missingPartitionEquality (attr : String)
  | consistentReadUnsupported
  /-- The order is by an attribute that is not the index's sort key. -/
  | orderRequiresSortKey (attr : String)
  | missingAttributes (attrs : List String)
  | requiresFullProjection
  /-- The index is sparse, and its sort key is neither filtered nor ordered by. -/
  | sparseSortKeyUnused (attr : String)
deriving DecidableEq

namespace Infraction

/-- What is said about an infraction. -/
def message : Infraction → String
  | missingPartitionEquality attr => s!"missing Equal condition on attribute: {attr}"
  | consistentReadUnsupported => "global secondary index does not support consistent read"
  | orderRequiresSortKey attr =>
    s!"expression specifies order, so it requires an index with sort key: {attr}"
  | missingAttributes attrs =>
    "index does not include attributes: " ++ ", ".intercalate attrs
  | requiresFullProjection =>
    "expression does not select attributes, so it requires an index that projects all"
  | sparseSortKeyUnused attr =>
    s!"expression does not filter on sparse secondary index's sort key: {attr}"

end Infraction

/-- An index and what stands against it. -/
structure IndexNotViable where
  indexName : String
  infractions : List Infraction
deriving DecidableEq

namespace IndexNotViable

/-- The report as JSON. It has no list of reasons where there is none. -/
def toJson (report : IndexNotViable) : Json :=
  let reasons := report.infractions.map fun i => Json.string i.message
  .object (("indexName", .string report.indexName) ::
    if reasons.isEmpty then [] else [("notViableReasons", .array reasons)])

/-- What is said about the index. -/
def message (report : IndexNotViable) : String :=
  "index not viable for expression: " ++ report.toJson.render

end IndexNotViable

/-- Every index of a table and what stands against it. -/
structure NoViableIndexes where
  reports : List IndexNotViable
deriving DecidableEq

/-- What is said where no index is viable. -/
def NoViableIndexes.message (rejected : NoViableIndexes) : String :=
  if rejected.reports.isEmpty then "no viable indexes found for expression"
  else
    "no viable indexes found for expression: " ++
      (Json.array (rejected.reports.map IndexNotViable.toJson)).render

/-- The partition key must be asked for by one value. -/
def partitionInfractions (index : TableIndex) (e : Expression) : List Infraction :=
  if (e.filterOn index.keys.partition).any (·.isEqual) then []
  else [.missingPartitionEquality index.keys.partition]

/-- Consistent reads need an index that serves them. -/
def consistencyInfractions (index : TableIndex) (e : Expression) : List Infraction :=
  if e.consistent && !index.consistentReadable then [.consistentReadUnsupported] else []

/-- An order must be by the sort key. -/
def orderInfractions (index : TableIndex) (e : Expression) : List Infraction :=
  match e.order with
  | some order =>
    if index.keys.sort = some order.attr then [] else [.orderRequiresSortKey order.attr]
  | none => []

/-- An index that does not carry whole items must carry what is selected. -/
def projectionInfractions (index : TableIndex) (e : Expression) : List Infraction :=
  if index.includesAll then []
  else
    match e.selected with
    | none => [.requiresFullProjection]
    | some selected =>
      let missing := selected.filter fun attr => !index.includes attr
      if missing.isEmpty then [] else [.missingAttributes missing]

/-- The sort key of a sparse index must be filtered or ordered by. -/
def sparsityInfractions (index : TableIndex) (e : Expression) : List Infraction :=
  match index.keys.sort with
  | some sort =>
    if index.isSparse && (e.filterOn sort).isNone && !e.order.any (·.attr == sort) then
      [.sparseSortKeyUnused sort]
    else []
  | none => []

/-- All that stands against an index serving an expression. -/
def infractions (index : TableIndex) (e : Expression) : List Infraction :=
  partitionInfractions index e ++ consistencyInfractions index e ++ orderInfractions index e ++
    projectionInfractions index e ++ sparsityInfractions index e

/-- How much the filter on the sort key is worth. -/
inductive SortKeyMultiplier where
  | equal
  | between
  | beginsWith
  /-- The index has a sort key, and the expression does not filter it. -/
  | unfiltered
  | neutral
deriving DecidableEq

namespace SortKeyMultiplier

/-- The name of a multiplier on display. -/
def name : SortKeyMultiplier → String
  | equal => "Equal"
  | between => "Between"
  | beginsWith => "BeginsWith"
  | unfiltered => "Unfiltered"
  | neutral => "Neutral"

/-- The multiplier of an index for an expression. -/
def ofIndex (index : TableIndex) (e : Expression) : SortKeyMultiplier :=
  match index.keys.sort with
  | none => neutral
  | some sort =>
    match (e.filterOn sort).map Filter.kind with
    | none => unfiltered
    | some .equal => equal
    | some .between => between
    | some .beginsWith => beginsWith
    | some _ => neutral

/-- The factor that goes into the score. -/
def factor : SortKeyMultiplier → Binary64
  | equal => .ofRatio false 5 2
  | between => .ofRatio false 9 5
  | beginsWith => .ofRatio false 3 2
  | unfiltered => .ofRatio false 1 5
  | neutral => .ofNat 1

end SortKeyMultiplier

/-- How good an index is for an expression. One that holds nothing scores the
    greatest number there is. -/
def score (index : TableIndex) (e : Expression) : Binary64 :=
  match index.multiplier with
  | .maximal => .greatest
  | .finite factor => factor.mul (SortKeyMultiplier.ofIndex index e).factor

/-- The score of an index, if nothing stands against it. -/
def evaluate (index : TableIndex) (e : Expression) : Except IndexNotViable Binary64 :=
  match infractions index e with
  | [] => .ok (score index e)
  | reasons => .error ⟨index.name, reasons⟩

/-- The better of the best index so far and the next one. The next one has to
    score strictly higher. -/
def betterOf (e : Expression) (best : Option TableIndex) (next : TableIndex) :
    Option TableIndex :=
  match best with
  | none => some next
  | some held => if (score held e).below (score next e) then some next else some held

namespace IndexCatalog

/-- The indexes that nothing stands against. -/
def viable (catalog : IndexCatalog) (e : Expression) : List TableIndex :=
  catalog.indexes.filter fun index => (infractions index e).isEmpty

/-- The first of the viable indexes with the highest score, or what stands
    against each index. -/
def choose (catalog : IndexCatalog) (e : Expression) : Except NoViableIndexes TableIndex :=
  match (catalog.viable e).foldl (betterOf e) none with
  | some index => .ok index
  | none => .error ⟨catalog.indexes.map fun index => ⟨index.name, infractions index e⟩⟩

end IndexCatalog

/-- The warning that comes with choosing an index that was reported empty. -/
def staleWarning? (catalog : IndexCatalog) (chosen : TableIndex) : Option String :=
  match chosen.multiplier with
  | .maximal =>
    some s!"Index {chosen.name} on table {catalog.tableName} chosen because it reported zero items; its metadata may be stale"
  | .finite _ => none

end WideColumn
