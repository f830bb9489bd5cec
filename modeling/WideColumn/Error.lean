import WideColumn.Selection
import WideColumn.Catalog.Build
import WideColumn.Store.Error
import WideColumn.Codec.Basic

/-!
# Query Errors

Why a client or a cursor gives no record.

That there is nothing more to give is reported the same way as a failure, so
that a caller has one place to stop.

## Main definitions

* `Completion`: Why there is nothing more.
* `QueryError`: The errors.
* `QueryError.message?`: What is said about them.
-/

namespace WideColumn

/-- Why there is nothing more to give. -/
inductive Completion where
  | allItemsParsed
  | maxPaginationReached
deriving DecidableEq

/-- What is said about an end. -/
def Completion.message : Completion → String
  | allItemsParsed => "all items parsed"
  | maxPaginationReached => "max pagination reached"

/-- Why there is no record. -/
inductive QueryError where
  | noViableIndex (rejected : NoViableIndexes)
  /-- There is nothing more to give, which is no failure. -/
  | parsingComplete (completion : Completion)
  | itemNotFound
  | invalidDescriptor (defect : CatalogError)
  | store (e : StoreError)
  | codec (e : CodecError)
  /-- A deadline passed first. -/
  | timeout
deriving DecidableEq

namespace QueryError

/-- What is said about an error, as far as it does not depend on the record. -/
def message? : QueryError → Option String
  | noViableIndex rejected => some rejected.message
  | parsingComplete completion => some s!"parsing complete: {completion.message}"
  | itemNotFound => some "item not found"
  | invalidDescriptor defect => some s!"invalid table descriptor: {defect.message}"
  | store e => some s!"store error: {e.message}"
  | codec e => e.message?.map fun text => s!"codec error: {text}"
  | timeout => some "fetch deadline elapsed"

/-- There is nothing more to give. -/
def isComplete : QueryError → Bool
  | parsingComplete _ => true
  | _ => false

end QueryError

end WideColumn
