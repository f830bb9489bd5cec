/-!
# Store Errors

What a store reports instead of an answer.

## Main definitions

* `Violation`: What a request may violate.
* `StoreError`: The errors.
-/

namespace WideColumn

/-- What a request may violate. -/
inductive Violation where
  /-- An item to write lacks a key attribute. -/
  | itemLacksKey (attr : String)
  /-- A key to look up lacks an attribute. -/
  | keyLacksAttribute (attr : String)
  | noSuchIndex (table index : String)
  /-- A consistent read of an index that is partitioned on its own. -/
  | consistentReadOfGlobal (index : String)
  | limitZero
  /-- A rule of the store's own. -/
  | other (reason : String)
deriving DecidableEq

namespace Violation

/-- What is said about a violation. -/
def message : Violation → String
  | itemLacksKey attr => s!"item is missing key attribute {attr}"
  | keyLacksAttribute attr => s!"key is missing attribute {attr}"
  | noSuchIndex table index => s!"table {table} has no index {index}"
  | consistentReadOfGlobal index =>
    s!"consistent reads are not supported on global index {index}"
  | limitZero => "limit must be at least 1"
  | other reason => reason

end Violation

/-- What a store reports instead of an answer. -/
inductive StoreError where
  | tableNotFound (table : String)
  | throttled (reason : String)
  | validation (violation : Violation)
  | unavailable (reason : String)
deriving DecidableEq

namespace StoreError

/-- What is said about a failure. -/
def message : StoreError → String
  | tableNotFound table => s!"table not found: {table}"
  | throttled reason => s!"request throttled: {reason}"
  | validation violation => s!"validation failed: {violation.message}"
  | unavailable reason => s!"store unavailable: {reason}"

end StoreError

end WideColumn
