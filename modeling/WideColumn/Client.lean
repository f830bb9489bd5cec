import WideColumn.Request.Compile
import WideColumn.Cache
import WideColumn.Error

/-!
# Planning

What a client decides between the answers of a store.

A client needs the catalog of a table before it can plan. It looks into its
cache, and if the catalog is not there it has the table described. Between the
question and the answer other calls may run, so what becomes of the answer is a
step of its own, `accept`: the catalog that is in the cache after it is the one
that landed first, and that one is used. A catalog that is in the cache is
never described again until it is forgotten.

## Main definitions

* `accept`: Taking the description of a table into the cache.
* `QueryPlan`: The index, its score and the request.
* `IndexCatalog.plan`: Planning an expression.
* `IndexCatalog.planWarnings`: What is to be said along with a plan.
-/

namespace WideColumn

/-- The catalog of a table once its description has come, and the cache with it.
    A failure to describe or a defect of the description changes nothing. -/
def accept (threshold : Binary64) (table : String)
    (answer : Except QueryError TableDescriptor) (cache : Cache IndexCatalog) :
    Except QueryError IndexCatalog × Cache IndexCatalog :=
  match answer with
  | .error e => (.error e, cache)
  | .ok descriptor =>
    match IndexCatalog.build descriptor threshold with
    | .error defect => (.error (.invalidDescriptor defect), cache)
    | .ok catalog =>
      let (kept, cache) := cache.insertIfAbsent table catalog
      (.ok kept, cache)

/-- How an expression is to be served. -/
structure QueryPlan where
  index : TableIndex
  score : Binary64
  request : QueryRequest

namespace IndexCatalog

/-- How an expression is to be served by a table. -/
def plan (catalog : IndexCatalog) (table : String) (e : Expression) :
    Except QueryError QueryPlan :=
  match catalog.choose e with
  | .error rejected => .error (.noViableIndex rejected)
  | .ok index =>
    match compile table index e with
    | .error rejected => .error (.noViableIndex rejected)
    | .ok request => .ok ⟨index, score index e, request⟩

/-- The warnings that come with planning an expression. -/
def planWarnings (catalog : IndexCatalog) (e : Expression) : List String :=
  match catalog.choose e with
  | .error _ => []
  | .ok index => (staleWarning? catalog index).toList

end IndexCatalog

end WideColumn
