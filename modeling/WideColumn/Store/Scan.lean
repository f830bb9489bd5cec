import WideColumn.Store.Schema
import WideColumn.Condition.Holds
import WideColumn.Request.Basic

/-!
# Index Scans

One page of a request over the items of a table.

Rows are the items that the index has and the key condition selects, in the
order of the index: by its sort key and then by the key of the table, so that
rows with equal sort keys are still told apart. A page evaluates the rows after
the start key up to its limit. The filter applies to rows that were evaluated,
so a page may come back short or empty while more is to follow, and whether more
follows is said by the key of the last evaluated row alone.

The sort is stable, and a backward scan is the exact reverse of a forward one.
Values that do not compare can make the order fall short of a preorder. A few rows
are still sorted, since they are inserted one by one: each moves down past the rows
it is below, and stops at the first one it is not. More rows are merged, and then
nothing is promised of an order that is no preorder. The rows may come out in any
order, or the sort may panic. `MaySort` says what can become of a sort, and
`IndexView.MayScan` what can become of a page. `IndexView.scan` is the page where
the sort does what insertion does, which is the only page where it has to.

## Main definitions

* `IndexView`: An index of a table as a scan sees it.
* `positionOrder`: The order of rows.
* `descending`: The stable sort, greatest row first.
* `sortable`: The sort is bound to succeed.
* `MaySort`: What may become of a sort.
* `Page`: What a scan returns.
* `IndexView.scan`: One page of a request.
* `IndexView.MayScan`: What may become of a page.
-/

namespace WideColumn

/-- An index of a table as a scan sees it. The table itself is the index with
    the table's keys that carries whole items. -/
structure IndexView where
  keys : IndexKeys
  table : IndexKeys
  projection : Projection

/-- Positions are compared place by place. -/
def positionOrder : List (Option Value) → List (Option Value) → Ordering
  | x :: xs, y :: ys => (Value.keyOrder x y).then (positionOrder xs ys)
  | _, _ => .eq

/-- Put a row into rows that stand greatest first: it moves past the rows it is
    below, up to the first one it is not below. -/
def insertDescending {α : Type} (below : α → α → Bool) (row : α) : List α → List α
  | [] => [row]
  | other :: rest =>
    if below row other then other :: insertDescending below row rest
    else row :: other :: rest

/-- The rows, greatest first, each inserted in turn. Of rows that are equal the later
    one comes first. -/
def descending {α : Type} (below : α → α → Bool) (rows : List α) : List α :=
  rows.foldl (fun sorted row => insertDescending below row sorted) []

section

variable {α : Type} (order : α → α → Ordering)

/-- How many rows are sorted by insertion alone. -/
def insertedRows : Nat := 20

/-- How many of the rows are below a row. -/
def rankIn (rows : List α) (row : α) : Nat :=
  rows.countP fun other => order other row == .lt

/-- The rows compare as their ranks do. -/
def ranked (rows : List α) : Bool :=
  let placed := rows.map fun row => (row, rankIn order rows row)
  placed.all fun a => placed.all fun b => order a.1 b.1 == compare a.2 b.2

/-- The sort is bound to succeed: the rows are few, or their order is a preorder. -/
def sortable (rows : List α) : Bool :=
  rows.length ≤ insertedRows || ranked order rows

/-- What may become of a sort: the rows in some order, greatest first if all is well,
    or nothing if it panics. -/
inductive MaySort (rows : List α) : Option (List α) → Prop
  | sorted : MaySort rows (some (descending (fun a b => order a b == .lt) rows))
  | unordered {sorted : List α} : sortable order rows = false → sorted.Perm rows →
      MaySort rows (some sorted)
  | panicked : sortable order rows = false → MaySort rows none

end

/-- What a scan returns. -/
structure Page where
  items : List Item
  /-- The key to resume after, if there is more to evaluate. -/
  lastKey : Option Item

namespace IndexView

/-- The attributes that keys of rows have: the index's and the table's. -/
def keyAttrs (view : IndexView) : List String :=
  view.keys.attrs ++ view.table.attrs

/-- The values that place a row. -/
def position (view : IndexView) (item : Item) : List (Option Value) :=
  (view.keys.sort.toList ++ view.table.attrs).map item.get?

/-- The order of rows in the index. -/
def order (view : IndexView) (a b : Item) : Ordering :=
  positionOrder (view.position a) (view.position b)

/-- The key of a row: its key attributes and their values. -/
def itemKey (view : IndexView) (item : Item) : Item :=
  item.restrict view.keyAttrs.contains

/-- What the index carries of an item. -/
def project (view : IndexView) (item : Item) : Item :=
  match view.projection with
  | .all => item
  | .keysOnly => item.restrict view.keyAttrs.contains
  | .including attrs => item.restrict fun name => view.keyAttrs.contains name || attrs.contains name

/-- The rows that a request selects, in the order of the table. -/
def rows (view : IndexView) (request : QueryRequest) (items : List Item) : List Item :=
  items.filter fun item => view.keys.covers item && request.key.toCondition.holds item

/-- Sorted rows in the order that a request asks for. -/
def directed (request : QueryRequest) (sorted : List Item) : List Item :=
  if request.forward then sorted.reverse else sorted

/-- The rows that a request selects, in the order it asks for. -/
def ordered (view : IndexView) (request : QueryRequest) (items : List Item) : List Item :=
  directed request (descending (fun a b => view.order a b == .lt) (view.rows request items))

/-- The row comes after a key in the order that the request asks for. -/
def isAfter (view : IndexView) (request : QueryRequest) (start row : Item) : Bool :=
  view.order row start == (if request.forward then .gt else .lt)

/-- Those of the rows that come after the key that a request resumes after. -/
def after (view : IndexView) (request : QueryRequest) (rows : List Item) : List Item :=
  match request.startKey with
  | none => rows
  | some start => rows.filter (view.isAfter request start)

/-- The rows that are left to evaluate. -/
def remaining (view : IndexView) (request : QueryRequest) (items : List Item) : List Item :=
  view.after request (view.ordered request items)

/-- How a request returns a row: what the index carries of it, as far as it was
    selected. -/
def present (view : IndexView) (request : QueryRequest) (item : Item) : Item :=
  match request.projection.filter fun attrs => !attrs.isEmpty with
  | some attrs => (view.project item).restrict attrs.contains
  | none => view.project item

/-- What a request returns of a row that was evaluated, if anything. -/
def result? (view : IndexView) (request : QueryRequest) (item : Item) : Option Item :=
  if request.filter.all (·.holds item) then some (view.present request item) else none

/-- The page of a request on the rows that are left: at most `limit` of them are
    evaluated. -/
def pageOf (view : IndexView) (request : QueryRequest) (limit : Nat) (rows : List Item) : Page :=
  let evaluated := rows.take limit
  { items := evaluated.filterMap (view.result? request)
    lastKey :=
      if evaluated.length < rows.length then evaluated.getLast?.map view.itemKey else none }

/-- One page of a request. -/
def scan (view : IndexView) (request : QueryRequest) (limit : Nat) (items : List Item) : Page :=
  view.pageOf request limit (view.remaining request items)

/-- The sort of the rows that a request selects is bound to succeed. -/
def sortable (view : IndexView) (request : QueryRequest) (items : List Item) : Bool :=
  WideColumn.sortable view.order (view.rows request items)

/-- What may become of one page of a request: a page, or nothing if the sort panics. -/
def MayScan (view : IndexView) (request : QueryRequest) (limit : Nat) (items : List Item)
    (outcome : Option Page) : Prop :=
  ∃ sorted, MaySort view.order (view.rows request items) sorted ∧
    outcome = sorted.map fun rows =>
      view.pageOf request limit (view.after request (directed request rows))

end IndexView

end WideColumn
