import WideColumn.Error
import WideColumn.Store.Scan

/-!
# Cursors

A query as a row of records, one at a time.

A cursor holds the last page that was fetched and how many of its items were
given away. `next` says what comes next without doing it: an item of the page,
the end, or the need for another page. What a page costs and how it is obtained
is not the cursor's business, so `pull` takes the fetching as an argument and
works the same against any source.

A cursor changes in two ways only, by giving an item away and by receiving a
page. A fetch that fails leaves it as it was, and the next pull asks for the
same page again. The end is reached when a page came without a key to resume
after, or when as many pages have come as the caller wants.

## Main definitions

* `Cursor`, `CursorState`: Cursors and their states.
* `Cursor.next`: What comes next.
* `Cursor.fetchRequest`, `Cursor.receive`: Asking for a page and taking it.
* `Cursor.fetch`: The next page and the request that asked for it.
* `Cursor.pull`: The next item, fetching as many pages as it takes.
* `Cursor.Pull.record`: What is given to the caller.
-/

namespace WideColumn

/-- What a caller is told of a cursor without pulling it. -/
inductive CursorState where
  /-- No page has been fetched. -/
  | fresh
  /-- There is an item to give, or a page to fetch after the last one. -/
  | filled
  /-- Every item was given. -/
  | exhausted
  /-- As many pages were fetched as are wanted. -/
  | capped
deriving DecidableEq

namespace CursorState

/-- The name of a state. -/
def name : CursorState → String
  | fresh => "Fresh"
  | filled => "Filled"
  | exhausted => "Exhausted"
  | capped => "Capped"

end CursorState

/-- A query part way through its records. -/
structure Cursor where
  /-- How many pages are wanted, if not all. -/
  maxPages : Option Nat
  /-- How many rows the store may evaluate for a page. -/
  limit : Option Nat
  /-- The key to resume after. -/
  startKey : Option Item
  /-- The request of the last page. -/
  request : Option QueryRequest
  pagesFetched : Nat
  /-- The items of the last page. -/
  page : List Item
  /-- How many of them were given away. -/
  position : Nat

/-- A key to resume after, where the empty key is none. -/
def resumeKey (key : Option Item) : Option Item :=
  key.filter fun item => !item.isEmpty

namespace Cursor

/-- A cursor that has fetched nothing. -/
def fresh : Cursor where
  maxPages := none
  limit := none
  startKey := none
  request := none
  pagesFetched := 0
  page := []
  position := 0

/-- A page has come, and without a key to resume after. -/
def allItemsParsed (c : Cursor) : Bool :=
  0 < c.pagesFetched && c.startKey.isNone

/-- As many pages have come as are wanted. -/
def maxPaginationReached (c : Cursor) : Bool :=
  c.maxPages.any (· ≤ c.pagesFetched)

/-- How many pages may still be fetched, if only so many are wanted. -/
def pagesLeft? (c : Cursor) : Option Nat :=
  c.maxPages.map (· - c.pagesFetched)

/-- What the next pull comes upon before it fetches anything. -/
inductive Next where
  /-- An item, and the cursor once it is given away. -/
  | item (item : Item) (rest : Cursor)
  | complete (completion : Completion)
  | needsPage

/-- What comes next. The items in hand go first, and of the two reasons to end the last key
    is looked at before the number of pages. -/
def next (c : Cursor) : Next :=
  match c.page[c.position]? with
  | some item => .item item { c with position := c.position + 1 }
  | none =>
    if c.allItemsParsed then .complete .allItemsParsed
    else if c.maxPaginationReached then .complete .maxPaginationReached
    else .needsPage

/-- The state of a cursor, which asks the same questions in the same order. A cursor that
    needs a page counts as filled once it has fetched one. -/
def state (c : Cursor) : CursorState :=
  if c.position < c.page.length then .filled
  else if c.allItemsParsed then .exhausted
  else if c.maxPaginationReached then .capped
  else if c.pagesFetched = 0 then .fresh
  else .filled

/-- The request for the next page, given the request as it was planned. -/
def fetchRequest (c : Cursor) (planned : QueryRequest) : QueryRequest :=
  { planned with limit := c.limit, startKey := c.startKey }

/-- The request for the next page before its limit and start key are filled in. The
    first page is planned, and later ones keep the plan. -/
def planned {m : Type → Type} [Monad m] (plan : m (Except QueryError QueryRequest))
    (c : Cursor) : m (Except QueryError QueryRequest) :=
  match c.request with
  | some request => pure (.ok request)
  | none => plan

/-- The next page and the request that asked for it. -/
def fetch {m : Type → Type} [Monad m] (plan : m (Except QueryError QueryRequest))
    (execute : QueryRequest → m (Except QueryError Page)) (c : Cursor) :
    m (Except QueryError (QueryRequest × Page)) := do
  match ← c.planned plan with
  | .error e => return .error e
  | .ok planned =>
    let request := c.fetchRequest planned
    let answer ← execute request
    return answer.map fun page => (request, page)

/-- The cursor with the page that a request was answered with. -/
def receive (c : Cursor) (request : QueryRequest) (page : Page) : Cursor :=
  { c with
    request := some request
    pagesFetched := c.pagesFetched + 1
    startKey := resumeKey page.lastKey
    page := page.items
    position := 0 }

/-- Want no more than a number of pages, or all of them. -/
def setMaxPages (c : Cursor) (n : Option Nat) : Cursor := { c with maxPages := n }

/-- Let the store evaluate no more than a number of rows for a page. -/
def setLimit (c : Cursor) (n : Option Nat) : Cursor := { c with limit := n }

/-- Resume the next fetch after a key. -/
def setStartKey (c : Cursor) (key : Item) : Cursor := { c with startKey := resumeKey (some key) }

/-- What a pull comes to. -/
inductive Pull where
  | item (item : Item)
  | failed (e : QueryError)
  /-- More pages were empty than the pull was to fetch. -/
  | unfinished

/-- What the caller is given. An item that cannot be decoded is given away all the
    same. -/
def Pull.record {α : Type} (decode : Item → Except CodecError α) : Pull → Except QueryError α
  | .item given => (decode given).mapError .codec
  | .failed e => .error e
  | .unfinished => .error .timeout

/-- The next item, fetching at most `pages` pages on the way to it. -/
def pull {m : Type → Type} [Monad m]
    (fetch : Cursor → m (Except QueryError (QueryRequest × Page))) :
    Nat → Cursor → m (Pull × Cursor)
  | pages, c =>
    match c.next with
    | .item item rest => pure (.item item, rest)
    | .complete completion => pure (.failed (.parsingComplete completion), c)
    | .needsPage =>
      match pages with
      | 0 => pure (.unfinished, c)
      | pages + 1 => do
        match ← fetch c with
        | .error e => pure (.failed e, c)
        | .ok (request, page) => pull fetch pages (c.receive request page)

end Cursor

end WideColumn
