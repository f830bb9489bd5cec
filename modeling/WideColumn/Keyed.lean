/-!
# Keyed Lists

Contents filed under names.

A keyed list is a list of pairs that stands in ascending order of its names,
compared by code points, with no name twice. `insert` keeps it so, and filtering
one leaves it so, which is all the operations that make or shrink them. The
order is therefore not carried in the type: a lookup in a list that was put
together in some other way finds the first pair of the name.

## Main definitions

* `Keyed`: A list of named contents.
* `get?`, `contains`: Lookup by name.
* `insert`, `ofList`: Filing contents, the last one of a name winning.
* `restrict`: The pairs whose names satisfy a test.
-/

namespace WideColumn

/-- Contents filed under names, in ascending order of the names. -/
abbrev Keyed (α : Type) := List (String × α)

namespace Keyed

variable {α : Type}

/-- The content filed under a name. -/
def get? (m : Keyed α) (name : String) : Option α :=
  m.lookup name

/-- Something is filed under the name. -/
def contains (m : Keyed α) (name : String) : Bool :=
  (get? m name).isSome

/-- File a content under a name, in place of what was there. -/
def insert (name : String) (content : α) : Keyed α → Keyed α
  | [] => [(name, content)]
  | (other, held) :: rest =>
    if name < other then (name, content) :: (other, held) :: rest
    else if name = other then (name, content) :: rest
    else (other, held) :: insert name content rest

/-- File the pairs one after the other, so that the last one of a name stays. -/
def ofList (pairs : List (String × α)) : Keyed α :=
  pairs.foldl (fun m pair => insert pair.1 pair.2 m) []

/-- The pairs whose names satisfy a test. -/
def restrict (m : Keyed α) (keep : String → Bool) : Keyed α :=
  m.filter fun pair => keep pair.1

end Keyed

/-- Names in ascending order without repetition. -/
def sortedNames (names : List String) : List String :=
  (Keyed.ofList (names.map fun name => (name, ()))).map Prod.fst

end WideColumn
