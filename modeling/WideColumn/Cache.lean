import WideColumn.Keyed
import WideColumn.Text.Quoted

/-!
# Caches

Contents that are kept under names once they are known.

What lands first stays: inserting under a name that is taken gives back what is
there. Callers that went to fetch the same content at the same time therefore
end up with one and the same.

## Main definitions

* `Cache`: The contents.
* `get?`, `insertIfAbsent`, `remove`, `size`: The operations.
* `debugText`: The contents on display.
-/

namespace WideColumn

/-- Contents under names. -/
structure Cache (α : Type) where
  entries : Keyed α

namespace Cache

variable {α : Type}

/-- A cache that keeps nothing. -/
def empty : Cache α := ⟨[]⟩

/-- The content under a name. -/
def get? (cache : Cache α) (name : String) : Option α :=
  cache.entries.get? name

/-- How many contents are kept. -/
def size (cache : Cache α) : Nat :=
  cache.entries.length

/-- Nothing is kept. -/
def isEmpty (cache : Cache α) : Bool :=
  cache.entries.isEmpty

/-- Keep a content unless the name is taken. The result is what is kept under
    the name afterwards. -/
def insertIfAbsent (cache : Cache α) (name : String) (content : α) : α × Cache α :=
  match cache.get? name with
  | some held => (held, cache)
  | none => (content, ⟨cache.entries.insert name content⟩)

/-- Give up what is kept under a name, if anything. -/
def remove (cache : Cache α) (name : String) : Option α × Cache α :=
  (cache.get? name, ⟨cache.entries.restrict (· != name)⟩)

/-- The contents on display. -/
def debugText (cache : Cache String) : String :=
  let entry (pair : String × String) := Text.quote pair.1 ++ ": " ++ Text.quote pair.2
  "SafeMap \x7b \x7b" ++ ", ".intercalate (cache.entries.map entry) ++ "\x7d \x7d"

end Cache

end WideColumn
