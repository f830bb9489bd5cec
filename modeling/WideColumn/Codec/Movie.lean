import WideColumn.Codec.Basic

/-!
# Movies

A record type with required and optional fields.

An optional field that is missing may also be given as null, and is not written
back. A rating may be given as an integer and is then a double all the same.

## Main definitions

* `Movie`: The records.
* `Movie.read?`, `Movie.write`: Their format.
* `Movie.codec`: Movies as items.
-/

namespace WideColumn

open Document

/-- A record with fields of its own, some of which may be missing. -/
structure Movie where
  director : String
  title : String
  year : Int64
  genre : Option String
  rating : Option Binary64
deriving DecidableEq

namespace Movie

/-- The movie of a form. An array may end after the required fields. -/
def read? (d : Document) : Option Movie := do
  let [director, title, year, genre, rating] ←
    d.leadingFields? 3 ["director", "title", "year", "genre", "rating"] | none
  return {
    director := ← required string? director
    title := ← required string? title
    year := ← required int64? year
    genre := ← optional string? genre
    rating := ← optional double? rating }

/-- An optional field, if it is there. -/
def optionalField {α : Type} (name : String) (write : α → Json) (field : Option α) :
    List (String × Json) :=
  (field.map fun a => (name, write a)).toList

/-- The form of a movie, its fields in the order of their names. Fields that are missing are left
    out. -/
def write (m : Movie) : Json :=
  .object ([("director", .string m.director)] ++ optionalField "genre" .string m.genre ++
    optionalField "rating" .ofDouble m.rating ++
    [("title", .string m.title), ("year", .ofInt64 m.year)])

/-- Movies as items. -/
def codec : Codec Movie := .ofFormat read? write

end Movie

end WideColumn
