import WideColumn.Rendering.Builder
import WideColumn.Request.Basic

/-!
# Rendered Requests

The texts of a request and what their placeholders stand for.

The key condition, the filter and the projection share one set of placeholders,
in that order.

## Main definitions

* `Rendered`: The texts and the placeholders.
* `QueryRequest.render`: Rendering a request.
-/

namespace WideColumn

/-- The texts of a request and what their placeholders stand for. -/
structure Rendered where
  key : String
  filter : Option String
  projection : Option String
  names : List (String × String)
  values : List (String × Value)

namespace Rendering

/-- Write a part of a request, if there is one, and take its text. -/
def part {α : Type} (write : α → Builder → Builder) (content : Option α) (b : Builder) :
    Option String × Builder :=
  match content with
  | none => (none, b)
  | some a => ((write a b).takeText.map some id)

end Rendering

open Rendering in
/-- The texts of a request and what their placeholders stand for. A projection
    to no attributes has no text. -/
def QueryRequest.render (request : QueryRequest) : Rendered :=
  let key := (Builder.condition request.key.toCondition Builder.empty).takeText
  let filter := part Builder.condition request.filter key.2
  let projection :=
    part Builder.projection (request.projection.filter fun attrs => !attrs.isEmpty) filter.2
  { key := key.1
    filter := filter.1
    projection := projection.1
    names := projection.2.namePlaceholders
    values := projection.2.valuePlaceholders }

end WideColumn
