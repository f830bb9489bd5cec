import WideColumn.Proofs.Rendering.Wordwise
import WideColumn.Rendering.Request

/-!
# Nothing from the Caller in a Text

The texts of a request do not depend on its attributes and operands.

If the attributes and the operands of a request are replaced by others, the texts stay as they
are. So a text has nothing of them. What it does show is which of the attributes are the same:
the second mention of an attribute has the placeholder of the first, also if it is in another
text. Attributes that are merged would change it, and the replacement must keep them apart.
An operand has a placeholder of its own at every place, so operands may be merged or not.

The two builders are compared after each word, with what they have bound. That they have written
the same is not enough to go on: the next name could be known to one of them and new to the
other. `Follows` is what is kept, and it is kept by every word, so it is kept from one text to
the next as well.

## Main definitions

* `Word.Renamed`: A word and what is written in its place.
* `Builder.Follows`: A builder that wrote the same with other names.
* `bindings`: Operands under the placeholders that they have if they are written in a row.

## Theorems

* `words_replaced`: The words of a condition in which everything was replaced.
* `word_follows`, `foldl_follows`: A builder that follows still does after one word, and after a
  row of them.
* `render_values`: The operands of a request under their placeholders.
* `render_replaced`: The texts of a request stay as they are.
-/

namespace WideColumn

namespace Rendering

/-- A word and what is written in its place, if attributes are renamed and operands are
    replaced by any others. -/
inductive Word.Renamed (f : String → String) : Word → Word → Prop
  | fixed (text : String) : Renamed f (.fixed text) (.fixed text)
  | name (attr : String) : Renamed f (.name attr) (.name (f attr))
  | value (v w : Value) : Renamed f (.value v) (.value w)

theorem operandWords_map (f : String → String) (g : Value → Value) (vs : List Value) :
    List.Forall₂ (Word.Renamed f) (operandWords vs) (operandWords (vs.map g)) := by
  match vs with
  | [] => exact .nil
  | [v] => exact .cons (.value v (g v)) .nil
  | v :: w :: rest =>
      exact .cons (.value v (g v)) (.cons (.fixed ", ") (operandWords_map f g (w :: rest)))

theorem nameWords_map (f : String → String) (attrs : List String) :
    List.Forall₂ (Word.Renamed f) (nameWords attrs) (nameWords (attrs.map f)) := by
  match attrs with
  | [] => exact .nil
  | [attr] => exact .cons (.name attr) .nil
  | attr :: next :: rest =>
      exact .cons (.name attr) (.cons (.fixed ", ") (nameWords_map f (next :: rest)))

-- Fixed texts around words stay.
theorem enclosed_renamed {f : String → String} {ws us : List Word}
    (h : List.Forall₂ (Word.Renamed f) ws us) (before behind : String) :
    List.Forall₂ (Word.Renamed f) (.fixed before :: (ws ++ [.fixed behind]))
      (.fixed before :: (us ++ [.fixed behind])) :=
  .cons (.fixed before) (List.rel_append h (.cons (.fixed behind) .nil))

theorem isJunction_replaced (r : Replacement) (c : Condition) :
    Builder.isJunction (c.replaced r) = Builder.isJunction c := by
  cases c <;> rfl

mutual

/-- The words of a condition in which everything was replaced. -/
theorem words_replaced (r : Replacement) (c : Condition) :
    List.Forall₂ (Word.Renamed r.attr) (words c) (words (c.replaced r)) := by
  cases c with
  | comparison attr comparator v =>
      exact .cons (.name attr) (.cons (.fixed _) (.cons (.value v _) .nil))
  | between attr low high =>
      exact .cons (.name attr) (.cons (.fixed " BETWEEN ") (.cons (.value low _)
        (.cons (.fixed " AND ") (.cons (.value high _) .nil))))
  | beginsWith attr start =>
      exact .cons (.fixed "begins_with(") (.cons (.name attr) (.cons (.fixed ", ")
        (.cons (.value _ _) (.cons (.fixed ")") .nil))))
  | isIn attr vs =>
      exact .cons (.name attr) (enclosed_renamed (operandWords_map r.attr r.value vs) " IN (" ")")
  | contains attr v =>
      exact .cons (.fixed "contains(") (.cons (.name attr) (.cons (.fixed ", ")
        (.cons (.value v _) (.cons (.fixed ")") .nil))))
  | attributeExists attr =>
      exact .cons (.fixed "attribute_exists(") (.cons (.name attr) (.cons (.fixed ")") .nil))
  | attributeNotExists attr =>
      exact .cons (.fixed "attribute_not_exists(") (.cons (.name attr) (.cons (.fixed ")") .nil))
  | and inner => exact junctionWords_replaced r " AND " inner
  | or inner => exact junctionWords_replaced r " OR " inner
  | not inner => exact enclosed_renamed (words_replaced r inner) "NOT (" ")"

theorem junctionWords_replaced (r : Replacement) (separator : String) (cs : List Condition) :
    List.Forall₂ (Word.Renamed r.attr) (junctionWords separator cs)
      (junctionWords separator (Condition.allReplaced r cs)) := by
  match cs with
  | [] => exact .nil
  | c :: rest =>
      -- A junction stays one, so it has parentheses as before.
      have hfirst : List.Forall₂ (Word.Renamed r.attr) (termWords c)
          (termWords (c.replaced r)) := by
        unfold termWords
        rw [isJunction_replaced r c]
        by_cases hjunction : Builder.isJunction c = true
        · rw [if_pos hjunction, if_pos hjunction]
          exact enclosed_renamed (words_replaced r c) "(" ")"
        · rw [if_neg hjunction, if_neg hjunction]
          exact words_replaced r c
      have hrest := junctionWords_replaced r separator rest
      cases rest with
      | nil => exact hfirst
      | cons d rest => exact List.rel_append hfirst (.cons (.fixed separator) hrest)

end

namespace Builder

/-- The second builder wrote what the first one did, with other names and as many operands. -/
structure Follows (f : String → String) (b d : Builder) : Prop where
  pieces_eq : d.pieces = b.pieces
  names_eq : d.names = b.names.map f
  count_eq : d.values.length = b.values.length

theorem empty_follows (f : String → String) : empty.Follows f empty := ⟨rfl, rfl, rfl⟩

-- A name is known to the one builder where the other name is known to the other.
theorem idxOf?_map {f : String → String} (hf : Function.Injective f) (names : List String)
    (attr : String) : (names.map f).idxOf? (f attr) = names.idxOf? attr := by
  have hsame : ((· == f attr) ∘ f) = (· == attr) := by
    funext name
    rw [Function.comp_apply, Bool.eq_iff_iff, beq_iff_eq, beq_iff_eq]
    exact hf.eq_iff
  rw [List.idxOf?, List.findIdx?_map, hsame]
  rfl

variable {f : String → String} {b d : Builder}

/-- A builder that follows still does after one word. -/
theorem word_follows (hf : Function.Injective f) (h : b.Follows f d) {w u : Word}
    (hword : w.Renamed f u) : (b.word w).Follows f (d.word u) := by
  cases hword with
  | fixed text =>
      rw [word, word, fixed, fixed, h.pieces_eq]
      exact ⟨rfl, h.names_eq, h.count_eq⟩
  | name attr =>
      rw [word, word, name, name, h.names_eq, idxOf?_map hf, List.length_map, h.pieces_eq]
      cases b.names.idxOf? attr with
      | some number => exact ⟨rfl, rfl, h.count_eq⟩
      | none =>
          have hnames : (b.names ++ [attr]).map f = b.names.map f ++ [f attr] := List.map_append
          exact ⟨rfl, hnames.symm, h.count_eq⟩
  | value v w =>
      rw [word, word, value, value, h.pieces_eq, h.count_eq]
      refine ⟨rfl, h.names_eq, ?_⟩
      rw [List.length_append, List.length_append, h.count_eq]
      rfl

/-- It does so after a row of words. -/
theorem foldl_follows (hf : Function.Injective f) (h : b.Follows f d) {ws us : List Word}
    (hwords : List.Forall₂ (Word.Renamed f) ws us) :
    (ws.foldl word b).Follows f (us.foldl word d) := by
  induction hwords generalizing b d with
  | nil => exact h
  | cons hword _ ih => exact ih (word_follows hf h hword)

theorem condition_follows (r : Replacement) (h : b.Follows r.attr d) (c : Condition) :
    (condition c b).Follows r.attr (condition (c.replaced r) d) := by
  rw [condition_eq_foldl, condition_eq_foldl]
  exact foldl_follows r.attr_injective h (words_replaced r c)

theorem projection_follows (hf : Function.Injective f) (h : b.Follows f d)
    (attrs : List String) : (projection attrs b).Follows f (projection (attrs.map f) d) := by
  rw [projection_eq_foldl, projection_eq_foldl]
  exact foldl_follows hf h (nameWords_map f attrs)

-- What is bound later is bound by the builder that is left when a text was taken.
theorem takeText_follows (h : b.Follows f d) :
    d.takeText.1 = b.takeText.1 ∧ b.takeText.2.Follows f d.takeText.2 := by
  rw [takeText, takeText, text, text, h.pieces_eq]
  exact ⟨rfl, rfl, h.names_eq, h.count_eq⟩

theorem namePlaceholders_follow (h : b.Follows f d) :
    d.namePlaceholders = b.namePlaceholders.map fun (key, attr) => (key, f attr) := by
  rw [namePlaceholders, namePlaceholders, h.names_eq, List.zipIdx_map, List.map_map, List.map_map]
  rfl

end Builder

/-- The parts are written alike, so they have the same text, if there is one. -/
theorem part_follows {α : Type} {write : α → Builder → Builder} {f : String → String} {g : α → α}
    (hwrite : ∀ a {b d : Builder}, b.Follows f d → (write a b).Follows f (write (g a) d))
    (content : Option α) {b d : Builder} (h : b.Follows f d) :
    (part write (content.map g) d).1 = (part write content b).1 ∧
      (part write content b).2.Follows f (part write (content.map g) d).2 := by
  cases content with
  | none => exact ⟨rfl, h⟩
  | some a =>
      have htaken := Builder.takeText_follows (hwrite a h)
      exact ⟨congrArg some htaken.1, htaken.2⟩

/-- Operands under the placeholders that they have if they are written in a row. -/
def bindings (operands : List Operand) : List (String × Value) :=
  operands.zipIdx.map fun (operand, number) => (valuePlaceholder number, operand.bound)

namespace Builder

theorem condition_values (c : Condition) (b : Builder) :
    (condition c b).values = b.values ++ c.operands.map Operand.bound := by
  rw [condition_eq_foldl, foldl_values, (words_mention c).2]

theorem projection_values (attrs : List String) (b : Builder) :
    (projection attrs b).values = b.values ++ [] := by
  rw [projection_eq_foldl, foldl_values, (nameWords_mention attrs).2]

theorem valuePlaceholders_eq {b : Builder} {operands : List Operand}
    (h : b.values = operands.map Operand.bound) : b.valuePlaceholders = bindings operands := by
  rw [valuePlaceholders, h, List.zipIdx_map, List.map_map]
  rfl

end Builder

theorem part_values {α : Type} {write : α → Builder → Builder} {added : α → List Value}
    (hwrite : ∀ a b, (write a b).values = b.values ++ added a) (content : Option α) (b : Builder) :
    (part write content b).2.values = b.values ++ content.toList.flatMap added := by
  cases content with
  | none => exact (List.append_nil b.values).symm
  | some a =>
      rw [Option.toList_some, List.flatMap_singleton]
      exact hwrite a b

end Rendering

open Rendering

namespace QueryRequest

/-- The operands of a request under their placeholders. -/
theorem render_values (request : QueryRequest) :
    request.render.values = bindings request.operands := by
  have hkey := Builder.condition_values request.key.toCondition Builder.empty
  have hnone : ((request.projection.filter fun attrs => !attrs.isEmpty).toList.flatMap
      fun _ => ([] : List Value)) = [] := List.flatMap_eq_nil_iff.mpr fun _ _ => rfl
  refine Builder.valuePlaceholders_eq ?_
  -- From the last text to the first one.
  rw [part_values Builder.projection_values, part_values Builder.condition_values, hnone,
    List.append_nil, Builder.takeText, hkey, operands, List.map_append, List.map_flatMap]
  rfl

-- A projection to no attributes stays one.
theorem projection_replaced (r : Replacement) (request : QueryRequest) :
    ((request.replaced r).projection.filter fun attrs => !attrs.isEmpty) =
      (request.projection.filter fun attrs => !attrs.isEmpty).map (·.map r.attr) := by
  have hempty : (fun attrs : List String => !attrs.isEmpty) ∘ List.map r.attr =
      fun attrs => !attrs.isEmpty := by
    funext attrs
    rw [Function.comp_apply, List.isEmpty_map]
  rw [replaced, Option.filter_map, hempty]

/-- The texts of a request stay as they are if its attributes and operands are replaced. Under
    the placeholders are what took the place of the attributes and the operands that were
    there. -/
theorem render_replaced (r : Replacement) (request : QueryRequest) :
    (request.replaced r).render.key = request.render.key ∧
      (request.replaced r).render.filter = request.render.filter ∧
      (request.replaced r).render.projection = request.render.projection ∧
      (request.replaced r).render.names =
        request.render.names.map (fun (key, attr) => (key, r.attr attr)) ∧
      request.render.values = bindings request.operands ∧
      (request.replaced r).render.values = bindings (request.operands.map r.operand) := by
  have hcondition := Builder.condition_follows r (Builder.empty_follows r.attr)
    request.key.toCondition
  rw [← KeyCondition.toCondition_replaced] at hcondition
  -- Each text is written with the builder that the one before it left.
  have hkey := Builder.takeText_follows hcondition
  have hfilter := part_follows (fun c _ _ h => Builder.condition_follows r h c)
    request.filter hkey.2
  have hprojection := part_follows
    (fun attrs _ _ h => Builder.projection_follows r.attr_injective h attrs)
    (request.projection.filter fun attrs => !attrs.isEmpty) hfilter.2
  rw [← projection_replaced] at hprojection
  have hvalues := (request.replaced r).render_values
  rw [operands_replaced] at hvalues
  exact ⟨hkey.1, hfilter.1, hprojection.1, Builder.namePlaceholders_follow hprojection.2,
    request.render_values, hvalues⟩

end QueryRequest

/-- The westerns of a director, with a text of each kind. Two attributes are mentioned again in
    a later text. -/
def titledWesterns : QueryRequest where
  table := "Movies"
  index := none
  key := ⟨"director", .string "Clint Eastwood", some ("title", .beginsWith "The ")⟩
  filter := some (.and [.between "year" (.integer 1970) (.integer 1999),
    .or [.comparison "genre" .equal (.string "Western"), .attributeNotExists "genre"]])
  projection := some ["title", "year"]
  forward := true
  consistent := false
  limit := none
  startKey := none

/-- Nothing is left of the operands, and the attributes can only be told apart. -/
def redacted : Replacement where
  attr := ("x" ++ ·)
  value := fun _ => .null
  start := fun _ => ""
  attr_injective := fun _ _ h => (String.append_right_inj "x").mp h

/-- The texts are those of the request as it was. -/
theorem render_replaced_titledWesterns :
    (titledWesterns.replaced redacted).render.key = "#n0 = :v0 AND begins_with(#n1, :v1)" ∧
      (titledWesterns.replaced redacted).render.filter =
        some "#n2 BETWEEN :v2 AND :v3 AND (#n3 = :v4 OR attribute_not_exists(#n3))" ∧
      (titledWesterns.replaced redacted).render.projection = some "#n1, #n2" ∧
      (titledWesterns.replaced redacted).render.names =
        [("#n0", "xdirector"), ("#n1", "xtitle"), ("#n2", "xyear"), ("#n3", "xgenre")] ∧
      (titledWesterns.replaced redacted).render.values =
        [(":v0", .null), (":v1", .string ""), (":v2", .null), (":v3", .null), (":v4", .null)] := by
  rcases QueryRequest.render_replaced redacted titledWesterns with
    ⟨hkey, hfilter, hprojection, hnames, _, hvalues⟩
  exact ⟨hkey.trans rfl, hfilter.trans rfl, hprojection.trans rfl, hnames.trans rfl,
    hvalues.trans rfl⟩

end WideColumn
