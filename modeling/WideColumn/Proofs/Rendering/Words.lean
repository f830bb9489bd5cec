import Mathlib.Data.List.Forall2
import WideColumn.Proofs.Rendering.Text
import WideColumn.Proofs.Value.Equality

/-!
# What a Text Says

The words that a condition is written as, with what its placeholders stand for.

Which placeholder a name or an operand gets depends on everything that was written before it,
so two texts can only be compared piece by piece together with what their placeholders stand
for. `words` leaves the placeholders out: it is what a condition says when each of them is
replaced by its name or its operand, and depends on nothing but the condition.

A builder only adds to what it has. A name that has a placeholder keeps it, so a piece stands
for the same word whatever is written after it. That makes writing one part behind another a
matter of putting their words behind each other, which is `Writes.trans`, and the words of a
condition follow from how it is put together.

## Main definitions

* `Word`: A fixed text, a name or an operand.
* `words`, `junctionWords`: The words of a condition.
* `Piece.Stands`: A piece stands for a word.
* `Builder.Writes`: Writing adds pieces that stand for words.
* `Builder.RendersAlike`: The same text with the same under all placeholders.
* `Word.Alike`: Words that cannot be told apart.

## Theorems

* `Writes.trans`: Writing two parts is writing the words of both.
* `writes_condition`: A condition is written as its words.
* `words_alike`: Conditions that are rendered alike have words that are alike.
-/

namespace WideColumn

namespace Rendering

/-- What a piece stands for. -/
inductive Word where
  | fixed (text : String)
  | name (attr : String)
  | value (v : Value)

/-- Operands with commas between them. -/
def operandWords : List Value → List Word
  | [] => []
  | [v] => [.value v]
  | v :: rest => .value v :: .fixed ", " :: operandWords rest

mutual

/-- The words of a condition. -/
def words : Condition → List Word
  | .comparison attr comparator v =>
    [.name attr, .fixed (" " ++ comparator.symbol ++ " "), .value v]
  | .between attr low high =>
    [.name attr, .fixed " BETWEEN ", .value low, .fixed " AND ", .value high]
  | .beginsWith attr start =>
    [.fixed "begins_with(", .name attr, .fixed ", ", .value (.string start), .fixed ")"]
  | .isIn attr vs => .name attr :: .fixed " IN (" :: (operandWords vs ++ [.fixed ")"])
  | .contains attr v => [.fixed "contains(", .name attr, .fixed ", ", .value v, .fixed ")"]
  | .attributeExists attr => [.fixed "attribute_exists(", .name attr, .fixed ")"]
  | .attributeNotExists attr => [.fixed "attribute_not_exists(", .name attr, .fixed ")"]
  | .and inner => junctionWords " AND " inner
  | .or inner => junctionWords " OR " inner
  | .not inner => .fixed "NOT (" :: (words inner ++ [.fixed ")"])
termination_by structural c => c

/-- The words of conditions with a separator between them. -/
def junctionWords (separator : String) : List Condition → List Word
  | [] => []
  | c :: rest =>
    let first :=
      if Builder.isJunction c then .fixed "(" :: (words c ++ [.fixed ")"]) else words c
    if rest.isEmpty then first else first ++ .fixed separator :: junctionWords separator rest
termination_by structural cs => cs

end

/-- The words of a condition within another one. -/
def termWords (c : Condition) : List Word :=
  if Builder.isJunction c then .fixed "(" :: (words c ++ [.fixed ")"]) else words c

theorem junctionWords_singleton (separator : String) (c : Condition) :
    junctionWords separator [c] = termWords c := rfl

theorem junctionWords_cons_cons (separator : String) (c d : Condition) (rest : List Condition) :
    junctionWords separator (c :: d :: rest) =
      termWords c ++ .fixed separator :: junctionWords separator (d :: rest) := rfl

/-- A piece stands for a word, under the names and the operands of a builder. -/
inductive Piece.Stands (names : List String) (values : List Value) : Piece → Word → Prop
  | fixed {text : String} : text ∈ vocabulary → Stands names values (.fixed text) (.fixed text)
  | name {number : Nat} {attr : String} : names[number]? = some attr →
      Stands names values (.name number) (.name attr)
  | value {number : Nat} {v : Value} : values[number]? = some v →
      Stands names values (.value number) (.value v)

namespace Piece

variable {names more : List String} {values added : List Value}

theorem getElem?_of_kept {α : Type} {l m : List α} (h : l <+: m) {n : Nat} {a : α}
    (hget : l[n]? = some a) : m[n]? = some a := by
  rcases h with ⟨rest, rfl⟩
  rcases List.getElem?_eq_some_iff.mp hget with ⟨hlt, _⟩
  rw [List.getElem?_append_left hlt]
  exact hget

-- What is written later does not change what a piece stands for.
theorem Stands.mono {p : Piece} {w : Word} (h : p.Stands names values w)
    (hnames : names <+: more) (hvalues : values <+: added) : p.Stands more added w := by
  cases h with
  | fixed htext => exact .fixed htext
  | name hget => exact .name (getElem?_of_kept hnames hget)
  | value hget => exact .value (getElem?_of_kept hvalues hget)

theorem Stands.legal {p : Piece} {w : Word} (h : p.Stands names values w) : p.Legal := by
  cases h with
  | fixed htext => exact htext
  | name _ => trivial
  | value _ => trivial

end Piece

namespace Builder

/-- Writing adds pieces that stand for words, and keeps the names and the operands that were
    there. -/
structure Writes (b after : Builder) (ws : List Word) : Prop where
  names_kept : b.names <+: after.names
  values_kept : b.values <+: after.values
  pieces : ∃ written, after.pieces = b.pieces ++ written ∧
    List.Forall₂ (Piece.Stands after.names after.values) written ws

/-- Writing two parts is writing the words of both. -/
theorem Writes.trans {b middle after : Builder} {ws vs : List Word} (h : b.Writes middle ws)
    (h' : middle.Writes after vs) : b.Writes after (ws ++ vs) := by
  rcases h.pieces with ⟨front, hfront, hws⟩
  rcases h'.pieces with ⟨back, hback, hvs⟩
  refine ⟨h.names_kept.trans h'.names_kept, h.values_kept.trans h'.values_kept,
    front ++ back, ?_, ?_⟩
  · rw [hback, hfront, List.append_assoc]
  · have hlater := hws.imp fun _ _ hstands => hstands.mono h'.names_kept h'.values_kept
    exact List.rel_append hlater hvs

theorem writes_nothing (b : Builder) : b.Writes b [] :=
  ⟨List.prefix_rfl, List.prefix_rfl, [], (List.append_nil _).symm, .nil⟩

theorem writes_fixed (b : Builder) {text : String} (h : text ∈ vocabulary) :
    b.Writes (b.fixed text) [.fixed text] :=
  ⟨List.prefix_rfl, List.prefix_rfl, [.fixed text], rfl, .cons (.fixed h) .nil⟩

theorem writes_name (b : Builder) (attr : String) : b.Writes (b.name attr) [.name attr] := by
  unfold name
  cases hnumber : b.names.idxOf? attr with
  | some number =>
      rcases List.idxOf?_eq_some_iff.mp hnumber with ⟨hlt, hattr, _⟩
      have hget : b.names[number]? = some attr := List.getElem?_eq_some_iff.mpr ⟨hlt, hattr⟩
      exact ⟨List.prefix_rfl, List.prefix_rfl, [.name number], rfl, .cons (.name hget) .nil⟩
  | none =>
      have hget : (b.names ++ [attr])[b.names.length]? = some attr := List.getElem?_concat_length
      exact ⟨List.prefix_append _ _, List.prefix_rfl, [.name b.names.length], rfl,
        .cons (.name hget) .nil⟩

theorem writes_value (b : Builder) (v : Value) : b.Writes (b.value v) [.value v] := by
  have hget : (b.values ++ [v])[b.values.length]? = some v := List.getElem?_concat_length
  exact ⟨List.prefix_rfl, List.prefix_append _ _, [.value b.values.length], rfl,
    .cons (.value hget) .nil⟩

theorem writes_operands (vs : List Value) (b : Builder) :
    b.Writes (operands vs b) (operandWords vs) := by
  match vs with
  | [] => exact b.writes_nothing
  | [v] => exact b.writes_value v
  | v :: w :: rest =>
      have hmem : ", " ∈ vocabulary := by decide
      have hcomma := (b.value v).writes_fixed hmem
      exact (b.writes_value v).trans (hcomma.trans (writes_operands (w :: rest) _))

theorem symbol_mem_vocabulary (comparator : Comparator) :
    " " ++ comparator.symbol ++ " " ∈ vocabulary := by
  cases comparator <;> decide

mutual

/-- A condition is written as its words. -/
theorem writes_condition (c : Condition) (b : Builder) : b.Writes (condition c b) (words c) := by
  -- The texts of the functions and of what stands between operands.
  have hcomma : ", " ∈ vocabulary := by decide
  have hclose : ")" ∈ vocabulary := by decide
  cases c with
  | comparison attr comparator v =>
      have hname := b.writes_name attr
      have hsymbol := (b.name attr).writes_fixed (symbol_mem_vocabulary comparator)
      exact hname.trans (hsymbol.trans (writes_value _ v))
  | between attr low high =>
      have hbetween : " BETWEEN " ∈ vocabulary := by decide
      have hand : " AND " ∈ vocabulary := by decide
      exact (b.writes_name attr).trans ((writes_fixed _ hbetween).trans ((writes_value _ low).trans
        ((writes_fixed _ hand).trans (writes_value _ high))))
  | beginsWith attr start =>
      have hopen : "begins_with(" ∈ vocabulary := by decide
      exact (b.writes_fixed hopen).trans ((writes_name _ attr).trans ((writes_fixed _ hcomma).trans
        ((writes_value _ (.string start)).trans (writes_fixed _ hclose))))
  | isIn attr vs =>
      have hopen : " IN (" ∈ vocabulary := by decide
      exact (b.writes_name attr).trans ((writes_fixed _ hopen).trans
        ((writes_operands vs _).trans (writes_fixed _ hclose)))
  | contains attr v =>
      have hopen : "contains(" ∈ vocabulary := by decide
      exact (b.writes_fixed hopen).trans ((writes_name _ attr).trans ((writes_fixed _ hcomma).trans
        ((writes_value _ v).trans (writes_fixed _ hclose))))
  | attributeExists attr =>
      have hopen : "attribute_exists(" ∈ vocabulary := by decide
      exact (b.writes_fixed hopen).trans ((writes_name _ attr).trans (writes_fixed _ hclose))
  | attributeNotExists attr =>
      have hopen : "attribute_not_exists(" ∈ vocabulary := by decide
      exact (b.writes_fixed hopen).trans ((writes_name _ attr).trans (writes_fixed _ hclose))
  | and inner =>
      have hand : " AND " ∈ vocabulary := by decide
      exact writes_junction hand inner b
  | or inner =>
      have hor : " OR " ∈ vocabulary := by decide
      exact writes_junction hor inner b
  | not inner =>
      have hopen : "NOT (" ∈ vocabulary := by decide
      exact (b.writes_fixed hopen).trans ((writes_condition inner _).trans (writes_fixed _ hclose))

theorem writes_junction {separator : String} (hseparator : separator ∈ vocabulary)
    (cs : List Condition) (b : Builder) :
    b.Writes (junction separator cs b) (junctionWords separator cs) := by
  have hopen : "(" ∈ vocabulary := by decide
  have hclose : ")" ∈ vocabulary := by decide
  match cs with
  | [] => exact b.writes_nothing
  | c :: rest =>
      -- The first condition, in parentheses if it is a junction.
      have hfirst : b.Writes
          (if isJunction c then (condition c (b.fixed "(")).fixed ")" else condition c b)
          (if isJunction c then .fixed "(" :: (words c ++ [.fixed ")"]) else words c) := by
        by_cases hjunction : isJunction c = true
        · rw [if_pos hjunction, if_pos hjunction]
          exact (b.writes_fixed hopen).trans
            ((writes_condition c _).trans (writes_fixed _ hclose))
        · rw [if_neg hjunction, if_neg hjunction]
          exact writes_condition c b
      rw [junction, junctionWords]
      by_cases hlast : rest.isEmpty = true
      · simp only [if_pos hlast]
        exact hfirst
      · simp only [if_neg hlast]
        exact hfirst.trans ((writes_fixed _ hseparator).trans (writes_junction hseparator rest _))

end

theorem names_of_namePlaceholders (b : Builder) : b.namePlaceholders.map Prod.snd = b.names := by
  rw [namePlaceholders, List.map_map]
  exact List.zipIdx_map_fst 0 b.names

theorem values_of_valuePlaceholders (b : Builder) :
    b.valuePlaceholders.map Prod.snd = b.values := by
  rw [valuePlaceholders, List.map_map]
  exact List.zipIdx_map_fst 0 b.values

/-- The builders have the same text and the same names under their placeholders, and under
    the same placeholders operands that are identical or the same. -/
structure RendersAlike (b d : Builder) : Prop where
  text_eq : b.text = d.text
  names_eq : b.namePlaceholders = d.namePlaceholders
  values_alike : List.Forall₂ (fun v w => v.1 = w.1 ∧ v.2.Alike w.2)
    b.valuePlaceholders d.valuePlaceholders

end Builder

/-- The words cannot be told apart. -/
inductive Word.Alike : Word → Word → Prop
  | fixed (text : String) : Alike (.fixed text) (.fixed text)
  | name (attr : String) : Alike (.name attr) (.name attr)
  | value {v w : Value} : v.Alike w → Alike (.value v) (.value w)

-- A piece stands for words that are alike where the operands are.
theorem Piece.Stands.alike {names : List String} {values others : List Value}
    (hvalues : List.Forall₂ Value.Alike values others) {p : Piece} {w u : Word}
    (hw : p.Stands names values w) (hu : p.Stands names others u) : w.Alike u := by
  cases hw with
  | fixed _ => cases hu with | fixed _ => exact .fixed _
  | name hget =>
      cases hu with
      | name hother =>
          rw [hget, Option.some.injEq] at hother
          rw [hother]
          exact .name _
  | value hget =>
      cases hu with
      | value hother =>
          rcases List.getElem?_eq_some_iff.mp hget with ⟨hlt, rfl⟩
          rcases List.getElem?_eq_some_iff.mp hother with ⟨hlt', rfl⟩
          exact .value ((List.forall₂_iff_get.mp hvalues).2 _ hlt hlt')

theorem Piece.legal_of_stands {names : List String} {values : List Value} {ps : List Piece}
    {ws : List Word} (h : List.Forall₂ (Piece.Stands names values) ps ws) : ∀ p ∈ ps, p.Legal := by
  induction h with
  | nil => exact fun p hp => absurd hp List.not_mem_nil
  | cons hstands _ ih => exact List.forall_mem_cons.mpr ⟨hstands.legal, ih⟩

-- The same holds of rows of pieces.
theorem Piece.words_alike_of_stands {names : List String} {values others : List Value}
    (hvalues : List.Forall₂ Value.Alike values others) {ps : List Piece} {ws us : List Word}
    (hws : List.Forall₂ (Piece.Stands names values) ps ws)
    (hus : List.Forall₂ (Piece.Stands names others) ps us) : List.Forall₂ Word.Alike ws us := by
  induction hws generalizing us with
  | nil => cases hus; exact .nil
  | cons hw _ ih =>
      cases hus with
      | cons hu hrest => exact .cons (hw.alike hvalues hu) (ih hrest)

/-- Conditions that are rendered alike have words that are alike. -/
theorem words_alike {c d : Condition}
    (h : Builder.RendersAlike (Builder.condition c Builder.empty)
      (Builder.condition d Builder.empty)) :
    List.Forall₂ Word.Alike (words c) (words d) := by
  rcases (Builder.writes_condition c Builder.empty).pieces with ⟨written, hwritten, hwords⟩
  rcases (Builder.writes_condition d Builder.empty).pieces with ⟨other, hother, hwords'⟩
  -- A new builder has no pieces, so all of them are written.
  have hwritten : (Builder.condition c Builder.empty).pieces = written := hwritten
  have hother : (Builder.condition d Builder.empty).pieces = other := hother
  have hnames : (Builder.condition c Builder.empty).names =
      (Builder.condition d Builder.empty).names := by
    rw [← Builder.names_of_namePlaceholders, ← Builder.names_of_namePlaceholders, h.names_eq]
  have hvalues : List.Forall₂ Value.Alike (Builder.condition c Builder.empty).values
      (Builder.condition d Builder.empty).values := by
    rw [← Builder.values_of_valuePlaceholders, ← Builder.values_of_valuePlaceholders,
      List.forall₂_map_left_iff, List.forall₂_map_right_iff]
    exact h.values_alike.imp fun _ _ halike => halike.2
  have hpieces : written = other := by
    rw [← hwritten, ← hother]
    exact Builder.pieces_eq_of_text_eq (hwritten ▸ Piece.legal_of_stands hwords)
      (hother ▸ Piece.legal_of_stands hwords') h.text_eq
  rw [← hnames, ← hpieces] at hwords'
  exact Piece.words_alike_of_stands hvalues hwords hwords'

end Rendering

end WideColumn
