import WideColumn.Proofs.Condition.Mentions
import WideColumn.Proofs.Rendering.Words

/-!
# Word by Word

Texts are written word by word.

A builder is called for conditions and projections, which can be long and deep, but all that it
ever does is to write one word behind the other. Which words these are does not depend on the
builder. So what holds of a builder and is kept by writing one word is kept by writing any
condition, and no proof of that kind has to know how conditions are put together. Only what the
words of a condition mention has to be found from its shape, once.

## Main definitions

* `Builder.word`: Writing a word.
* `nameWords`: The words of a projection.
* `Word.attr?`, `Word.value?`: What a word mentions.
* `Word.Legal`: A word that texts are written with.

## Theorems

* `condition_eq_foldl`, `projection_eq_foldl`: Texts are written word by word.
* `words_mention`: The words of a condition mention what the condition does.
* `words_legal`: Conditions are written with words of the vocabulary.
* `word_values`, `foldl_values`: The operands that words add.
* `writes_foldl`: Writing words writes just these.
-/

namespace WideColumn

namespace Rendering

/-- Attribute names with commas between them. -/
def nameWords : List String → List Word
  | [] => []
  | [attr] => [.name attr]
  | attr :: rest => .name attr :: .fixed ", " :: nameWords rest

/-- The attribute that the word is the name of. -/
def Word.attr? : Word → Option String
  | name attr => some attr
  | _ => none

/-- The operand that the word is. -/
def Word.value? : Word → Option Value
  | value v => some v
  | _ => none

/-- A word that texts are written with. -/
def Word.Legal : Word → Prop
  | fixed text => text ∈ vocabulary
  | _ => True

namespace Builder

/-- Write a word. -/
def word (b : Builder) : Word → Builder
  | .fixed text => b.fixed text
  | .name attr => b.name attr
  | .value v => b.value v

theorem operands_eq_foldl (vs : List Value) (b : Builder) :
    operands vs b = (operandWords vs).foldl word b := by
  match vs with
  | [] => rfl
  | [_] => rfl
  | v :: w :: rest => exact operands_eq_foldl (w :: rest) ((b.value v).fixed ", ")

/-- A projection is written word by word. -/
theorem projection_eq_foldl (attrs : List String) (b : Builder) :
    projection attrs b = (nameWords attrs).foldl word b := by
  match attrs with
  | [] => rfl
  | [_] => rfl
  | attr :: next :: rest => exact projection_eq_foldl (next :: rest) ((b.name attr).fixed ", ")

mutual

/-- A condition is written word by word. -/
theorem condition_eq_foldl (c : Condition) (b : Builder) :
    condition c b = (words c).foldl word b := by
  cases c with
  | isIn attr vs =>
      rw [condition, operands_eq_foldl, words, List.foldl_cons, List.foldl_cons,
        List.foldl_append]
      rfl
  | and inner => exact junction_eq_foldl " AND " inner b
  | or inner => exact junction_eq_foldl " OR " inner b
  | not inner =>
      rw [condition, condition_eq_foldl inner, words, List.foldl_cons, List.foldl_append]
      rfl
  | _ => rfl

theorem junction_eq_foldl (separator : String) (cs : List Condition) (b : Builder) :
    junction separator cs b = (junctionWords separator cs).foldl word b := by
  match cs with
  | [] => rfl
  | c :: rest =>
      -- The first condition, in parentheses if it is a junction.
      have hfirst : (if isJunction c then (condition c (b.fixed "(")).fixed ")"
            else condition c b) =
          (if isJunction c then .fixed "(" :: (words c ++ [.fixed ")"]) else words c).foldl
            word b := by
        by_cases hjunction : isJunction c = true
        · rw [if_pos hjunction, if_pos hjunction, condition_eq_foldl c, List.foldl_cons,
            List.foldl_append]
          rfl
        · rw [if_neg hjunction, if_neg hjunction]
          exact condition_eq_foldl c b
      rw [junction, junctionWords]
      by_cases hlast : rest.isEmpty = true
      · simp only [if_pos hlast]
        exact hfirst
      · simp only [if_neg hlast]
        rw [hfirst, junction_eq_foldl separator rest, List.foldl_append, List.foldl_cons]
        rfl

end

end Builder

theorem operandWords_mention (vs : List Value) :
    (operandWords vs).filterMap Word.attr? = [] ∧
      (operandWords vs).filterMap Word.value? = vs := by
  match vs with
  | [] => exact ⟨rfl, rfl⟩
  | [_] => exact ⟨rfl, rfl⟩
  | v :: w :: rest =>
      have hrest := operandWords_mention (w :: rest)
      exact ⟨hrest.1, congrArg (v :: ·) hrest.2⟩

theorem nameWords_mention (attrs : List String) :
    (nameWords attrs).filterMap Word.attr? = attrs ∧
      (nameWords attrs).filterMap Word.value? = [] := by
  match attrs with
  | [] => exact ⟨rfl, rfl⟩
  | [_] => exact ⟨rfl, rfl⟩
  | attr :: next :: rest =>
      have hrest := nameWords_mention (next :: rest)
      exact ⟨congrArg (attr :: ·) hrest.1, hrest.2⟩

-- Fixed texts around words mention nothing.
theorem enclosed_mention (ws : List Word) (before behind : String) :
    (Word.fixed before :: (ws ++ [.fixed behind])).filterMap Word.attr? =
        ws.filterMap Word.attr? ∧
      (Word.fixed before :: (ws ++ [.fixed behind])).filterMap Word.value? =
        ws.filterMap Word.value? := by
  have hattrs : (ws ++ [Word.fixed behind]).filterMap Word.attr? = ws.filterMap Word.attr? := by
    rw [List.filterMap_append]
    exact List.append_nil _
  have hvalues : (ws ++ [Word.fixed behind]).filterMap Word.value? =
      ws.filterMap Word.value? := by
    rw [List.filterMap_append]
    exact List.append_nil _
  exact ⟨hattrs, hvalues⟩

mutual

/-- The words of a condition mention what the condition does. -/
theorem words_mention (c : Condition) :
    (words c).filterMap Word.attr? = c.attributes ∧
      (words c).filterMap Word.value? = c.operands.map Operand.bound := by
  cases c with
  | isIn attr vs =>
      have hvalues : (vs.map Operand.value).map Operand.bound = vs := by
        rw [List.map_map]
        exact List.map_id vs
      have hmention := operandWords_mention vs
      have hopened := enclosed_mention (operandWords vs) " IN (" ")"
      rw [words, Condition.attributes, Condition.operands, hvalues]
      rw [hmention.1, hmention.2] at hopened
      exact ⟨congrArg (attr :: ·) hopened.1, hopened.2⟩
  | and inner => exact junctionWords_mention " AND " inner
  | or inner => exact junctionWords_mention " OR " inner
  | not inner =>
      have hinner := words_mention inner
      have hopened := enclosed_mention (words inner) "NOT (" ")"
      rw [hinner.1, hinner.2] at hopened
      exact hopened
  | _ => exact ⟨rfl, rfl⟩

theorem junctionWords_mention (separator : String) (cs : List Condition) :
    (junctionWords separator cs).filterMap Word.attr? = Condition.attributesOfAll cs ∧
      (junctionWords separator cs).filterMap Word.value? =
        (Condition.operandsOfAll cs).map Operand.bound := by
  match cs with
  | [] => exact ⟨rfl, rfl⟩
  | c :: rest =>
      -- Parentheses mention nothing.
      have hfirst : (termWords c).filterMap Word.attr? = c.attributes ∧
          (termWords c).filterMap Word.value? = c.operands.map Operand.bound := by
        have hc := words_mention c
        unfold termWords
        by_cases hjunction : Builder.isJunction c = true
        · rw [if_pos hjunction]
          have hopened := enclosed_mention (words c) "(" ")"
          rw [hc.1, hc.2] at hopened
          exact hopened
        · rw [if_neg hjunction]
          exact hc
      have hrest := junctionWords_mention separator rest
      rw [Condition.attributesOfAll, Condition.operandsOfAll, List.map_append]
      cases rest with
      | nil =>
          rw [junctionWords_singleton, hfirst.1, hfirst.2]
          exact ⟨(List.append_nil _).symm, (List.append_nil _).symm⟩
      | cons d rest =>
          rw [junctionWords_cons_cons, List.filterMap_append, List.filterMap_append, hfirst.1,
            hfirst.2, ← hrest.1, ← hrest.2]
          exact ⟨rfl, rfl⟩

end

theorem Piece.Stands.word_legal {names : List String} {values : List Value} {p : Piece}
    {w : Word} (h : p.Stands names values w) : w.Legal := by
  cases h with
  | fixed htext => exact htext
  | name _ => trivial
  | value _ => trivial

-- The pieces that a condition is written with stand for its words, so the words are legal.
theorem words_legal (c : Condition) : ∀ w ∈ words c, w.Legal := by
  rcases (Builder.writes_condition c Builder.empty).pieces with ⟨written, -, hstands⟩
  generalize words c = ws at hstands ⊢
  induction hstands with
  | nil => exact fun w hw => absurd hw List.not_mem_nil
  | cons hhead _ ih => exact List.forall_mem_cons.mpr ⟨hhead.word_legal, ih⟩

theorem nameWords_legal (attrs : List String) : ∀ w ∈ nameWords attrs, w.Legal := by
  match attrs with
  | [] => exact fun w hw => absurd hw List.not_mem_nil
  | [_] => exact List.forall_mem_singleton.mpr trivial
  | attr :: next :: rest =>
      have hcomma : ", " ∈ vocabulary := by decide
      exact List.forall_mem_cons.mpr ⟨trivial, List.forall_mem_cons.mpr
        ⟨hcomma, nameWords_legal (next :: rest)⟩⟩

namespace Builder

-- Writing a name is writing a placeholder of a name, and binds no operand.
theorem name_pieces (b : Builder) (attr : String) :
    ∃ number, (b.name attr).pieces = b.pieces ++ [.name number] ∧
      (b.name attr).values = b.values := by
  unfold name
  cases b.names.idxOf? attr with
  | some number => exact ⟨number, rfl, rfl⟩
  | none => exact ⟨b.names.length, rfl, rfl⟩

-- The operands of what is written come behind those that were written before.
theorem word_values (b : Builder) (w : Word) :
    (b.word w).values = b.values ++ [w].filterMap Word.value? := by
  cases w with
  | fixed text => exact (List.append_nil b.values).symm
  | name attr =>
      rcases b.name_pieces attr with ⟨_, _, hvalues⟩
      exact hvalues.trans (List.append_nil b.values).symm
  | value v => rfl

theorem foldl_values (b : Builder) (ws : List Word) :
    (ws.foldl word b).values = b.values ++ ws.filterMap Word.value? := by
  induction ws generalizing b with
  | nil => exact (List.append_nil b.values).symm
  | cons w ws ih =>
      rw [List.foldl_cons, ih, word_values, List.append_assoc, ← List.filterMap_append]
      rfl

theorem writes_word (b : Builder) {w : Word} (hw : w.Legal) : b.Writes (b.word w) [w] := by
  cases w with
  | fixed text => exact b.writes_fixed hw
  | name attr => exact b.writes_name attr
  | value v => exact b.writes_value v

theorem writes_foldl (b : Builder) {ws : List Word} (hws : ∀ w ∈ ws, w.Legal) :
    b.Writes (ws.foldl word b) ws := by
  induction ws generalizing b with
  | nil => exact b.writes_nothing
  | cons w ws ih =>
      rw [List.forall_mem_cons] at hws
      exact (b.writes_word hws.1).trans (ih (b.word w) hws.2)

end Builder

end Rendering

end WideColumn
