import WideColumn.Condition.Basic

/-!
# Expression Texts

Conditions and projections as text with placeholders.

Texts must not carry what a caller supplied, so attribute names and operands
are written as placeholders and travel beside the text. A name has one
placeholder however often it is written. An operand has a new one each time,
even if the same value was written before.

A text is kept as pieces until it is taken, so that what is fixed and what is a
placeholder can be told apart without reading it.

## Main definitions

* `Piece`: A fixed text or a placeholder.
* `Builder`: The pieces written and what the placeholders stand for.
* `Builder.condition`, `Builder.projection`: Writing.
* `Builder.takeText`: Taking the text written so far.
-/

namespace WideColumn

namespace Rendering

/-- A piece of the text that is written, where placeholders are kept by their numbers. -/
inductive Piece where
  | fixed (text : String)
  | name (number : Nat)
  | value (number : Nat)
deriving DecidableEq

/-- The placeholder of an attribute name. -/
def namePlaceholder (number : Nat) : String := "#n" ++ Nat.repr number

/-- The placeholder of an operand. -/
def valuePlaceholder (number : Nat) : String := ":v" ++ Nat.repr number

/-- The text of a piece. -/
def Piece.text : Piece → String
  | fixed text => text
  | name number => namePlaceholder number
  | value number => valuePlaceholder number

/-- What has been written. A name or an operand is at the place in its list that
    its placeholder has as number. -/
structure Builder where
  pieces : List Piece
  names : List String
  values : List Value

namespace Builder

/-- Nothing has been written. -/
def empty : Builder := ⟨[], [], []⟩

/-- Write a text as it is. -/
def fixed (b : Builder) (text : String) : Builder :=
  { b with pieces := b.pieces ++ [.fixed text] }

/-- Write an attribute name, by its placeholder if it has one. -/
def name (b : Builder) (attr : String) : Builder :=
  match b.names.idxOf? attr with
  | some number => { b with pieces := b.pieces ++ [.name number] }
  | none =>
    { b with pieces := b.pieces ++ [.name b.names.length], names := b.names ++ [attr] }

/-- Write an operand, by a new placeholder. -/
def value (b : Builder) (v : Value) : Builder :=
  { b with pieces := b.pieces ++ [.value b.values.length], values := b.values ++ [v] }

/-- Write operands with commas between them. -/
def operands : List Value → Builder → Builder
  | [], b => b
  | [v], b => b.value v
  | v :: rest, b => operands rest ((b.value v).fixed ", ")

/-- Write attribute names with commas between them. -/
def projection : List String → Builder → Builder
  | [], b => b
  | [attr], b => b.name attr
  | attr :: rest, b => projection rest ((b.name attr).fixed ", ")

/-- The condition is a conjunction or a disjunction, which stand in parentheses
    within others. -/
def isJunction : Condition → Bool
  | .and _ => true
  | .or _ => true
  | _ => false

mutual

/-- Write a condition. Junctions within others and what is negated stand in parentheses. -/
def condition : Condition → Builder → Builder
  | .comparison attr comparator v, b =>
    ((b.name attr).fixed (" " ++ comparator.symbol ++ " ")).value v
  | .between attr low high, b =>
    ((((b.name attr).fixed " BETWEEN ").value low).fixed " AND ").value high
  | .beginsWith attr start, b =>
    (((((b.fixed "begins_with(").name attr).fixed ", ").value (.string start)).fixed ")")
  | .isIn attr vs, b => (operands vs ((b.name attr).fixed " IN (")).fixed ")"
  | .contains attr v, b =>
    (((((b.fixed "contains(").name attr).fixed ", ").value v).fixed ")")
  | .attributeExists attr, b => ((b.fixed "attribute_exists(").name attr).fixed ")"
  | .attributeNotExists attr, b => ((b.fixed "attribute_not_exists(").name attr).fixed ")"
  | .and inner, b => junction " AND " inner b
  | .or inner, b => junction " OR " inner b
  | .not inner, b => (condition inner (b.fixed "NOT (")).fixed ")"
termination_by structural c => c

/-- Write conditions with a separator between them. -/
def junction (separator : String) : List Condition → Builder → Builder
  | [], b => b
  | c :: rest, b =>
    let b := if isJunction c then (condition c (b.fixed "(")).fixed ")" else condition c b
    if rest.isEmpty then b else junction separator rest (b.fixed separator)
termination_by structural cs => cs

end

/-- The text written so far. -/
def text (b : Builder) : String :=
  String.join (b.pieces.map Piece.text)

/-- Take the text written so far. The placeholders keep what they stand for. -/
def takeText (b : Builder) : String × Builder :=
  (b.text, { b with pieces := [] })

/-- The names under their placeholders. -/
def namePlaceholders (b : Builder) : List (String × String) :=
  b.names.zipIdx.map fun (attr, number) => (namePlaceholder number, attr)

/-- The operands under their placeholders. -/
def valuePlaceholders (b : Builder) : List (String × Value) :=
  b.values.zipIdx.map fun (v, number) => (valuePlaceholder number, v)

end Builder

end Rendering

end WideColumn
