import Mathlib.Data.Finset.Card
import WideColumn.Proofs.Rendering.Wordwise

/-!
# Placeholders

What placeholders stand for, and where they stand.

Texts are written and taken one after the other with one builder, and what was bound for one
of them is still bound for the next. So nothing can be said of a text alone. What holds is
about all texts of a builder in their order, up to any moment: the attributes mentioned so
far have numbers in the order in which they were first mentioned, and the operands have
numbers in the order in which they were written.

`Written` says that of a row of pieces and the words that they stand for. It does not know of
calls, and a text that is taken leaves it as it is. Texts are written word by word, so what one
word adds is all that has to be looked at.

The pieces are those of the texts and not of the builder, which forgets them. A text can be
read as pieces in one way only, so they are determined by what leaves the library.

## Main definitions

* `FirstMentions`: Attributes in the order of their first mention.
* `Written`: Pieces that stand for words, and what is bound for them.
* `Piece.Reads`: A text as a row of pieces.
* `Builder.Call`, `Draft`, `Draft.run`: Calls on a builder and the texts that were taken.
* `Builder.Binds`: What the placeholders of texts have to do with what was mentioned.

## Theorems

* `word_written`, `foldl_written`: What one word adds, and what a row of them adds.
* `Reads.unique`: A text is read in one way only.
* `Written.binds`: What is bound for pieces that stand for words.
* `call_holds`, `foldl_holds`: What one call adds, and what a row of them adds.
* `Draft.run_binds`: What is bound after any calls.
-/

namespace WideColumn

namespace Rendering

/-- The number of the attribute that the piece is a placeholder of. -/
def Piece.nameNumber? : Piece → Option Nat
  | name number => some number
  | _ => none

/-- The number of the operand that the piece is a placeholder of. -/
def Piece.valueNumber? : Piece → Option Nat
  | value number => some number
  | _ => none

/-- The attributes that were mentioned, in the order in which they were mentioned first. -/
structure FirstMentions (attrs mentioned : List String) : Prop where
  mem_iff : ∀ attr, attr ∈ attrs ↔ attr ∈ mentioned
  in_order : attrs.Pairwise fun a b => mentioned.idxOf a < mentioned.idxOf b

namespace FirstMentions

variable {attrs mentioned : List String}

theorem nodup (h : FirstMentions attrs mentioned) : attrs.Nodup := by
  refine h.in_order.imp fun {a b} hlt heq => ?_
  rw [heq] at hlt
  exact Nat.lt_irrefl _ hlt

-- There are as many as there are different attributes among the mentioned ones.
theorem length_eq (h : FirstMentions attrs mentioned) :
    attrs.length = mentioned.toFinset.card := by
  have hsame : attrs.toFinset = mentioned.toFinset := by
    ext attr
    rw [List.mem_toFinset, List.mem_toFinset, h.mem_iff]
  rw [← hsame, List.toFinset_card_of_nodup h.nodup]

-- One more mention does not change when the attributes before it were mentioned first.
theorem in_order_concat (h : FirstMentions attrs mentioned) (attr : String) :
    attrs.Pairwise fun a b => (mentioned ++ [attr]).idxOf a < (mentioned ++ [attr]).idxOf b := by
  refine List.Pairwise.imp_of_mem (fun {a b} ha hb hlt => ?_) h.in_order
  rw [List.idxOf_append_of_mem ((h.mem_iff a).mp ha),
    List.idxOf_append_of_mem ((h.mem_iff b).mp hb)]
  exact hlt

theorem again (h : FirstMentions attrs mentioned) {attr : String} (hmem : attr ∈ attrs) :
    FirstMentions attrs (mentioned ++ [attr]) := by
  refine ⟨fun other => ?_, h.in_order_concat attr⟩
  rw [List.mem_append, List.mem_singleton, ← h.mem_iff]
  constructor
  · exact Or.inl
  · rintro (hother | rfl)
    · exact hother
    · exact hmem

theorem first (h : FirstMentions attrs mentioned) {attr : String} (hnew : attr ∉ attrs) :
    FirstMentions (attrs ++ [attr]) (mentioned ++ [attr]) := by
  refine ⟨fun other => ?_, ?_⟩
  · rw [List.mem_append, List.mem_append, h.mem_iff]
  · rw [List.pairwise_append]
    refine ⟨h.in_order_concat attr, List.pairwise_singleton _ _, fun a ha b hb => ?_⟩
    have hold : a ∈ mentioned := (h.mem_iff a).mp ha
    have hfresh : attr ∉ mentioned := fun hmem => hnew ((h.mem_iff attr).mpr hmem)
    rw [List.mem_singleton.mp hb, List.idxOf_append_of_mem hold,
      List.idxOf_append_of_notMem hfresh]
    exact Nat.lt_add_right _ (List.idxOf_lt_length_of_mem hold)

end FirstMentions

/-- The pieces stand for the words. The names are those of the words in the order of their
    first mention, the values are all that are among the words, and the placeholders of values
    have their numbers in order. -/
structure Written (pieces : List Piece) (names : List String) (values : List Value)
    (ws : List Word) : Prop where
  stands : List.Forall₂ (Piece.Stands names values) pieces ws
  first : FirstMentions names (ws.filterMap Word.attr?)
  values_eq : values = ws.filterMap Word.value?
  numbers : pieces.filterMap Piece.valueNumber? = List.range values.length

theorem Written.nothing : Written [] [] [] [] where
  stands := .nil
  first := ⟨fun _ => Iff.rfl, List.Pairwise.nil⟩
  values_eq := rfl
  numbers := rfl

namespace Builder

/-- A name that is written for the first time comes behind those that were written before. -/
theorem name_first {b : Builder} {mentioned : List String} (h : FirstMentions b.names mentioned)
    (attr : String) : FirstMentions (b.name attr).names (mentioned ++ [attr]) := by
  unfold name
  cases hnumber : b.names.idxOf? attr with
  | some number =>
      rcases List.idxOf?_eq_some_iff.mp hnumber with ⟨hlt, hattr, _⟩
      exact h.again (hattr ▸ List.getElem_mem hlt)
  | none => exact h.first (List.idxOf?_eq_none_iff.mp hnumber)

/-- What one word adds: a piece that stands for it, and a binding unless it is a fixed text or
    a name that is bound already. -/
theorem word_written {taken : List Piece} {b : Builder} {ws : List Word} {w : Word}
    (hw : w.Legal) (h : Written (taken ++ b.pieces) b.names b.values ws) :
    Written (taken ++ (b.word w).pieces) (b.word w).names (b.word w).values (ws ++ [w]) := by
  -- The new piece stands for the word, and the others still stand for theirs.
  have hstands : List.Forall₂ (Piece.Stands (b.word w).names (b.word w).values)
      (taken ++ (b.word w).pieces) (ws ++ [w]) := by
    have hwrites := b.writes_word hw
    rcases hwrites.pieces with ⟨written, hpieces, hword⟩
    have hbefore := h.stands.imp fun _ _ hold => hold.mono hwrites.names_kept hwrites.values_kept
    rw [hpieces, ← List.append_assoc]
    exact List.rel_append hbefore hword
  refine ⟨hstands, ?_, ?_, ?_⟩
  · rw [List.filterMap_append]
    cases w with
    | name attr => exact name_first h.first attr
    | _ => exact (List.append_nil (ws.filterMap Word.attr?)).symm ▸ h.first
  · rw [b.word_values, List.filterMap_append, ← h.values_eq]
  · have hnumbers := h.numbers
    rw [List.filterMap_append] at hnumbers ⊢
    cases w with
    | fixed text =>
        rw [word, fixed, List.filterMap_append, ← List.append_assoc, hnumbers]
        exact List.append_nil _
    | name attr =>
        rcases b.name_pieces attr with ⟨number, hpieces, hvalues⟩
        rw [word, hpieces, hvalues, List.filterMap_append, ← List.append_assoc, hnumbers]
        exact List.append_nil _
    | value v =>
        rw [word, value, List.filterMap_append, ← List.append_assoc, hnumbers,
          List.length_append, List.length_singleton, List.range_succ]
        rfl

/-- What a row of words adds. -/
theorem foldl_written {taken : List Piece} {b : Builder} {before : List Word} {ws : List Word}
    (hws : ∀ w ∈ ws, w.Legal) (h : Written (taken ++ b.pieces) b.names b.values before) :
    Written (taken ++ (ws.foldl word b).pieces) (ws.foldl word b).names (ws.foldl word b).values
      (before ++ ws) := by
  induction ws generalizing b before with
  | nil => exact (List.append_nil before).symm ▸ h
  | cons w ws ih =>
      rw [List.forall_mem_cons] at hws
      rw [List.append_cons]
      exact ih hws.2 (word_written hws.1 h)

end Builder

/-- The text is the pieces in a row. -/
structure Piece.Reads (text : String) (ps : List Piece) : Prop where
  legal : ∀ p ∈ ps, p.Legal
  text_eq : String.join (ps.map Piece.text) = text

/-- A text is read in one way only. -/
theorem Piece.Reads.unique {text : String} {ps qs : List Piece} (h : Piece.Reads text ps)
    (h' : Piece.Reads text qs) : ps = qs := by
  have hchars := congrArg String.toList (h.text_eq.trans h'.text_eq.symm)
  rw [String.toList_join, String.toList_join, List.flatMap_map, List.flatMap_map] at hchars
  exact Piece.flatMap_inj h.legal h'.legal hchars

-- So are texts.
theorem Piece.Reads.unique_rows {texts : List String} {rows others : List (List Piece)}
    (h : List.Forall₂ Piece.Reads texts rows) (h' : List.Forall₂ Piece.Reads texts others) :
    others = rows := by
  induction h generalizing others with
  | nil => cases h'; rfl
  | cons hhead _ ih =>
      cases h' with
      | cons hhead' htail' => rw [hhead'.unique hhead, ih htail']

namespace Builder

/-- What a builder can be called for. -/
inductive Call where
  | condition (c : Condition)
  | projection (attrs : List String)
  | takeText

namespace Call

/-- The words that a call writes. -/
def words : Call → List Word
  | condition c => Rendering.words c
  | projection attrs => nameWords attrs
  | takeText => []

/-- The attributes that a call mentions. -/
def attributes : Call → List String
  | condition c => c.attributes
  | projection attrs => attrs
  | takeText => []

/-- The operands that a call mentions. -/
def operands : Call → List Operand
  | condition c => c.operands
  | _ => []

theorem words_mention (call : Call) : call.words.filterMap Word.attr? = call.attributes ∧
    call.words.filterMap Word.value? = call.operands.map Operand.bound := by
  cases call with
  | condition c => exact Rendering.words_mention c
  | projection attrs => exact nameWords_mention attrs
  | takeText => exact ⟨rfl, rfl⟩

-- Calls mention one after the other what they mention.
theorem flatMap_words_mention (calls : List Call) :
    (calls.flatMap words).filterMap Word.attr? = calls.flatMap attributes ∧
      (calls.flatMap words).filterMap Word.value? =
        (calls.flatMap operands).map Operand.bound := by
  induction calls with
  | nil => exact ⟨rfl, rfl⟩
  | cons call rest ih =>
      have hcall := call.words_mention
      simp only [List.flatMap_cons, List.filterMap_append, List.map_append]
      rw [hcall.1, hcall.2, ih.1, ih.2]
      exact ⟨rfl, rfl⟩

end Call

/-- What the placeholders have to do with attributes and operands that were mentioned one
    after the other, if the texts are the pieces.

    A new attribute has the next number. Where an attribute was mentioned, its placeholder
    stands, and there is none without a place. Operands have a number each, in order, also where
    they are the same. -/
structure Binds (b : Builder) (pieces : List Piece) (attrs : List String)
    (operands : List Operand) : Prop where
  name_keys : b.namePlaceholders.map Prod.fst =
    (List.range attrs.toFinset.card).map namePlaceholder
  name_keys_nodup : (b.namePlaceholders.map Prod.fst).Nodup
  name_contents : FirstMentions (b.namePlaceholders.map Prod.snd) attrs
  name_places : List.Forall₂ (fun number attr => (namePlaceholder number, attr) ∈
    b.namePlaceholders) (pieces.filterMap Piece.nameNumber?) attrs
  name_occurs : ∀ number, .name number ∈ pieces ↔ number < attrs.toFinset.card
  value_keys : b.valuePlaceholders.map Prod.fst =
    (List.range operands.length).map valuePlaceholder
  value_keys_nodup : (b.valuePlaceholders.map Prod.fst).Nodup
  value_contents : b.valuePlaceholders.map Prod.snd = operands.map Operand.bound
  value_places : pieces.filterMap Piece.valueNumber? = List.range operands.length

end Builder

-- Pieces that differ are written differently.
theorem Piece.text_inj {p q : Piece} (hp : p.Legal) (hq : q.Legal) (h : p.text = q.text) :
    p = q := by
  have hchars : p.text.toList ++ [] = q.text.toList ++ [] := by rw [h]
  exact (Piece.append_inj hp hq rfl rfl hchars).1

theorem namePlaceholder_injective : Function.Injective namePlaceholder := fun m n h =>
  Piece.name.inj (Piece.text_inj (p := .name m) (q := .name n) trivial trivial h)

theorem valuePlaceholder_injective : Function.Injective valuePlaceholder := fun m n h =>
  Piece.value.inj (Piece.text_inj (p := .value m) (q := .value n) trivial trivial h)

namespace Builder

section

-- What is bound, under keys that are made of its places.
variable {α : Type} (key : Nat → String)

theorem keys_of_zipIdx (l : List α) :
    (l.zipIdx.map fun (a, number) => (key number, a)).map Prod.fst =
      (List.range l.length).map key := by
  have hnumbers := List.zipIdx_map_snd 0 l
  rw [← List.range_eq_range'] at hnumbers
  rw [← hnumbers, List.map_map, List.map_map]
  rfl

-- What is bound is still bound where more is.
theorem zipIdx_kept {l m : List α} (h : l <+: m) :
    (l.zipIdx.map fun (a, number) => (key number, a)) <+:
      m.zipIdx.map fun (a, number) => (key number, a) := by
  rcases h with ⟨rest, rfl⟩
  rw [List.zipIdx_append, List.map_append]
  exact List.prefix_append _ _

end

theorem mem_namePlaceholders {b : Builder} {number : Nat} {attr : String}
    (h : b.names[number]? = some attr) :
    (namePlaceholder number, attr) ∈ b.namePlaceholders :=
  List.mem_map.mpr ⟨(attr, number), List.mem_zipIdx_iff_getElem?.mpr h, rfl⟩

end Builder

-- The placeholders of names have the names of the words, in their order.
theorem names_of_stands {names : List String} {values : List Value} {pieces : List Piece}
    {ws : List Word} (h : List.Forall₂ (Piece.Stands names values) pieces ws) :
    List.Forall₂ (fun number attr => names[number]? = some attr)
      (pieces.filterMap Piece.nameNumber?) (ws.filterMap Word.attr?) := by
  induction h with
  | nil => exact .nil
  | cons hhead _ ih =>
      cases hhead with
      | name hget => exact .cons hget ih
      | _ => exact ih

theorem name_mem_iff {pieces : List Piece} {number : Nat} :
    .name number ∈ pieces ↔ number ∈ pieces.filterMap Piece.nameNumber? := by
  rw [List.mem_filterMap]
  constructor
  · exact fun hmem => ⟨_, hmem, rfl⟩
  · rintro ⟨p, hmem, hp⟩
    cases p with
    | name other => exact Option.some.inj hp ▸ hmem
    | fixed text => exact nomatch hp
    | value other => exact nomatch hp

namespace Written

variable {pieces : List Piece} {names : List String} {values : List Value} {ws : List Word}

-- A name is bound where it is mentioned for the first time, so it has a placeholder somewhere.
theorem name_mem_iff_lt (h : Written pieces names values ws) (number : Nat) :
    .name number ∈ pieces ↔ number < names.length := by
  have hplaces : (pieces.filterMap Piece.nameNumber?).map (names[·]?) =
      (ws.filterMap Word.attr?).map some := by
    refine (congrFun (congrFun List.forall₂_eq_eq_eq _) _).mp ?_
    rw [List.forall₂_map_left_iff, List.forall₂_map_right_iff]
    exact names_of_stands h.stands
  rw [name_mem_iff]
  constructor
  · intro hmem
    have hbound : names[number]? ∈ (ws.filterMap Word.attr?).map some :=
      hplaces ▸ List.mem_map_of_mem hmem
    rcases List.mem_map.mp hbound with ⟨attr, _, hattr⟩
    exact (List.getElem?_eq_some_iff.mp hattr.symm).1
  · intro hlt
    have hmention : names[number] ∈ ws.filterMap Word.attr? :=
      (h.first.mem_iff _).mp (List.getElem_mem hlt)
    have hbound : some names[number] ∈ (pieces.filterMap Piece.nameNumber?).map (names[·]?) :=
      hplaces ▸ List.mem_map_of_mem hmention
    rcases List.mem_map.mp hbound with ⟨other, hmem, hother⟩
    -- A name has one number only.
    have hsame : number = other := (List.getElem?_inj hlt h.first.nodup).mp
      ((List.getElem?_eq_getElem hlt).trans hother.symm)
    exact hsame ▸ hmem

/-- What is bound for pieces that stand for words. -/
theorem binds {b : Builder} (h : Written pieces b.names b.values ws) {attrs : List String}
    {operands : List Operand} (hattrs : ws.filterMap Word.attr? = attrs)
    (hoperands : ws.filterMap Word.value? = operands.map Operand.bound) :
    b.Binds pieces attrs operands := by
  have hfirst : FirstMentions b.names attrs := hattrs ▸ h.first
  have hvalues : b.values = operands.map Operand.bound := h.values_eq.trans hoperands
  have hcount : b.values.length = operands.length := by rw [hvalues, List.length_map]
  have hplaces := names_of_stands h.stands
  rw [hattrs] at hplaces
  have hnames := Builder.keys_of_zipIdx namePlaceholder b.names
  have hkeys := Builder.keys_of_zipIdx valuePlaceholder b.values
  refine
    { name_keys := hfirst.length_eq ▸ hnames
      name_keys_nodup := ?_
      name_contents := b.names_of_namePlaceholders.symm ▸ hfirst
      name_places := hplaces.imp fun _ _ => Builder.mem_namePlaceholders
      name_occurs := fun number => hfirst.length_eq ▸ h.name_mem_iff_lt number
      value_keys := hcount ▸ hkeys
      value_keys_nodup := ?_
      value_contents := b.values_of_valuePlaceholders.trans hvalues
      value_places := hcount ▸ h.numbers }
  · exact hnames ▸ List.nodup_range.map namePlaceholder_injective
  · exact hkeys ▸ List.nodup_range.map valuePlaceholder_injective

end Written

namespace Builder

/-- A builder, and the texts that were taken from it. -/
structure Draft where
  taken : List String
  builder : Builder

namespace Draft

/-- One call. -/
def call (d : Draft) : Call → Draft
  | .condition c => { d with builder := condition c d.builder }
  | .projection attrs => { d with builder := projection attrs d.builder }
  | .takeText => ⟨d.taken ++ [d.builder.takeText.1], d.builder.takeText.2⟩

/-- Make the calls one after the other, on a new builder. -/
def run (calls : List Call) : Draft := calls.foldl call ⟨[], empty⟩

/-- The texts in the order in which they were written, the last of which is not taken yet. -/
def texts (d : Draft) : List String := d.taken ++ [d.builder.text]

/-- The texts that were taken can be read as pieces, which stand for the words together with
    those that were not taken. -/
structure Holds (d : Draft) (rows : List (List Piece)) (ws : List Word) : Prop where
  reads : List.Forall₂ Piece.Reads d.taken rows
  written : Written (rows.flatten ++ d.builder.pieces) d.builder.names d.builder.values ws

/-- What a call adds. -/
theorem call_holds {d : Draft} {rows : List (List Piece)} {ws : List Word} (h : d.Holds rows ws)
    (call : Call) : ∃ rows, (d.call call).Holds rows (ws ++ call.words) := by
  cases call with
  | condition c =>
      refine ⟨rows, h.reads, ?_⟩
      rw [Draft.call, condition_eq_foldl]
      exact foldl_written (words_legal c) h.written
  | projection attrs =>
      refine ⟨rows, h.reads, ?_⟩
      rw [Draft.call, projection_eq_foldl]
      exact foldl_written (nameWords_legal attrs) h.written
  | takeText =>
      -- The pieces go from the builder to the rows, and nothing else is different.
      have hlegal : ∀ p ∈ d.builder.pieces, p.Legal := fun p hp =>
        Piece.legal_of_stands h.written.stands p (List.mem_append_right _ hp)
      refine ⟨rows ++ [d.builder.pieces], ?_, ?_⟩
      · exact List.rel_append h.reads (.cons ⟨hlegal, rfl⟩ .nil)
      · rw [List.flatten_append, List.flatten_singleton, Call.words, List.append_nil]
        exact (List.append_nil _).symm ▸ h.written

-- A call changes no binding.
theorem call_kept (d : Draft) (call : Call) : d.builder.names <+: (d.call call).builder.names ∧
    d.builder.values <+: (d.call call).builder.values := by
  cases call with
  | condition c =>
      have hwrites := writes_condition c d.builder
      exact ⟨hwrites.names_kept, hwrites.values_kept⟩
  | projection attrs =>
      have hwrites := d.builder.writes_foldl (nameWords_legal attrs)
      rw [← projection_eq_foldl] at hwrites
      exact ⟨hwrites.names_kept, hwrites.values_kept⟩
  | takeText => exact ⟨List.prefix_rfl, List.prefix_rfl⟩

/-- What calls add. -/
theorem foldl_holds {d : Draft} {rows : List (List Piece)} {ws : List Word} (h : d.Holds rows ws)
    (calls : List Call) :
    ∃ rows, (calls.foldl call d).Holds rows (ws ++ calls.flatMap Call.words) := by
  induction calls generalizing d rows ws with
  | nil => exact ⟨rows, (List.append_nil ws).symm ▸ h⟩
  | cons c rest ih =>
      rcases call_holds h c with ⟨_, hnext⟩
      rw [List.flatMap_cons, ← List.append_assoc]
      exact ih hnext

theorem foldl_kept (d : Draft) (calls : List Call) :
    d.builder.names <+: (calls.foldl call d).builder.names ∧
      d.builder.values <+: (calls.foldl call d).builder.values := by
  induction calls generalizing d with
  | nil => exact ⟨List.prefix_rfl, List.prefix_rfl⟩
  | cons c rest ih =>
      have hhead := d.call_kept c
      have hrest := ih (d.call c)
      exact ⟨hhead.1.trans hrest.1, hhead.2.trans hrest.2⟩

/-- What is bound after any calls. The texts can be read in exactly one way. With the pieces
    that are read, the placeholders are bound to what the calls mentioned, as `Binds` says. More
    calls change nothing that is bound. -/
theorem run_binds (calls : List Call) :
    ∃ rows, List.Forall₂ Piece.Reads (run calls).texts rows ∧
      (∀ others, List.Forall₂ Piece.Reads (run calls).texts others → others = rows) ∧
      (run calls).builder.Binds rows.flatten (calls.flatMap Call.attributes)
        (calls.flatMap Call.operands) ∧
      ∀ more, (run calls).builder.namePlaceholders <+:
          (run (calls ++ more)).builder.namePlaceholders ∧
        (run calls).builder.valuePlaceholders <+:
          (run (calls ++ more)).builder.valuePlaceholders := by
  have hempty : Holds ⟨[], empty⟩ [] [] := ⟨.nil, Written.nothing⟩
  rcases foldl_holds hempty calls with ⟨rows, hholds⟩
  -- What is left in the builder is one more text.
  rcases call_holds hholds .takeText with ⟨rows, hall⟩
  have hreads : List.Forall₂ Piece.Reads (run calls).texts rows := hall.reads
  have hmention := Call.flatMap_words_mention calls
  refine ⟨rows, hreads, fun others hothers => Piece.Reads.unique_rows hreads hothers, ?_, ?_⟩
  · have hwritten : Written (rows.flatten ++ []) (run calls).builder.names
        (run calls).builder.values (([] ++ calls.flatMap Call.words) ++ []) := hall.written
    rw [List.append_nil, List.append_nil, List.nil_append] at hwritten
    exact hwritten.binds hmention.1 hmention.2
  · intro more
    have hkept := foldl_kept (run calls) more
    have hmore : run (calls ++ more) = more.foldl call (run calls) := List.foldl_append
    rw [hmore]
    exact ⟨zipIdx_kept namePlaceholder hkept.1, zipIdx_kept valuePlaceholder hkept.2⟩

-- A name that comes again has the placeholder that it had, and an operand has a new one.
example : (run [.condition (.comparison "year" .less (.integer 7)), .takeText,
    .condition (.comparison "year" .greater (.integer 7)), .takeText,
    .projection ["title", "year"]]).texts = ["#n0 < :v0", "#n0 > :v1", "#n1, #n0"] := rfl

end Draft

end Builder

end Rendering

end WideColumn
