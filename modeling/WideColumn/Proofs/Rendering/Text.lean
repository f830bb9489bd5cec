import WideColumn.Rendering.Builder

/-!
# Pieces of a Text

The text of a condition shows where its pieces end.

A text is the pieces in a row with nothing between them, and it is the text that leaves the
library. Still no piece can be mistaken for two or two for one. The fixed texts are a prefix
code: none of them begins another, so the first one of a text is the only one it can begin
with. A placeholder begins like none of them. It has no end of its own, and `#n1` begins `#n10`,
but whatever stands behind it does not begin with a digit.

## Main definitions

* `vocabulary`: The fixed texts that conditions are written with.
* `Piece.Legal`: A placeholder, or a fixed text of the vocabulary.

## Theorems

* `vocabulary_prefixFree`: The fixed texts are a prefix code.
* `toDigits_append_inj`: A number ends where its digits do.
* `Piece.append_inj`, `Piece.flatMap_inj`: A text has one first piece, and one row of them.
* `pieces_eq_of_text_eq`: Texts that are the same have the same pieces.
-/

namespace WideColumn

namespace Rendering

/-- The fixed texts that conditions are written with. -/
def vocabulary : List String :=
  (Comparator.all.map fun comparator => " " ++ comparator.symbol ++ " ") ++
    [" BETWEEN ", " AND ", " OR ", "begins_with(", ", ", ")", " IN (", "contains(",
      "attribute_exists(", "attribute_not_exists(", "NOT (", "("]

/-- The piece is a placeholder, or a fixed text of the vocabulary. -/
def Piece.Legal : Piece → Prop
  | fixed text => text ∈ vocabulary
  | _ => True

/-- The fixed texts are a prefix code. -/
theorem vocabulary_prefixFree : ∀ t ∈ vocabulary, ∀ u ∈ vocabulary,
    t.toList <+: u.toList → t = u := by
  decide +kernel

-- They begin with neither a digit nor the sign of a placeholder.
theorem vocabulary_head : ∀ t ∈ vocabulary,
    t.toList.head?.any (fun c => !c.isDigit && c != '#' && c != ':') = true := by
  decide +kernel

theorem toList_name (number : Nat) :
    (Piece.name number).text.toList = '#' :: 'n' :: Nat.toDigits 10 number := by
  rw [Piece.text, namePlaceholder, String.toList_append, Nat.toList_repr]
  rfl

theorem toList_value (number : Nat) :
    (Piece.value number).text.toList = ':' :: 'v' :: Nat.toDigits 10 number := by
  rw [Piece.text, valuePlaceholder, String.toList_append, Nat.toList_repr]
  rfl

/-- A number ends where its digits do. -/
theorem toDigits_append_inj {m n : Nat} {xs ys : List Char}
    (hxs : xs.takeWhile Char.isDigit = []) (hys : ys.takeWhile Char.isDigit = [])
    (h : Nat.toDigits 10 m ++ xs = Nat.toDigits 10 n ++ ys) : m = n ∧ xs = ys := by
  have hdigits : ∀ k, ∀ c ∈ Nat.toDigits 10 k, c.isDigit = true := fun k c hc =>
    Nat.isDigit_of_mem_toDigits (by decide) (by decide) hc
  have hnumeral := congrArg (List.takeWhile Char.isDigit) h
  rw [List.takeWhile_append_of_pos (hdigits m), List.takeWhile_append_of_pos (hdigits n), hxs, hys,
    List.append_nil, List.append_nil] at hnumeral
  have hnumber := congrArg (Nat.ofDigitChars 10 · 0) hnumeral
  simp only [Nat.ofDigitChars_ten_toDigits] at hnumber
  rw [hnumeral] at h
  exact ⟨hnumber, List.append_cancel_left h⟩

namespace Piece

-- A piece is not empty and does not begin with a digit.
theorem Legal.toList_eq_cons {p : Piece} (h : p.Legal) :
    ∃ c rest, p.text.toList = c :: rest ∧ c.isDigit = false := by
  cases p with
  | fixed t =>
      have hhead := vocabulary_head t h
      rw [text]
      cases hlist : t.toList with
      | nil => rw [hlist] at hhead; exact absurd hhead Bool.false_ne_true
      | cons c rest =>
          rw [hlist, List.head?_cons, Option.any_some, Bool.and_eq_true, Bool.and_eq_true] at hhead
          have hdigit := hhead.1.1
          rw [Bool.not_eq_true'] at hdigit
          exact ⟨c, rest, rfl, hdigit⟩
  | name number => exact ⟨_, _, toList_name number, by decide⟩
  | value number => exact ⟨_, _, toList_value number, by decide⟩

-- Fixed texts and placeholders differ in how they begin.
theorem fixed_append_ne {t : String} (ht : t ∈ vocabulary) {c : Char} (hc : c = '#' ∨ c = ':')
    (xs ys : List Char) : t.toList ++ xs ≠ c :: ys := by
  intro heq
  have hhead := vocabulary_head t ht
  cases hlist : t.toList with
  | nil => rw [hlist] at hhead; exact absurd hhead Bool.false_ne_true
  | cons d rest =>
      rw [hlist, List.cons_append, List.cons.injEq] at heq
      rw [hlist, List.head?_cons, Option.any_some, heq.1] at hhead
      rcases hc with rfl | rfl
      · exact absurd hhead (by decide)
      · exact absurd hhead (by decide)

/-- A text has one first piece, if what stands behind it does not begin with a digit. -/
theorem append_inj {p q : Piece} (hp : p.Legal) (hq : q.Legal) {xs ys : List Char}
    (hxs : xs.takeWhile Char.isDigit = []) (hys : ys.takeWhile Char.isDigit = [])
    (h : p.text.toList ++ xs = q.text.toList ++ ys) : p = q ∧ xs = ys := by
  cases p with
  | fixed t =>
      cases q with
      | fixed u =>
          have hsame : t = u := by
            rcases List.prefix_or_prefix_of_prefix (List.prefix_append t.toList xs)
                (h ▸ List.prefix_append u.toList ys) with htu | hut
            · exact vocabulary_prefixFree t hp u hq htu
            · exact (vocabulary_prefixFree u hq t hp hut).symm
          rw [hsame] at h ⊢
          exact ⟨rfl, List.append_cancel_left h⟩
      | name n => rw [toList_name] at h; exact absurd h (fixed_append_ne hp (Or.inl rfl) _ _)
      | value n => rw [toList_value] at h; exact absurd h (fixed_append_ne hp (Or.inr rfl) _ _)
  | name m =>
      rw [toList_name] at h
      cases q with
      | fixed u => exact absurd h.symm (fixed_append_ne hq (Or.inl rfl) _ _)
      | name n =>
          rw [toList_name] at h
          have hbehind := (List.cons.inj (List.cons.inj h).2).2
          rcases toDigits_append_inj hxs hys hbehind with ⟨rfl, hrest⟩
          exact ⟨rfl, hrest⟩
      | value n =>
          rw [toList_value] at h
          exact absurd (List.cons.inj h).1 (by decide)
  | value m =>
      rw [toList_value] at h
      cases q with
      | fixed u => exact absurd h.symm (fixed_append_ne hq (Or.inr rfl) _ _)
      | name n =>
          rw [toList_name] at h
          exact absurd (List.cons.inj h).1 (by decide)
      | value n =>
          rw [toList_value] at h
          have hbehind := (List.cons.inj (List.cons.inj h).2).2
          rcases toDigits_append_inj hxs hys hbehind with ⟨rfl, hrest⟩
          exact ⟨rfl, hrest⟩

-- Neither does a row of pieces begin with a digit.
theorem takeWhile_flatMap {ps : List Piece} (h : ∀ p ∈ ps, p.Legal) :
    (ps.flatMap (·.text.toList)).takeWhile Char.isDigit = [] := by
  cases ps with
  | nil => rfl
  | cons p rest =>
      rcases (h p List.mem_cons_self).toList_eq_cons with ⟨c, cs, hlist, hdigit⟩
      rw [List.flatMap_cons, hlist, List.cons_append, List.takeWhile_cons, hdigit]
      rfl

/-- Pieces in a row are read off their characters. -/
theorem flatMap_inj {ps qs : List Piece} (hps : ∀ p ∈ ps, p.Legal) (hqs : ∀ q ∈ qs, q.Legal)
    (h : ps.flatMap (·.text.toList) = qs.flatMap (·.text.toList)) : ps = qs := by
  induction ps generalizing qs with
  | nil =>
      cases qs with
      | nil => rfl
      | cons q rest =>
          rcases (hqs q List.mem_cons_self).toList_eq_cons with ⟨c, cs, hlist, _⟩
          rw [List.flatMap_cons, hlist] at h
          exact absurd h (by simp)
  | cons p ps ih =>
      cases qs with
      | nil =>
          rcases (hps p List.mem_cons_self).toList_eq_cons with ⟨c, cs, hlist, _⟩
          rw [List.flatMap_cons, hlist] at h
          exact absurd h (by simp)
      | cons q qs =>
          rw [List.forall_mem_cons] at hps hqs
          rw [List.flatMap_cons, List.flatMap_cons] at h
          rcases append_inj hps.1 hqs.1 (takeWhile_flatMap hps.2) (takeWhile_flatMap hqs.2) h with
            ⟨rfl, hrest⟩
          rw [ih hps.2 hqs.2 hrest]

end Piece

/-- Texts that are the same have the same pieces. -/
theorem Builder.pieces_eq_of_text_eq {b d : Builder} (hb : ∀ p ∈ b.pieces, p.Legal)
    (hd : ∀ p ∈ d.pieces, p.Legal) (h : b.text = d.text) : b.pieces = d.pieces := by
  have hlist := congrArg String.toList h
  rw [text, text, String.toList_join, String.toList_join, List.flatMap_map, List.flatMap_map]
    at hlist
  exact Piece.flatMap_inj hb hd hlist

end Rendering

end WideColumn
