import WideColumn.Proofs.Condition.Conjunction
import WideColumn.Proofs.Rendering.Words

/-!
# Reading Conditions

A rendered condition can be read in one way only.

The texts of conditions are not a context free language with one rule for each condition. A
conjunction of one condition is written like the condition, so two conditions may be written
alike and be different, and the best that can be said is that they mean the same. The words
of `BETWEEN` end with an `AND` that is none of a conjunction. And where a conjunction ends
nothing says so: it goes on as long as the next word is its operator.

So there are two statements, and they carry each other. Within another condition a condition
ends by itself, since junctions stand in parentheses there. `Term` says that, whatever comes
behind. A condition on its own ends before anything that is no operator, which is `Whole`. What
is whole is a row of terms with one operator between them, so `Whole` follows from `Term` for
the parts of a junction, and `Term` for the junction from `Whole`.

A junction of no conditions is written as nothing at all, so it is left out.

## Main definitions

* `Condition.proper`: No junction in the condition is empty.
* `Condition.Equivalent`: The conditions hold of the same items.
* `Condition.parts`, `operator`: A condition as a row of terms.
* `Term`, `Whole`: What can be read in one way.

## Theorems

* `words_eq_junctionWords`: A condition is written as a row of terms.
* `Ends.not_rowsAlike`: What ends is not like what goes on with an operator.
* `parts_read`: A row of terms is read term by term.
* `whole_of_terms`: What the parts of a condition make of the condition.
* `term_of_junction`, `term_of_words`: What stands within other conditions.
* `term_and_whole`: Every condition is read in one way.
* `holds_eq_of_rendersAlike`: Conditions that are rendered alike mean the same.
-/

namespace WideColumn

namespace Condition

mutual

/-- No conjunction and no disjunction in the condition, however deep, is of no conditions. -/
def proper : Condition → Bool
  | .and inner => !inner.isEmpty && allProper inner
  | .or inner => !inner.isEmpty && allProper inner
  | .not inner => proper inner
  | _ => true
termination_by structural c => c

/-- All of the conditions are proper. -/
def allProper : List Condition → Bool
  | [] => true
  | c :: rest => proper c && allProper rest
termination_by structural cs => cs

end

/-- The conditions hold of the same items. -/
def Equivalent (c d : Condition) : Prop :=
  ∀ item, c.holds item = d.holds item

/-- The conditions that a condition is a row of: those of a junction, or itself. -/
def parts : Condition → List Condition
  | .and inner => inner
  | .or inner => inner
  | c => [c]

theorem allProper_iff {cs : List Condition} : allProper cs = true ↔ ∀ c ∈ cs, c.proper = true := by
  induction cs with
  | nil => simp only [allProper, List.not_mem_nil, false_implies, implies_true]
  | cons c rest ih => rw [allProper, Bool.and_eq_true, ih, List.forall_mem_cons]

theorem parts_proper {c : Condition} (h : c.proper = true) :
    c.parts ≠ [] ∧ ∀ p ∈ c.parts, p.proper = true := by
  have hjunction : ∀ {inner : List Condition}, (!inner.isEmpty && allProper inner) = true →
      inner ≠ [] ∧ ∀ p ∈ inner, p.proper = true := fun {inner} h => by
    rw [Bool.and_eq_true, Bool.not_eq_true', List.isEmpty_eq_false_iff] at h
    exact ⟨h.1, allProper_iff.mp h.2⟩
  cases c with
  | and inner => exact hjunction h
  | or inner => exact hjunction h
  | _ => exact ⟨List.cons_ne_nil _ _, List.forall_mem_singleton.mpr h⟩

-- Rows of equivalent conditions hold of the same items, all of them or some.
theorem holds_of_equivalent {cs ds : List Condition} (h : List.Forall₂ Equivalent cs ds)
    (item : Item) : holdsAll cs item = holdsAll ds item ∧ holdsAny cs item = holdsAny ds item := by
  induction h with
  | nil => exact ⟨rfl, rfl⟩
  | cons hhead _ ih => exact ⟨by rw [holdsAll, holdsAll, hhead item, ih.1],
      by rw [holdsAny, holdsAny, hhead item, ih.2]⟩

end Condition

namespace Rendering

open Condition (Equivalent parts holdsAll holdsAny)

/-- The operator between the parts of a condition. If there is one part only it does not
    matter. -/
def operator : Condition → String
  | .or _ => " OR "
  | _ => " AND "

/-- A condition is written as the row of its parts. -/
theorem words_eq_junctionWords (c : Condition) : words c = junctionWords (operator c) (parts c) := by
  cases c <;> rfl

-- A condition with one part means the same as the part.
theorem holds_of_parts_singleton {c p : Condition} (h : parts c = [p]) (item : Item) :
    c.holds item = p.holds item := by
  cases c with
  | and inner =>
      have hinner : inner = [p] := h
      rw [hinner, Condition.holds, holdsAll, holdsAll, Bool.and_true]
  | or inner =>
      have hinner : inner = [p] := h
      rw [hinner, Condition.holds, holdsAny, holdsAny, Bool.or_false]
  | _ => rw [List.singleton_inj.mp h]

-- What the operator makes of the parts.
theorem holds_eq_parts (c : Condition) (item : Item) :
    c.holds item =
      if operator c = " OR " then holdsAny (parts c) item else holdsAll (parts c) item := by
  have hand : " AND " ≠ " OR " := by decide
  cases c with
  | and inner => exact (if_neg hand).symm
  | or inner => exact (if_pos rfl).symm
  | _ =>
      refine Eq.trans ?_ (if_neg hand).symm
      exact (Bool.and_true _).symm

/-- Conditions with equivalent parts are equivalent, if they have one operator or one part. -/
theorem equivalent_of_parts {c d : Condition} (hparts : List.Forall₂ Equivalent (parts c) (parts d))
    (hoperator : (parts c).length = 1 ∨ operator c = operator d) : c.Equivalent d := by
  intro item
  rcases hoperator with hone | hoperator
  · rcases List.length_eq_one_iff.mp hone with ⟨p, hp⟩
    rw [hp] at hparts
    rcases List.forall₂_cons_left_iff.mp hparts with ⟨q, rest, hpq, hrest, hq⟩
    rw [List.forall₂_nil_left_iff.mp hrest] at hq
    rw [holds_of_parts_singleton hp, holds_of_parts_singleton hq]
    exact hpq item
  · rcases Condition.holds_of_equivalent hparts item with ⟨hall, hany⟩
    rw [holds_eq_parts, holds_eq_parts, hoperator, hall, hany]

@[simp] theorem alike_fixed_iff {t u : String} : (Word.fixed t).Alike (.fixed u) ↔ t = u :=
  ⟨fun h => by cases h; rfl, fun h => h ▸ .fixed t⟩

@[simp] theorem alike_name_iff {a b : String} : (Word.name a).Alike (.name b) ↔ a = b :=
  ⟨fun h => by cases h; rfl, fun h => h ▸ .name a⟩

@[simp] theorem alike_value_iff {v w : Value} : (Word.value v).Alike (.value w) ↔ v.Alike w :=
  ⟨fun h => by cases h; assumption, .value⟩

@[simp] theorem not_alike_fixed_name {t a : String} : ¬ (Word.fixed t).Alike (.name a) := nofun

@[simp] theorem not_alike_fixed_value {t : String} {v : Value} :
    ¬ (Word.fixed t).Alike (.value v) := nofun

@[simp] theorem not_alike_name_fixed {a t : String} : ¬ (Word.name a).Alike (.fixed t) := nofun

@[simp] theorem not_alike_value_fixed {v : Value} {t : String} :
    ¬ (Word.value v).Alike (.fixed t) := nofun

/-- Rows of words that are alike. -/
abbrev RowsAlike : List Word → List Word → Prop := List.Forall₂ Word.Alike

@[simp] theorem rowsAlike_cons {w u : Word} {r s : List Word} :
    RowsAlike (w :: r) (u :: s) ↔ w.Alike u ∧ RowsAlike r s := List.forall₂_cons

/-- The row does not go on with an operator. -/
def Ends (row : List Word) : Prop :=
  ∀ rest, row ≠ .fixed " AND " :: rest ∧ row ≠ .fixed " OR " :: rest

/-- Within another condition, whatever comes behind, the words of the condition are those of
    equivalent conditions only. -/
def Term (c : Condition) : Prop :=
  ∀ (d : Condition) (r s : List Word), d.proper = true →
    RowsAlike (termWords c ++ r) (termWords d ++ s) → c.Equivalent d ∧ RowsAlike r s

/-- The same on its own, if no operator comes behind. -/
def Whole (c : Condition) : Prop :=
  ∀ (d : Condition) (r s : List Word), d.proper = true → Ends r → Ends s →
    RowsAlike (words c ++ r) (words d ++ s) → c.Equivalent d ∧ RowsAlike r s

-- A row that does not go on with an operator is not like one that does.
theorem Ends.not_rowsAlike {row : List Word} (hrow : Ends row) {separator : String}
    (hseparator : separator = " AND " ∨ separator = " OR ") (rest : List Word) :
    ¬ RowsAlike row (.fixed separator :: rest) ∧ ¬ RowsAlike (.fixed separator :: rest) row := by
  have hne : ∀ behind, row ≠ .fixed separator :: behind := fun behind => by
    rcases hseparator with rfl | rfl
    · exact (hrow behind).1
    · exact (hrow behind).2
  constructor
  · intro h
    rcases List.forall₂_cons_right_iff.mp h with ⟨w, behind, hw, _, rfl⟩
    cases hw
    exact hne behind rfl
  · intro h
    rcases List.forall₂_cons_left_iff.mp h with ⟨w, behind, hw, _, rfl⟩
    cases hw
    exact hne behind rfl

/-- A row of terms is read term by term: what stands behind a term shows whether there is
    another one, and which operator is between them. -/
theorem parts_read {separator other : String} (hseparator : separator = " AND " ∨ separator = " OR ")
    (hother : other = " AND " ∨ other = " OR ") {cs : List Condition}
    (hterms : ∀ c ∈ cs, Term c) (hcs : cs ≠ []) {ds : List Condition}
    (hds : ds ≠ []) (hproper : ∀ d ∈ ds, d.proper = true) {r s : List Word} (hr : Ends r)
    (hs : Ends s)
    (h : RowsAlike (junctionWords separator cs ++ r) (junctionWords other ds ++ s)) :
    List.Forall₂ Equivalent cs ds ∧ (cs.length = 1 ∨ separator = other) ∧ RowsAlike r s := by
  induction cs generalizing ds with
  | nil => exact absurd rfl hcs
  | cons c cs ih =>
      rw [List.forall_mem_cons] at hterms
      cases ds with
      | nil => exact absurd rfl hds
      | cons d ds =>
          rw [List.forall_mem_cons] at hproper
          cases cs with
          | nil =>
              cases ds with
              | nil =>
                  rw [junctionWords_singleton, junctionWords_singleton] at h
                  rcases hterms.1 d r s hproper.1 h with ⟨hcd, hrest⟩
                  exact ⟨.cons hcd .nil, Or.inl rfl, hrest⟩
              | cons d' ds =>
                  rw [junctionWords_singleton, junctionWords_cons_cons, List.append_assoc] at h
                  exact absurd (hterms.1 d _ _ hproper.1 h).2 (hr.not_rowsAlike hother _).1
          | cons c' cs =>
              cases ds with
              | nil =>
                  rw [junctionWords_singleton, junctionWords_cons_cons, List.append_assoc] at h
                  exact absurd (hterms.1 d _ _ hproper.1 h).2 (hs.not_rowsAlike hseparator _).2
              | cons d' ds =>
                  rw [junctionWords_cons_cons, junctionWords_cons_cons, List.append_assoc,
                    List.append_assoc] at h
                  rcases hterms.1 d _ _ hproper.1 h with ⟨hcd, hrest⟩
                  rw [List.cons_append, List.cons_append, rowsAlike_cons, alike_fixed_iff]
                    at hrest
                  rcases ih hterms.2 (List.cons_ne_nil _ _) (List.cons_ne_nil _ _) hproper.2
                    hrest.2 with ⟨hparts, _, hbehind⟩
                  exact ⟨.cons hcd hparts, Or.inr hrest.1, hbehind⟩

theorem operator_cases (c : Condition) : operator c = " AND " ∨ operator c = " OR " := by
  cases c with
  | or inner => exact Or.inr rfl
  | _ => exact Or.inl rfl

/-- A condition is read in one way if its parts are. -/
theorem whole_of_terms {c : Condition} (hc : c.proper = true) (hterms : ∀ p ∈ parts c, Term p) :
    Whole c := by
  intro d r s hd hr hs h
  rw [words_eq_junctionWords, words_eq_junctionWords] at h
  rcases parts_read (operator_cases c) (operator_cases d) hterms (Condition.parts_proper hc).1
    (Condition.parts_proper hd).1 (Condition.parts_proper hd).2 hr hs h with
    ⟨hparts, hoperator, hrest⟩
  exact ⟨equivalent_of_parts hparts hoperator, hrest⟩

-- The parenthesis after a condition is no operator.
theorem ends_close (rest : List Word) : Ends (.fixed ")" :: rest) := by
  intro other
  constructor <;> simp

-- What is no junction does not begin with a parenthesis.
theorem not_rowsAlike_open {c : Condition} (hc : ¬ Builder.isJunction c = true)
    (r s : List Word) : ¬ RowsAlike (words c ++ r) (.fixed "(" :: s) ∧
      ¬ RowsAlike (.fixed "(" :: s) (words c ++ r) := by
  cases c with
  | and inner => exact absurd rfl hc
  | or inner => exact absurd rfl hc
  | _ => simp [words]

-- A condition in parentheses ends with the second one.
theorem close_read {c d : Condition} (hc : Whole c) (hd : d.proper = true) {r s : List Word}
    (h : RowsAlike (words c ++ [.fixed ")"] ++ r) (words d ++ [.fixed ")"] ++ s)) :
    c.Equivalent d ∧ RowsAlike r s := by
  rw [List.append_assoc, List.append_assoc] at h
  rcases hc d _ _ hd (ends_close r) (ends_close s) h with ⟨hcd, hrest⟩
  exact ⟨hcd, (rowsAlike_cons.mp hrest).2⟩

/-- A junction stands in parentheses within others, so it is read there as on its own. -/
theorem term_of_junction {c : Condition} (hc : Builder.isJunction c = true) (hwhole : Whole c) :
    Term c := by
  intro d r s hd h
  rw [termWords, if_pos hc] at h
  by_cases hjunction : Builder.isJunction d = true
  · rw [termWords, if_pos hjunction, List.cons_append, List.cons_append, rowsAlike_cons] at h
    exact close_read hwhole hd h.2
  · rw [termWords, if_neg hjunction] at h
    exact absurd h (not_rowsAlike_open hjunction s _).2

/-- What is no junction needs to be told apart from what is none. -/
theorem term_of_words {c : Condition} (hc : ¬ Builder.isJunction c = true)
    (hread : ∀ (d : Condition) (r s : List Word), d.proper = true →
      ¬ Builder.isJunction d = true → RowsAlike (words c ++ r) (words d ++ s) →
      c.Equivalent d ∧ RowsAlike r s) : Term c := by
  intro d r s hd h
  rw [termWords, if_neg hc] at h
  by_cases hjunction : Builder.isJunction d = true
  · rw [termWords, if_pos hjunction] at h
    exact absurd h (not_rowsAlike_open hc r _).1
  · rw [termWords, if_neg hjunction] at h
    exact hread d r s hd hjunction h

-- The six comparisons have six symbols, and none of them is another word.
theorem symbol_inj {a b : Comparator} (h : " " ++ a.symbol ++ " " = " " ++ b.symbol ++ " ") :
    a = b := by
  cases a <;> cases b <;> first | rfl | exact absurd h (by decide)

theorem symbol_ne (a : Comparator) :
    " " ++ a.symbol ++ " " ≠ " BETWEEN " ∧ " " ++ a.symbol ++ " " ≠ " IN (" := by
  cases a <;> decide

theorem term_comparison (attr : String) (comparator : Comparator) (v : Value) :
    Term (.comparison attr comparator v) := by
  refine term_of_words Bool.false_ne_true fun d r s _ hd h => ?_
  cases d with
  | comparison other comparator' w =>
      simp only [words, List.cons_append, List.nil_append, rowsAlike_cons, alike_name_iff,
        alike_fixed_iff, alike_value_iff] at h
      rcases h with ⟨rfl, hsymbol, hvw, hrest⟩
      refine ⟨fun item => ?_, hrest⟩
      rw [symbol_inj hsymbol, Condition.holds, Condition.holds]
      cases item.get? attr with
      | none => rfl
      | some actual => exact hvw.holds_eq comparator' actual
  | and inner => exact absurd rfl hd
  | or inner => exact absurd rfl hd
  | _ => simp [words, (symbol_ne comparator).1, (symbol_ne comparator).2] at h

theorem term_between (attr : String) (low high : Value) : Term (.between attr low high) := by
  refine term_of_words Bool.false_ne_true fun d r s _ hd h => ?_
  cases d with
  | between other low' high' =>
      simp only [words, List.cons_append, List.nil_append, rowsAlike_cons, alike_name_iff,
        alike_value_iff] at h
      rcases h with ⟨rfl, _, hlow, _, hhigh, hrest⟩
      refine ⟨fun item => ?_, hrest⟩
      simp only [Condition.holds, Value.atLeast, Value.atMost, hlow.compare?_eq, hhigh.compare?_eq]
  | and inner => exact absurd rfl hd
  | or inner => exact absurd rfl hd
  | comparison _ comparator _ => simp [words, (symbol_ne comparator).1.symm] at h
  | _ => simp [words] at h

theorem term_beginsWith (attr start : String) : Term (.beginsWith attr start) := by
  refine term_of_words Bool.false_ne_true fun d r s _ hd h => ?_
  cases d with
  | beginsWith other start' =>
      simp only [words, List.cons_append, List.nil_append, rowsAlike_cons, alike_name_iff,
        alike_value_iff] at h
      rcases h with ⟨_, rfl, _, hstart, _, hrest⟩
      -- Strings that are the same are identical.
      have hsame : start = start' := by
        rcases hstart with hidentical | hsame
        · exact Value.string.inj hidentical
        · exact beq_iff_eq.mp hsame
      rw [hsame]
      exact ⟨fun _ => rfl, hrest⟩
  | and inner => exact absurd rfl hd
  | or inner => exact absurd rfl hd
  | _ => simp [words] at h

-- Operands are read one by one up to the parenthesis behind them.
theorem operands_read {vs ws : List Value} {r s : List Word}
    (h : RowsAlike (operandWords vs ++ .fixed ")" :: r) (operandWords ws ++ .fixed ")" :: s)) :
    List.Forall₂ Value.Alike vs ws ∧ RowsAlike r s := by
  match vs, ws with
  | [], [] => exact ⟨.nil, (rowsAlike_cons.mp h).2⟩
  | [v], [w] =>
      simp only [operandWords, List.cons_append, List.nil_append, rowsAlike_cons,
        alike_value_iff] at h
      exact ⟨.cons h.1 .nil, h.2.2⟩
  | v :: v' :: vs, w :: w' :: ws =>
      simp only [operandWords, List.cons_append, rowsAlike_cons, alike_value_iff] at h
      rcases operands_read h.2.2 with ⟨hoperands, hrest⟩
      exact ⟨.cons h.1 hoperands, hrest⟩
  | [], [w] => simp [operandWords] at h
  | [], w :: w' :: ws => simp [operandWords] at h
  | [v], [] => simp [operandWords] at h
  | [v], w :: w' :: ws => simp [operandWords] at h
  | v :: v' :: vs, [] => simp [operandWords] at h
  | v :: v' :: vs, [w] => simp [operandWords] at h

theorem any_equals_of_alike {vs ws : List Value} (h : List.Forall₂ Value.Alike vs ws)
    (actual : Value) : vs.any (actual.equals ·) = ws.any (actual.equals ·) := by
  induction h with
  | nil => rfl
  | cons hvw _ ih => rw [List.any_cons, List.any_cons, hvw.equals_eq actual, ih]

theorem term_isIn (attr : String) (vs : List Value) : Term (.isIn attr vs) := by
  refine term_of_words Bool.false_ne_true fun d r s _ hd h => ?_
  cases d with
  | isIn other ws =>
      simp only [words, List.cons_append, List.append_assoc, List.nil_append, rowsAlike_cons,
        alike_name_iff] at h
      rcases h with ⟨rfl, _, hoperands⟩
      rcases operands_read hoperands with ⟨halike, hrest⟩
      refine ⟨fun item => ?_, hrest⟩
      simp only [Condition.holds, any_equals_of_alike halike]
  | and inner => exact absurd rfl hd
  | or inner => exact absurd rfl hd
  | comparison _ comparator _ => simp [words, (symbol_ne comparator).2.symm] at h
  | _ => simp [words] at h

theorem term_contains (attr : String) (v : Value) : Term (.contains attr v) := by
  refine term_of_words Bool.false_ne_true fun d r s _ hd h => ?_
  cases d with
  | contains other w =>
      simp only [words, List.cons_append, List.nil_append, rowsAlike_cons, alike_name_iff,
        alike_value_iff] at h
      rcases h with ⟨_, rfl, _, hvw, _, hrest⟩
      refine ⟨fun item => ?_, hrest⟩
      simp only [Condition.holds, hvw.includes_eq]
  | and inner => exact absurd rfl hd
  | or inner => exact absurd rfl hd
  | _ => simp [words] at h

theorem term_attributeExists (attr : String) : Term (.attributeExists attr) := by
  refine term_of_words Bool.false_ne_true fun d r s _ hd h => ?_
  cases d with
  | attributeExists other =>
      simp only [words, List.cons_append, List.nil_append, rowsAlike_cons, alike_name_iff] at h
      rcases h with ⟨_, rfl, _, hrest⟩
      exact ⟨fun _ => rfl, hrest⟩
  | and inner => exact absurd rfl hd
  | or inner => exact absurd rfl hd
  | _ => simp [words] at h

theorem term_attributeNotExists (attr : String) : Term (.attributeNotExists attr) := by
  refine term_of_words Bool.false_ne_true fun d r s _ hd h => ?_
  cases d with
  | attributeNotExists other =>
      simp only [words, List.cons_append, List.nil_append, rowsAlike_cons, alike_name_iff] at h
      rcases h with ⟨_, rfl, _, hrest⟩
      exact ⟨fun _ => rfl, hrest⟩
  | and inner => exact absurd rfl hd
  | or inner => exact absurd rfl hd
  | _ => simp [words] at h

/-- A negation is read if what it negates is. Its parentheses are always there. -/
theorem term_not {c : Condition} (hc : Whole c) : Term (.not c) := by
  refine term_of_words Bool.false_ne_true fun d r s hproper hd h => ?_
  cases d with
  | not inner =>
      have hinner : inner.proper = true := hproper
      simp only [words, List.cons_append, rowsAlike_cons] at h
      rcases close_read hc hinner h.2 with ⟨hcd, hrest⟩
      refine ⟨fun item => ?_, hrest⟩
      rw [Condition.holds, Condition.holds, hcd item]
  | and inner => exact absurd rfl hd
  | or inner => exact absurd rfl hd
  | _ => simp [words] at h

mutual

/-- Every condition is read in one way, within another one and on its own. -/
theorem term_and_whole (c : Condition) (hc : c.proper = true) : Term c ∧ Whole c := by
  -- What is no junction is its own only part.
  have hsimple : parts c = [c] → Term c → Term c ∧ Whole c := fun hparts hterm =>
    ⟨hterm, whole_of_terms hc (by rw [hparts]; exact List.forall_mem_singleton.mpr hterm)⟩
  cases c with
  | comparison attr comparator v => exact hsimple rfl (term_comparison attr comparator v)
  | between attr low high => exact hsimple rfl (term_between attr low high)
  | beginsWith attr start => exact hsimple rfl (term_beginsWith attr start)
  | isIn attr vs => exact hsimple rfl (term_isIn attr vs)
  | contains attr v => exact hsimple rfl (term_contains attr v)
  | attributeExists attr => exact hsimple rfl (term_attributeExists attr)
  | attributeNotExists attr => exact hsimple rfl (term_attributeNotExists attr)
  | not inner => exact hsimple rfl (term_not (term_and_whole inner hc).2)
  | and inner =>
      have hinner := (Condition.parts_proper hc).2
      have hwhole := whole_of_terms hc (term_of_mem inner hinner)
      exact ⟨term_of_junction rfl hwhole, hwhole⟩
  | or inner =>
      have hinner := (Condition.parts_proper hc).2
      have hwhole := whole_of_terms hc (term_of_mem inner hinner)
      exact ⟨term_of_junction rfl hwhole, hwhole⟩

theorem term_of_mem (cs : List Condition) (hcs : ∀ c ∈ cs, c.proper = true) :
    ∀ c ∈ cs, Term c := by
  cases cs with
  | nil => exact fun c hc => absurd hc List.not_mem_nil
  | cons c rest =>
      rw [List.forall_mem_cons] at hcs ⊢
      exact ⟨(term_and_whole c hcs.1).1, term_of_mem rest hcs.2⟩

end

/-- Conditions that are rendered alike mean the same. If no junction in either of them is
    empty, and new builders that write them come to the same text, the same names under the
    same placeholders and operands that are identical or the same under the same placeholders,
    then the conditions hold of the same items. -/
theorem holds_eq_of_rendersAlike {c d : Condition} (hc : c.proper = true) (hd : d.proper = true)
    (h : Builder.RendersAlike (Builder.condition c Builder.empty)
      (Builder.condition d Builder.empty)) (item : Item) : c.holds item = d.holds item := by
  have hnothing : Ends [] := fun rest => ⟨nofun, nofun⟩
  have hwords := words_alike h
  rw [← List.append_nil (words c), ← List.append_nil (words d)] at hwords
  exact ((term_and_whole c hc).2 d [] [] hd hnothing hnothing hwords).1 item

/-- A comparison in parentheses, within a conjunction and a disjunction of one condition. -/
def conjoined (x : Binary64) : Condition := .and [.or [.comparison "year" .less (.float x)]]

/-- The same with the junctions the other way round. -/
def disjoined (x : Binary64) : Condition := .or [.and [.comparison "year" .less (.float x)]]

/-- Both come to one text, with zeros of different signs under its placeholder. -/
theorem holds_eq_of_rendersAlike_conjoined :
    (conjoined .zero).proper = true ∧ (disjoined (.ofMagnitude true 0)).proper = true ∧
    Builder.RendersAlike (Builder.condition (conjoined .zero) Builder.empty)
      (Builder.condition (disjoined (.ofMagnitude true 0)) Builder.empty) ∧
    ∀ item, (conjoined .zero).holds item = (disjoined (.ofMagnitude true 0)).holds item := by
  have halike : Builder.RendersAlike (Builder.condition (conjoined .zero) Builder.empty)
      (Builder.condition (disjoined (.ofMagnitude true 0)) Builder.empty) :=
    ⟨rfl, rfl, .cons ⟨rfl, Or.inr rfl⟩ .nil⟩
  exact ⟨rfl, rfl, halike, fun item => holds_eq_of_rendersAlike rfl rfl halike item⟩

end Rendering

end WideColumn
