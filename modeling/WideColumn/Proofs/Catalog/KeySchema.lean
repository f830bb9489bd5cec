import WideColumn.Catalog.Build
import WideColumn.Store.Schema

/-!
# Keys of a Key Schema

Which key schemas make a key, and what is wrong with the others.

A key schema lists attributes with the parts they play, in any order and with any parts
missing or repeated. It makes a key if it is a rearrangement of the schema of one, which is
the same as having one partition key and at most one sort key. Otherwise it has a first
defect. That is the first attribute whose part was played before, wherever it stands, and
only in a schema without repetition the missing partition key.

The three outcomes cover every schema and exclude each other, so the equivalences follow
from one lemma for each of them. The slots that are filled on the way are taken as the list
of what is in them. Filling one then adds an element to that list, and nothing has to be
said about the two parts one by one.

## Main definitions

* `WellKeyed`: One partition key and at most one sort key.
* `KeySlots.elements`: What slots are filled with.
* `SchemaDefect`: The first defect of a key schema.

## Theorems

* `nodup_or_repeated`: Nothing repeats, or there is a first element that does.
* `foldlM_fill_of_nodup`, `foldlM_fill_of_repeated`: What becomes of the slots.
* `resolveKeys_of_perm`, `resolveKeys_of_defect`: What becomes of the keys.
* `perm_or_defect`: There is no third.
* `resolveKeys_eq_ok_iff`, `resolveKeys_eq_error_iff`: When keys are resolved to what.
* `wellKeyed_iff`: Which schemas make a key.
-/

namespace WideColumn

/-- The schema has one partition key and at most one sort key. -/
def WellKeyed (schema : List KeyElement) : Prop :=
  schema.countP (·.role == .partition) = 1 ∧ schema.countP (·.role == .sort) ≤ 1

/-- The first defect of a key schema. -/
inductive SchemaDefect (index : String) (schema : List KeyElement) : CatalogError → Prop
  /-- An element plays the part of one before it, and none before it does. -/
  | repeated {before : List KeyElement} {element : KeyElement} {after : List KeyElement} :
      schema = before ++ element :: after → (before.map (·.role)).Nodup →
      element.role ∈ before.map (·.role) →
      SchemaDefect index schema (.duplicateKeyRole index element.role)
  /-- Nothing repeats, and no element is the partition key. -/
  | missing : (schema.map (·.role)).Nodup → KeyRole.partition ∉ schema.map (·.role) →
      SchemaDefect index schema (.missingPartitionKey index)

/-- Nothing repeats, or there is a first element that does. -/
theorem nodup_or_repeated {α β : Type} [DecidableEq β] (f : α → β) (l : List α) :
    ∀ kept : List α, (kept.map f).Nodup →
      ((kept ++ l).map f).Nodup ∨ ∃ before a after, l = before ++ a :: after ∧
        ((kept ++ before).map f).Nodup ∧ f a ∈ (kept ++ before).map f := by
  induction l with
  | nil =>
      intro kept hkept
      exact Or.inl (by rwa [List.append_nil])
  | cons a rest ih =>
      intro kept hkept
      by_cases hmem : f a ∈ kept.map f
      · exact Or.inr ⟨[], a, rest, rfl, by rwa [List.append_nil], by rwa [List.append_nil]⟩
      · have hmore : ((kept ++ [a]).map f).Nodup := by
          rw [List.map_append, List.nodup_append]
          refine ⟨hkept, List.pairwise_singleton _ _, fun x hx y hy => ?_⟩
          rw [List.map_singleton, List.mem_singleton] at hy
          exact fun h => hmem (hy ▸ h ▸ hx)
        rcases ih (kept ++ [a]) hmore with hnodup | ⟨before, b, after, rfl, hbefore, hb⟩
        · refine Or.inl ?_
          rwa [List.append_assoc, List.singleton_append] at hnodup
        · rw [List.append_assoc, List.singleton_append] at hbefore hb
          exact Or.inr ⟨a :: before, b, after, rfl, hbefore, hb⟩

namespace KeySlots

/-- What the slots are filled with. -/
def elements (slots : KeySlots) : List KeyElement :=
  (slots.partition.toList.map fun attr => ⟨attr, .partition⟩) ++
    slots.sort.toList.map fun attr => ⟨attr, .sort⟩

theorem mem_elements {slots : KeySlots} (element : KeyElement) :
    element ∈ slots.elements ↔ slots.get? element.role = some element.attr := by
  rcases element with ⟨attr, role⟩
  cases role <;> simp [elements, get?, Option.mem_toList]

-- Slots are known by their contents, in whatever order.
theorem eq_of_elements_perm {slots others : KeySlots}
    (h : slots.elements.Perm others.elements) : slots = others := by
  have hget : ∀ role, slots.get? role = others.get? role := fun role => by
    refine Option.ext fun attr => ?_
    have hmem := h.mem_iff (a := ⟨attr, role⟩)
    rwa [mem_elements, mem_elements] at hmem
  have hpartition := hget .partition
  have hsort := hget .sort
  cases slots
  cases others
  exact congr (congrArg mk hpartition) hsort

theorem elements_nodup (slots : KeySlots) : (slots.elements.map (·.role)).Nodup := by
  rcases slots with ⟨_ | partition, _ | sort⟩ <;> simp [elements]

-- A part that is taken is not filled again.
theorem fill_of_mem (index : String) {slots : KeySlots} {element : KeyElement}
    (h : element.role ∈ slots.elements.map (·.role)) :
    fill index slots element = .error (.duplicateKeyRole index element.role) := by
  rcases List.mem_map.mp h with ⟨other, hother, hrole⟩
  rw [mem_elements, hrole] at hother
  rw [fill, hother]
  rfl

-- A free part is filled with the element.
theorem fill_of_not_mem (index : String) {slots : KeySlots} {element : KeyElement}
    (h : element.role ∉ slots.elements.map (·.role)) :
    ∃ filled, fill index slots element = .ok filled ∧
      (slots.elements ++ [element]).Perm filled.elements := by
  have hfree : slots.get? element.role = none := by
    cases hget : slots.get? element.role with
    | none => rfl
    | some attr => exact absurd (List.mem_map_of_mem
        ((mem_elements ⟨attr, element.role⟩).mpr hget)) h
  rcases slots with ⟨partition, sort⟩
  rcases element with ⟨attr, role⟩
  rw [fill, hfree]
  cases role with
  | partition =>
      simp only [get?] at hfree
      subst hfree
      refine ⟨_, rfl, ?_⟩
      simp only [elements, Option.toList_none, List.map_nil, List.nil_append,
        Option.toList_some, List.map_cons, List.singleton_append]
      exact List.perm_append_singleton _ _
  | sort =>
      simp only [get?] at hfree
      subst hfree
      refine ⟨_, rfl, ?_⟩
      simp only [elements, Option.toList_none, List.map_nil, List.append_nil,
        Option.toList_some, List.map_cons]
      exact List.Perm.refl _

/-- Elements that repeat no part fill the slots. -/
theorem foldlM_fill_of_nodup (index : String) (schema : List KeyElement) :
    ∀ slots : KeySlots, ((slots.elements ++ schema).map (·.role)).Nodup →
      ∃ filled, schema.foldlM (fill index) slots = .ok filled ∧
        (slots.elements ++ schema).Perm filled.elements := by
  induction schema with
  | nil =>
      intro slots _
      exact ⟨slots, rfl, by rw [List.append_nil]⟩
  | cons element rest ih =>
      intro slots hnodup
      have hfree : element.role ∉ slots.elements.map (·.role) := by
        rw [List.map_append, List.nodup_append] at hnodup
        exact fun hmem => hnodup.2.2 _ hmem _ List.mem_cons_self rfl
      rcases fill_of_not_mem index hfree with ⟨next, hfill, hnext⟩
      have hperm : (slots.elements ++ element :: rest).Perm (next.elements ++ rest) := by
        rw [← List.singleton_append, ← List.append_assoc]
        exact hnext.append_right rest
      rcases ih next ((hperm.map _).nodup_iff.mp hnodup) with ⟨filled, hfold, hfilled⟩
      refine ⟨filled, ?_, hperm.trans hfilled⟩
      rw [List.foldlM_cons, hfill]
      exact hfold

/-- The first element that repeats a part ends the filling. -/
theorem foldlM_fill_of_repeated (index : String) {before after : List KeyElement}
    {element : KeyElement} (hbefore : (before.map (·.role)).Nodup)
    (hmem : element.role ∈ before.map (·.role)) :
    (before ++ element :: after).foldlM (fill index) ⟨none, none⟩ =
      .error (.duplicateKeyRole index element.role) := by
  rcases foldlM_fill_of_nodup index before ⟨none, none⟩ hbefore with ⟨filled, hfold, hfilled⟩
  have htaken : element.role ∈ filled.elements.map (·.role) :=
    (hfilled.map _).mem_iff.mp hmem
  rw [List.foldlM_append, hfold]
  change (element :: after).foldlM (fill index) filled = _
  rw [List.foldlM_cons, fill_of_mem index htaken]
  rfl

theorem foldlM_fill_empty (index : String) {schema : List KeyElement}
    (h : (schema.map (·.role)).Nodup) :
    ∃ filled, schema.foldlM (fill index) ⟨none, none⟩ = .ok filled ∧
      schema.Perm filled.elements :=
  foldlM_fill_of_nodup index schema ⟨none, none⟩ h

end KeySlots

-- The schema of a key is what the slots hold once they are filled with it.
theorem IndexKeys.schema_eq_elements (keys : IndexKeys) :
    keys.schema = (KeySlots.mk (some keys.partition) keys.sort).elements := rfl

theorem IndexKeys.schema_nodup (keys : IndexKeys) : (keys.schema.map (·.role)).Nodup :=
  KeySlots.elements_nodup ⟨some keys.partition, keys.sort⟩

theorem resolveKeys_of_foldlM {index : String} {schema : List KeyElement} {filled : KeySlots}
    (h : schema.foldlM (KeySlots.fill index) ⟨none, none⟩ = .ok filled) :
    resolveKeys index schema =
      match filled.partition with
      | some partition => .ok ⟨partition, filled.sort⟩
      | none => .error (.missingPartitionKey index) := by
  rw [resolveKeys, h]
  rfl

/-- A rearrangement of the schema of a key is resolved to the key. -/
theorem resolveKeys_of_perm (index : String) {schema : List KeyElement} {keys : IndexKeys}
    (h : schema.Perm keys.schema) : resolveKeys index schema = .ok keys := by
  have hnodup : (schema.map (·.role)).Nodup := (h.map _).nodup_iff.mpr keys.schema_nodup
  rcases KeySlots.foldlM_fill_empty index hnodup with ⟨filled, hfold, hfilled⟩
  have hslots : filled = ⟨some keys.partition, keys.sort⟩ :=
    KeySlots.eq_of_elements_perm (hfilled.symm.trans h)
  rw [resolveKeys_of_foldlM hfold, hslots]

/-- A schema with a defect is not resolved, and the defect is reported. -/
theorem resolveKeys_of_defect {index : String} {schema : List KeyElement} {e : CatalogError}
    (h : SchemaDefect index schema e) : resolveKeys index schema = .error e := by
  cases h with
  | repeated hschema hbefore hmem =>
      rw [resolveKeys, hschema, KeySlots.foldlM_fill_of_repeated index hbefore hmem]
      rfl
  | missing hnodup hmissing =>
      rcases KeySlots.foldlM_fill_empty index hnodup with ⟨filled, hfold, hfilled⟩
      rw [resolveKeys_of_foldlM hfold]
      cases hpartition : filled.partition with
      | none => rfl
      | some attr =>
          refine absurd ?_ hmissing
          rw [(hfilled.map (·.role)).mem_iff]
          exact List.mem_map_of_mem
            ((KeySlots.mem_elements ⟨attr, .partition⟩).mpr hpartition)

/-- A schema makes a key or has a defect. -/
theorem perm_or_defect (index : String) (schema : List KeyElement) :
    (∃ keys : IndexKeys, schema.Perm keys.schema) ∨ ∃ e, SchemaDefect index schema e := by
  rcases nodup_or_repeated (·.role) schema [] List.nodup_nil with
    hnodup | ⟨before, element, after, hschema, hbefore, hmem⟩
  · rw [List.nil_append] at hnodup
    by_cases hmem : KeyRole.partition ∈ schema.map (·.role)
    · rcases KeySlots.foldlM_fill_empty index hnodup with ⟨filled, _, hfilled⟩
      rw [(hfilled.map (·.role)).mem_iff] at hmem
      rcases List.mem_map.mp hmem with ⟨⟨attr, role⟩, helement, hrole⟩
      have hpartition : filled.partition = some attr := by
        rw [KeySlots.mem_elements, hrole] at helement
        exact helement
      refine Or.inl ⟨⟨attr, filled.sort⟩, ?_⟩
      rw [IndexKeys.schema_eq_elements, ← hpartition]
      exact hfilled
    · exact Or.inr ⟨_, .missing hnodup hmem⟩
  · exact Or.inr ⟨_, .repeated hschema hbefore hmem⟩

/-- Keys are resolved to those of which the schema is a rearrangement. -/
theorem resolveKeys_eq_ok_iff {index : String} {schema : List KeyElement} {keys : IndexKeys} :
    resolveKeys index schema = .ok keys ↔ schema.Perm keys.schema := by
  refine ⟨fun h => ?_, resolveKeys_of_perm index⟩
  rcases perm_or_defect index schema with ⟨others, hperm⟩ | ⟨e, hdefect⟩
  · rw [resolveKeys_of_perm index hperm, Except.ok.injEq] at h
    rw [← h]
    exact hperm
  · rw [resolveKeys_of_defect hdefect] at h
    exact absurd h (by simp only [reduceCtorEq, not_false_eq_true])

/-- The error is the first defect of the schema. -/
theorem resolveKeys_eq_error_iff {index : String} {schema : List KeyElement}
    {e : CatalogError} : resolveKeys index schema = .error e ↔ SchemaDefect index schema e := by
  refine ⟨fun h => ?_, resolveKeys_of_defect⟩
  rcases perm_or_defect index schema with ⟨keys, hperm⟩ | ⟨other, hdefect⟩
  · rw [resolveKeys_of_perm index hperm] at h
    exact absurd h (by simp only [reduceCtorEq, not_false_eq_true])
  · rw [resolveKeys_of_defect hdefect, Except.error.injEq] at h
    rw [← h]
    exact hdefect

-- A part that is played twice is counted twice.
theorem one_lt_countP_of_repeated {before : List KeyElement} {element : KeyElement}
    (after : List KeyElement) (h : element.role ∈ before.map (·.role)) :
    1 < (before ++ element :: after).countP (·.role == element.role) := by
  have hbefore : 0 < before.countP (·.role == element.role) := by
    rcases List.mem_map.mp h with ⟨other, hother, hrole⟩
    exact List.countP_pos_iff.mpr ⟨other, hother, beq_iff_eq.mpr hrole⟩
  rw [List.countP_append, List.countP_cons, beq_self_eq_true, if_pos rfl]
  omega

/-- The schemas that make a key have one partition key and at most one sort key. -/
theorem wellKeyed_iff {schema : List KeyElement} :
    WellKeyed schema ↔ ∃ keys : IndexKeys, schema.Perm keys.schema := by
  constructor
  · rintro ⟨hpartition, hsort⟩
    refine (perm_or_defect "" schema).resolve_right ?_
    rintro ⟨e, hdefect⟩
    cases hdefect with
    | @repeated before element after hschema _ hmem =>
        have hcount := one_lt_countP_of_repeated after hmem
        rw [← hschema] at hcount
        cases hrole : element.role <;> rw [hrole] at hcount <;> omega
    | missing _ hmissing =>
        have hpos : 0 < schema.countP (·.role == .partition) := by omega
        rcases List.countP_pos_iff.mp hpos with ⟨element, helement, hrole⟩
        exact hmissing (List.mem_map.mpr ⟨element, helement, beq_iff_eq.mp hrole⟩)
  · rintro ⟨⟨partition, sort⟩, hperm⟩
    rw [WellKeyed, hperm.countP_eq, hperm.countP_eq]
    cases sort with
    | none => exact ⟨rfl, Nat.zero_le 1⟩
    | some sort => exact ⟨rfl, Nat.le_refl 1⟩

end WideColumn
