import WideColumn.Proofs.Store.Writes

/-!
# Finding Items After Writes

What a look-up by key gives after an item was written.

An item takes the place of the first row that has its key, or the last place of all. Either
way it is what is found under its key from then on, and what is found under other keys is what
was found before. These are laws of the list of rows, of a table and of a store in turn, and
none of them needs the keys of rows to be distinct: the row that is looked up first is the one
that is replaced.

## Theorems

* `find?_placeItem`, `find?_placeItem_of_not`: What is found after placing an item.
* `placeItem_cases`: An item is placed where a row was, or behind all rows.
* `find?_put`, `find?_put_of_not`: What is found among the rows of a table.
* `get_put`, `get_put_of_not`: What is found in a table after writing an item.
* `getItem_putItem`, `getItem_putItem_of_not`: The same of a store.
-/

namespace WideColumn

section Placing

variable {replaces wanted : Item → Bool} {item : Item} {held : List Item}

-- The item that was placed is found if it replaces all that would be found.
theorem find?_placeItem (hitem : wanted item = true)
    (hheld : ∀ other ∈ held, wanted other = true → replaces other = true) :
    (placeItem replaces item held).find? wanted = some item := by
  induction held with
  | nil => rw [placeItem, List.find?_cons_of_pos hitem]
  | cons head rest ih =>
      rw [placeItem]
      by_cases hhead : replaces head = true
      · rw [if_pos hhead, List.find?_cons_of_pos hitem]
      · have hnot : ¬ wanted head = true := fun h => hhead (hheld head List.mem_cons_self h)
        rw [if_neg hhead, List.find?_cons_of_neg hnot]
        exact ih fun other hother => hheld other (List.mem_cons_of_mem head hother)

-- Placing an item changes nothing for those who look for neither it nor what it replaces.
theorem find?_placeItem_of_not (hitem : ¬ wanted item = true)
    (hheld : ∀ other ∈ held, replaces other = true → ¬ wanted other = true) :
    (placeItem replaces item held).find? wanted = held.find? wanted := by
  induction held with
  | nil => rw [placeItem, List.find?_cons_of_neg hitem]
  | cons head rest ih =>
      rw [placeItem]
      by_cases hhead : replaces head = true
      · have hnot := hheld head List.mem_cons_self hhead
        rw [if_pos hhead, List.find?_cons_of_neg hitem, List.find?_cons_of_neg hnot]
      · have hrest := ih fun other hother => hheld other (List.mem_cons_of_mem head hother)
        rw [if_neg hhead, List.find?_cons, List.find?_cons, hrest]

/-- An item is placed where the first row was that it replaces, or behind all rows if it
    replaces none. -/
theorem placeItem_cases (replaces : Item → Bool) (item : Item) (held : List Item) :
    (∃ before other after, held = before ++ other :: after ∧ replaces other = true ∧
      placeItem replaces item held = before ++ item :: after) ∨
    ((∀ other ∈ held, ¬ replaces other = true) ∧
      placeItem replaces item held = held ++ [item]) := by
  induction held with
  | nil => exact Or.inr ⟨fun _ h => absurd h List.not_mem_nil, rfl⟩
  | cons head rest ih =>
      rw [placeItem]
      by_cases hhead : replaces head = true
      · rw [if_pos hhead]
        exact Or.inl ⟨[], head, rest, rfl, hhead, rfl⟩
      · rw [if_neg hhead]
        rcases ih with ⟨before, other, after, rfl, hother, hplaced⟩ | ⟨hnone, hplaced⟩
        · exact Or.inl ⟨head :: before, other, after, rfl, hother, congrArg (head :: ·) hplaced⟩
        · exact Or.inr ⟨List.forall_mem_cons.mpr ⟨hhead, hnone⟩, congrArg (head :: ·) hplaced⟩

end Placing

namespace Table

variable {table written : Table} {key item : Item}

-- A key that an item has is complete if the item is.
theorem covers_of_hasKey (hitem : table.schema.keys.covers item = true)
    (hkey : table.hasKey key item = true) : table.schema.keys.covers key = true := by
  rw [IndexKeys.covers_iff] at hitem ⊢
  intro attr hattr
  have hsame := hasKey_iff.mp hkey attr hattr
  have hheld := hitem attr hattr
  rw [Keyed.contains] at hheld ⊢
  cases hget : key.get? attr with
  | some v => rfl
  | none =>
      rw [hget] at hsame
      cases hother : item.get? attr with
      | none => rw [hother] at hheld; exact hheld
      | some v => rw [hother] at hsame; exact absurd hsame Bool.false_ne_true

-- What is found after writing an item, whether the key that is looked for is complete or not.
theorem find?_put (hput : table.put item = .ok written) (hkey : table.hasKey key item = true) :
    written.items.find? (written.hasKey key) = some item := by
  rcases put_eq_ok hput with ⟨_, rfl⟩
  exact find?_placeItem hkey fun other _ hother =>
    hasKey_trans (hasKey_comm table item key ▸ hkey) hother

theorem find?_put_of_not (hput : table.put item = .ok written)
    (hkey : ¬ table.hasKey key item = true) :
    written.items.find? (written.hasKey key) = table.items.find? (table.hasKey key) := by
  rcases put_eq_ok hput with ⟨_, rfl⟩
  exact find?_placeItem_of_not hkey fun other _ hother hwanted =>
    hkey (hasKey_trans hwanted (hasKey_comm table item other ▸ hother))

theorem get_eq_ok (hkey : table.schema.keys.covers key = true) :
    table.get key = .ok (table.items.find? (table.hasKey key)) := by
  rw [get, IndexKeys.missingFrom?_eq_none_iff.mpr hkey]

/-- After an item is written it is found under its key. -/
theorem get_put (hput : table.put item = .ok written) (hkey : table.hasKey key item = true) :
    written.get key = .ok (some item) := by
  rcases put_eq_ok hput with ⟨hitem, hwritten⟩
  have hcovers : written.schema.keys.covers key = true := by
    rw [hwritten]
    exact covers_of_hasKey hitem hkey
  rw [get_eq_ok hcovers, find?_put hput hkey]

/-- What is found under the keys that it does not have stays the same. -/
theorem get_put_of_not (hput : table.put item = .ok written)
    (hkey : ¬ table.hasKey key item = true) : written.get key = table.get key := by
  have hschema : written.schema = table.schema := by
    rw [(put_eq_ok hput).2]
  rw [get, get, hschema, find?_put_of_not hput hkey]

end Table

namespace MemoryStore

variable {store written : MemoryStore} {name : String} {table : Table} {key item : Item}

-- A store that takes an item has the table, with the item in it.
theorem table_of_putItem (htable : store.table name = .ok table)
    (hput : store.putItem name item = .ok written) :
    ∃ placed, table.put item = .ok placed ∧ written.table name = .ok placed := by
  rcases putItem_eq_ok hput with ⟨held, placed, hheld, hplaced, rfl⟩
  rw [table_eq_ok_iff, hheld, Option.some.injEq] at htable
  refine ⟨placed, htable ▸ hplaced, ?_⟩
  rw [table_eq_ok_iff, Keyed.get?_insert, if_pos rfl]

/-- After an item is written to a table it is found there under its key. -/
theorem getItem_putItem (htable : store.table name = .ok table)
    (hput : store.putItem name item = .ok written) (hkey : table.hasKey key item = true) :
    written.getItem name key = .ok (some item) := by
  rcases table_of_putItem htable hput with ⟨placed, hplaced, hheld⟩
  rw [getItem, hheld]
  exact Table.get_put hplaced hkey

/-- What the table has under other keys stays the same. -/
theorem getItem_putItem_of_not (htable : store.table name = .ok table)
    (hput : store.putItem name item = .ok written) (hkey : ¬ table.hasKey key item = true) :
    written.getItem name key = store.getItem name key := by
  rcases table_of_putItem htable hput with ⟨placed, hplaced, hheld⟩
  rw [getItem, getItem, hheld, htable]
  exact Table.get_put_of_not hplaced hkey

end MemoryStore

end WideColumn
