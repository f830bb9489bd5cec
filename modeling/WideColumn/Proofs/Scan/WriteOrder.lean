import WideColumn.Proofs.Scan.Pages

/-!
# Scans and the Order of Writes

A scan depends on which items are stored, and not on how they came to be there.

A table keeps its items in the order in which their keys were first written, and an item
that is written again stays where its first version stood. Two lists of writes can therefore
leave the same items in different orders. A scan reads them in that order, sorts them and
reverses, resumes and cuts the result. The sort is stable, so wherever two rows tie it shows
the order of the table through.

Rows of a table whose keys can be ordered do not tie. They are a chain in the direction of
the request, and a set of rows can be arranged as a chain in one way only
(`ordered_eq_of_mem_iff`). All that a scan does after sorting is done to that chain, so
nothing is needed of the key it resumes after. It may have been reported for either table, or
never.

## Theorems

* `nodup_of_apart`: Items that do not tie are stored once.
* `ordered_eq_of_mem_iff`: The same items are put into the same order.
* `scan_eq_of_mem_iff`: Tables with the same items are scanned alike.
-/

namespace WideColumn

namespace IndexView

-- An item ties with itself, so items of which no two tie are all different.
theorem nodup_of_apart {view : IndexView} {items : List Item}
    (hapart : items.Pairwise fun a b => placeOrder view.orderAttrs a b ≠ .eq) : items.Nodup := by
  refine hapart.imp fun {a b} hne heq => ?_
  rw [heq] at hne
  exact hne Std.ReflCmp.compare_self

section

variable {view : IndexView} {items others : List Item} (hord : view.Orderable items)
  (hapart : items.Pairwise fun a b => placeOrder view.orderAttrs a b ≠ .eq)
  (hothers : others.Pairwise fun a b => placeOrder view.orderAttrs a b ≠ .eq)
  (hsame : ∀ item, item ∈ items ↔ item ∈ others)

include hord hapart hothers hsame

/-- The same items are put into the same order. -/
theorem ordered_eq_of_mem_iff (request : QueryRequest) :
    view.ordered request items = view.ordered request others := by
  have hord' : view.Orderable others := hord.mono fun item hitem => (hsame item).mpr hitem
  have hitems : items.Perm others :=
    (List.perm_ext_iff_of_nodup (nodup_of_apart hapart) (nodup_of_apart hothers)).mpr hsame
  have hrows : (view.rows request items).Perm (view.rows request others) := hitems.filter _
  have hperm : (view.ordered request items).Perm (view.ordered request others) :=
    (view.ordered_perm request items).trans (hrows.trans (view.ordered_perm request others).symm)
  -- A chain is the only arrangement of its rows that is one.
  refine List.Perm.eq_of_pairwise ?_ (ordered_pairwise hord request hapart)
    (ordered_pairwise hord' request hothers) hperm
  intro a b _ _ hab hba
  exact absurd hba (view.scanOrder_asymm request.forward a b hab)

end

/-- Tables with the same items are scanned alike. -/
theorem scan_eq_of_mem_iff {pageSize size : Nat} {writes rewrites : List Write}
    {name again : String} {table other : Table}
    (htable : (MemoryStore.afterWrites pageSize writes).table name = .ok table)
    (hother : (MemoryStore.afterWrites size rewrites).table again = .ok other)
    {view : IndexView} (hview : view ∈ table.schema.views) (hagain : view ∈ other.schema.views)
    (hsame : ∀ item, item ∈ table.items ↔ item ∈ other.items)
    (hord : view.Orderable table.items) (request : QueryRequest) (limit : Nat) :
    view.scan request limit table.items = view.scan request limit other.items := by
  have hord' : view.Orderable other.items := hord.mono fun item hitem => (hsame item).mpr hitem
  have hapart := placeOrder_ne_of_sound (MemoryStore.afterWrites_sound htable)
    (TableSchema.table_of_mem_views hview) hord fun _ hitem => hitem
  have hapart' := placeOrder_ne_of_sound (MemoryStore.afterWrites_sound hother)
    (TableSchema.table_of_mem_views hagain) hord' fun _ hitem => hitem
  have hordered := ordered_eq_of_mem_iff hord hapart hapart' hsame request
  -- The rows that are left are taken from the ordered ones, whatever the key is.
  have hremaining : view.remaining request table.items = view.remaining request other.items := by
    unfold remaining after
    rw [hordered]
  unfold scan
  rw [hremaining]

end IndexView

/-- The four films in another order. -/
def rewrittenFilms : Table where
  schema := filmSchema
  items := [film "b" "w" none, film "a" "z" (some 1990), film "a" "y" (some 1985),
    film "a" "x" (some 1990)]

/-- Other writes of the four films. The one without a year comes first, and another one is
    written without its year at first. -/
def filmRewrites : List Write :=
  [.create filmSchema, .load "films" [film "b" "w" none, film "a" "z" (some 1990)],
    .put "films" (film "a" "y" none),
    .load "films" [film "a" "x" (some 1990), film "a" "y" (some 1985)]]

/-- The second page of the latest films is the same after either writes. -/
theorem scan_eq_of_mem_iff_rewrittenFilms :
    (MemoryStore.afterWrites 2 filmWrites).table "films" = .ok filmTable ∧
    (MemoryStore.afterWrites 2 filmRewrites).table "films" = .ok rewrittenFilms ∧
    filmsByYear ∈ filmTable.schema.views ∧ filmsByYear ∈ rewrittenFilms.schema.views ∧
    (∀ item, item ∈ filmTable.items ↔ item ∈ rewrittenFilms.items) ∧
    filmsByYear.Orderable filmTable.items ∧
    filmsByYear.scan { latestFilms with startKey := some (film "a" "z" (some 1990)) } 1
        filmTable.items =
      filmsByYear.scan { latestFilms with startKey := some (film "a" "z" (some 1990)) } 1
        rewrittenFilms.items ∧
    filmsByYear.scan { latestFilms with startKey := some (film "a" "z" (some 1990)) } 1
        rewrittenFilms.items =
      ⟨[film "a" "x" (some 1990)], some (film "a" "x" (some 1990))⟩ := by
  have hrewritten : (MemoryStore.afterWrites 2 filmRewrites).table "films" = .ok rewrittenFilms :=
    rfl
  have hsame : ∀ item, item ∈ filmTable.items ↔ item ∈ rewrittenFilms.items := by
    have hreverse : rewrittenFilms.items = filmTable.items.reverse := rfl
    intro item
    rw [hreverse, List.mem_reverse]
  have hview : filmsByYear ∈ rewrittenFilms.schema.views := filmsByYear_mem_views
  exact ⟨afterWrites_filmWrites, hrewritten, filmsByYear_mem_views, hview, hsame,
    IndexView.orderable_filmTable filmsByYear,
    IndexView.scan_eq_of_mem_iff afterWrites_filmWrites hrewritten filmsByYear_mem_views hview
      hsame (IndexView.orderable_filmTable filmsByYear) _ 1, rfl⟩

end WideColumn
