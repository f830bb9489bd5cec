import Mathlib.Data.List.Induction
import Mathlib.Data.List.Nodup
import WideColumn.Proofs.Planning.Answers

/-!
# Building Expressions

An expression depends on the steps that built it through little, and what is planned for it
depends on less.

Of the filters on an attribute, of the orders and of the demands for consistent reads only
the last one is left. The selections are left one behind the other, and the predicates as a
list. This is read off by induction on the steps from the last one, so each of the lemmas is
about one more step (`filterOn_ofCalls` and its companions).

Two rows of steps that agree in these may still build different expressions. A filter stays
where its attribute was first filtered, even if nothing else is left of that first filter,
and predicates may have changed places. Planning looks filters up by attribute and sees
nothing of this. The filter of a request has them in a row, but two rows of the same filters
are permutations of each other, since every attribute has one filter at most, and a
conjunction does not mind the order of what it is of.

## Main definitions

* `Call.filter?`, `Call.order?`, `Call.demand?`, `Call.selection?`, `Call.predicate?`: What
  a step says.
* `Expression.SaysSame`: Two rows of steps agree in what counts.
* `Expression.Alike`: Two expressions agree in what is looked up, and have the same
  conditions in some order.

## Theorems

* `filterOn_ofCalls`, `order_ofCalls`, `consistent_ofCalls`, `selected_ofCalls`,
  `predicates_ofCalls`: What is left of the steps.
* `Alike.infractions_eq`, `Alike.score_eq`, `Alike.choose_eq`: The same index is chosen.
* `Alike.residual_perm`, `Alike.compile_cases`: The same is asked of every index.
* `planned_alike`: What is planned does not depend on the order of the steps.
-/

namespace WideColumn

namespace Expression

namespace Call

/-- The filter that a step puts on an attribute. -/
def filter? (attr : String) : Call → Option Filter
  | filter other f => if attr = other then some f else none
  | _ => none

/-- The order that a step asks for. -/
def order? : Call → Option OrderBy
  | orderBy attr ascending => some ⟨attr, ascending⟩
  | _ => none

/-- What a step says of consistent reads. -/
def demand? : Call → Option Bool
  | consistentRead demanded => some demanded
  | _ => none

/-- The attributes that a step selects. -/
def selection? : Call → Option (List String)
  | select attributes => some attributes
  | _ => none

/-- The predicate that a step asks for. -/
def predicate? : Call → Option Condition
  | filterBy predicate => some predicate
  | _ => none

end Call

/-- Two rows of steps say the same, whatever the order in which they say it. No demand for
    consistent reads is as good as a demand that is given up. -/
structure SaysSame (xs ys : List Call) : Prop where
  filters : ∀ attr, (xs.filterMap (Call.filter? attr)).getLast? =
    (ys.filterMap (Call.filter? attr)).getLast?
  order : (xs.filterMap Call.order?).getLast? = (ys.filterMap Call.order?).getLast?
  consistent : (xs.filterMap Call.demand?).getLast?.getD false =
    (ys.filterMap Call.demand?).getLast?.getD false
  selected : (xs.filterMap Call.selection?).flatten = (ys.filterMap Call.selection?).flatten
  selects : xs.filterMap Call.selection? = [] ↔ ys.filterMap Call.selection? = []
  predicates : (xs.filterMap Call.predicate?).Perm (ys.filterMap Call.predicate?)

/-- Two expressions agree in all that is looked up in them, and have the same conditions. -/
structure Alike (e other : Expression) : Prop where
  filterOn_eq : ∀ attr, e.filterOn attr = other.filterOn attr
  order_eq : e.order = other.order
  consistent_eq : e.consistent = other.consistent
  selected_eq : e.selected = other.selected
  filters_perm : e.filters.Perm other.filters
  predicates_perm : e.predicates.Perm other.predicates

-- The last thing that is said counts, and what was said before if the last step says nothing.
theorem getLast?_filterMap_concat {α β : Type} (said : α → Option β) (steps : List α)
    (step : α) :
    ((steps ++ [step]).filterMap said).getLast? =
      (said step).or (steps.filterMap said).getLast? := by
  rw [List.filterMap_append, List.getLast?_append, List.filterMap_cons]
  cases said step <;> rfl

theorem ofCalls_concat (calls : List Call) (call : Call) :
    ofCalls (calls ++ [call]) = (ofCalls calls).apply call :=
  List.foldl_concat apply empty call calls

-- Placing a filter changes what is found on its attribute only.
theorem get?_placeFilter (attr other : String) (f : Filter) (filters : List (String × Filter)) :
    Keyed.get? (placeFilter attr f filters) other =
      if other = attr then some f else Keyed.get? filters other := by
  induction filters with
  | nil => exact Keyed.get?_cons other attr f []
  | cons pair rest ih =>
      obtain ⟨head, g⟩ := pair
      rw [placeFilter, Keyed.get?_cons]
      by_cases hattr : attr = head
      · rw [if_pos hattr, Keyed.get?_cons, ← hattr]
        by_cases hother : other = attr
        · rw [if_pos hother, if_pos hother]
        · rw [if_neg hother, if_neg hother, if_neg hother]
      · rw [if_neg hattr, Keyed.get?_cons, ih]
        by_cases hother : other = head
        · rw [if_pos hother, if_pos hother, if_neg fun h => hattr (h.symm.trans hother)]
        · rw [if_neg hother, if_neg hother]

/-- Of the filters on an attribute the last one is left. -/
theorem filterOn_ofCalls (calls : List Call) (attr : String) :
    (ofCalls calls).filterOn attr = (calls.filterMap (Call.filter? attr)).getLast? := by
  induction calls using List.reverseRecOn with
  | nil => rfl
  | append_singleton calls call ih =>
      rw [ofCalls_concat, getLast?_filterMap_concat, ← ih]
      cases call with
      | filter other f =>
          have hplaced : ((ofCalls calls).apply (.filter other f)).filterOn attr =
              if attr = other then some f else (ofCalls calls).filterOn attr :=
            get?_placeFilter other attr f (ofCalls calls).filters
          rw [hplaced, Call.filter?]
          by_cases h : attr = other
          · rw [if_pos h, if_pos h, Option.some_or]
          · rw [if_neg h, if_neg h, Option.none_or]
      | _ => rfl

/-- Of the orders the last one is left. -/
theorem order_ofCalls (calls : List Call) :
    (ofCalls calls).order = (calls.filterMap Call.order?).getLast? := by
  induction calls using List.reverseRecOn with
  | nil => rfl
  | append_singleton calls call ih =>
      rw [ofCalls_concat, getLast?_filterMap_concat, ← ih]
      cases call <;> rfl

/-- Of the demands for consistent reads the last one is left. -/
theorem consistent_ofCalls (calls : List Call) :
    (ofCalls calls).consistent = (calls.filterMap Call.demand?).getLast?.getD false := by
  induction calls using List.reverseRecOn with
  | nil => rfl
  | append_singleton calls call ih =>
      rw [ofCalls_concat, getLast?_filterMap_concat]
      cases call with
      | consistentRead demanded => rfl
      | _ => exact ih

/-- The selections are left one behind the other. -/
theorem selected_ofCalls (calls : List Call) :
    (ofCalls calls).selected =
      if calls.filterMap Call.selection? = [] then none
      else some (calls.filterMap Call.selection?).flatten := by
  induction calls using List.reverseRecOn with
  | nil => rfl
  | append_singleton calls call ih =>
      rw [ofCalls_concat, List.filterMap_append]
      cases call with
      | select attributes =>
          have happly : ((ofCalls calls).apply (.select attributes)).selected =
              some ((ofCalls calls).selected.getD [] ++ attributes) := rfl
          have hlast : [Call.select attributes].filterMap Call.selection? = [attributes] := rfl
          have hselects : calls.filterMap Call.selection? ++ [attributes] ≠ [] :=
            List.append_ne_nil_of_right_ne_nil _ (List.cons_ne_nil _ _)
          rw [happly, hlast, ih, if_neg hselects, List.flatten_append, List.flatten_singleton]
          by_cases h : calls.filterMap Call.selection? = []
          · rw [if_pos h, h]
            rfl
          · rw [if_neg h, Option.getD_some]
      | _ =>
          rw [List.filterMap_cons_none rfl, List.filterMap_nil, List.append_nil]
          exact ih

/-- The predicates are left as a list. -/
theorem predicates_ofCalls (calls : List Call) :
    (ofCalls calls).predicates = calls.filterMap Call.predicate? := by
  induction calls using List.reverseRecOn with
  | nil => rfl
  | append_singleton calls call ih =>
      rw [ofCalls_concat, List.filterMap_append, ← ih]
      cases call with
      | filterBy predicate => rfl
      | _ => exact (List.append_nil _).symm

-- With one filter for each attribute at most, the look-ups tell which filters there are.
theorem filters_perm {e other : Expression} (he : (e.filters.map Prod.fst).Nodup)
    (hother : (other.filters.map Prod.fst).Nodup)
    (hsame : ∀ attr, e.filterOn attr = other.filterOn attr) : e.filters.Perm other.filters := by
  refine (List.perm_ext_iff_of_nodup (List.Nodup.of_map _ he) (List.Nodup.of_map _ hother)).mpr ?_
  rintro ⟨attr, f⟩
  rw [← filterOn_eq_some_iff he, ← filterOn_eq_some_iff hother, hsame]

/-- Steps that say the same build expressions that agree in what matters. -/
theorem SaysSame.alike {xs ys : List Call} (h : SaysSame xs ys) :
    (ofCalls xs).Alike (ofCalls ys) := by
  have hfilters : ∀ attr, (ofCalls xs).filterOn attr = (ofCalls ys).filterOn attr := fun attr => by
    rw [filterOn_ofCalls, filterOn_ofCalls, h.filters]
  refine ⟨hfilters, ?_, ?_, ?_, filters_perm (ofCalls_nodup xs) (ofCalls_nodup ys) hfilters, ?_⟩
  · rw [order_ofCalls, order_ofCalls, h.order]
  · rw [consistent_ofCalls, consistent_ofCalls, h.consistent]
  · rw [selected_ofCalls, selected_ofCalls, h.selected]
    simp only [h.selects]
  · rw [predicates_ofCalls, predicates_ofCalls]
    exact h.predicates

-- Without one value of the partition key there is no request.
theorem compile_eq_error {index : TableIndex} {e : Expression} (table : String)
    (h : ¬ ∃ value, e.filterOn index.keys.partition = some (.equal value)) :
    compile table index e =
      .error ⟨[⟨index.name, [.missingPartitionEquality index.keys.partition]⟩]⟩ := by
  rw [compile]
  cases hfilter : e.filterOn index.keys.partition with
  | none => rfl
  | some f =>
      cases f with
      | equal value => exact absurd ⟨value, hfilter⟩ h
      | _ => rfl

namespace Alike

variable {e other : Expression} (h : e.Alike other)

include h

/-- The same stands against every index. -/
theorem infractions_eq (index : TableIndex) : infractions index e = infractions index other := by
  simp only [infractions, partitionInfractions, consistencyInfractions, orderInfractions,
    projectionInfractions, sparsityInfractions, h.filterOn_eq, h.order_eq, h.consistent_eq,
    h.selected_eq]

theorem score_eq (index : TableIndex) : score index e = score index other := by
  simp only [score, SortKeyMultiplier.ofIndex, h.filterOn_eq]

/-- The same index is chosen, or none for the same reasons. -/
theorem choose_eq (catalog : IndexCatalog) : catalog.choose e = catalog.choose other := by
  have hbetter : betterOf e = betterOf other := by
    funext best next
    cases best with
    | none => rfl
    | some held => rw [betterOf, betterOf, h.score_eq, h.score_eq]
  simp only [IndexCatalog.choose, IndexCatalog.viable, hbetter, h.infractions_eq]

/-- What an index does not answer is the same, in some order. -/
theorem residual_perm (keys : IndexKeys) :
    (residualConditions keys e).Perm (residualConditions keys other) :=
  ((h.filters_perm.filter _).map _).append h.predicates_perm

/-- The filters of the two requests hold of the same items. -/
theorem holds_filter_eq (keys : IndexKeys) (item : Item) :
    (Condition.all? (residualConditions keys e)).all (·.holds item) =
      (Condition.all? (residualConditions keys other)).all (·.holds item) := by
  rw [Condition.holds_all?, Condition.holds_all?]
  exact (h.residual_perm keys).all_eq

theorem filter_eq_none_iff (keys : IndexKeys) :
    Condition.all? (residualConditions keys e) = none ↔
      Condition.all? (residualConditions keys other) = none := by
  rw [Condition.all?_eq_none_iff, Condition.all?_eq_none_iff]
  exact forall_congr' fun c => imp_congr (h.residual_perm keys).mem_iff Iff.rfl

/-- The same is asked of every index, or it cannot be asked for the same reason. -/
theorem compile_cases (table : String) (index : TableIndex) :
    (∃ failure, compile table index e = .error failure ∧
      compile table index other = .error failure) ∨
    ∃ request request', compile table index e = .ok request ∧
      compile table index other = .ok request' ∧
      request' = { request with filter := request'.filter } ∧
      (request.filter = none ↔ request'.filter = none) ∧
      ∀ item, request.filter.all (·.holds item) = request'.filter.all (·.holds item) := by
  by_cases hvalue : ∃ value, e.filterOn index.keys.partition = some (.equal value)
  · rcases hvalue with ⟨value, hvalue⟩
    refine Or.inr ⟨_, _, compile_eq_ok table hvalue,
      compile_eq_ok table ((h.filterOn_eq _).symm.trans hvalue), ?_,
      h.filter_eq_none_iff index.keys, h.holds_filter_eq index.keys⟩
    simp only [keyCondition, h.filterOn_eq, h.order_eq, h.consistent_eq, h.selected_eq]
  · refine Or.inl ⟨⟨[⟨index.name, [.missingPartitionEquality index.keys.partition]⟩]⟩, ?_, ?_⟩
    · exact compile_eq_error table hvalue
    · rw [h.filterOn_eq] at hvalue
      exact compile_eq_error table hvalue

end Alike

end Expression

/-- What is planned does not depend on the order of the steps. For steps that say the same,
    every catalog chooses the same index, or fails to choose one for the same reasons. A
    request for an index is made of both or fails for both in the same way. The two requests
    differ in their filters at most. Both have one or neither, and the filters hold of the
    same items. -/
theorem planned_alike {xs ys : List Expression.Call} (h : Expression.SaysSame xs ys) :
    (∀ catalog : IndexCatalog,
      catalog.choose (Expression.ofCalls xs) = catalog.choose (Expression.ofCalls ys)) ∧
    ∀ table index,
      (∃ failure, compile table index (Expression.ofCalls xs) = .error failure ∧
        compile table index (Expression.ofCalls ys) = .error failure) ∨
      ∃ request request', compile table index (Expression.ofCalls xs) = .ok request ∧
        compile table index (Expression.ofCalls ys) = .ok request' ∧
        request' = { request with filter := request'.filter } ∧
        (request.filter = none ↔ request'.filter = none) ∧
        ∀ item, request.filter.all (·.holds item) = request'.filter.all (·.holds item) :=
  ⟨h.alike.choose_eq, h.alike.compile_cases⟩

/-- The later films of a director, latest first. The year is filtered twice, and the order
    is changed once. -/
def laterFilms : List Expression.Call :=
  [.filter "year" (.less (.integer 1900)), .filter "title" (.less (.string "q")),
    .filter "rating" (.greater (.integer 3)), .orderBy "title" true, .select ["title"],
    .filterBy (.and [.attributeExists "title", .and []]),
    .filter "director" (.equal (.string "a")), .filter "year" (.greaterOrEqual (.integer 1986)),
    .orderBy "year" false, .select ["year"], .filterBy (.not (.beginsWith "title" "b"))]

/-- The same films, said in another order and without what does not count. -/
def laterFilmsAgain : List Expression.Call :=
  [.consistentRead true, .filterBy (.not (.beginsWith "title" "b")), .select ["title", "year"],
    .filter "director" (.equal (.string "a")), .filter "rating" (.greater (.integer 3)),
    .orderBy "year" false, .filter "year" (.greaterOrEqual (.integer 1986)),
    .filter "title" (.less (.string "q")),
    .filterBy (.and [.attributeExists "title", .and []]), .consistentRead false]

/-- The two expressions have their filters in different orders. The same index is chosen for
    both, and what is asked of it differs in the order of the conditions only. -/
theorem planned_alike_laterFilms :
    Expression.SaysSame laterFilms laterFilmsAgain ∧
    (Expression.ofCalls laterFilms).filters.map Prod.fst =
      ["year", "title", "rating", "director"] ∧
    (Expression.ofCalls laterFilmsAgain).filters.map Prod.fst =
      ["director", "rating", "year", "title"] ∧
    IndexCatalog.choose ⟨"films", [primaryIndex filmSchema.keys 1, reportedByYear]⟩
      (Expression.ofCalls laterFilmsAgain) = .ok reportedByYear ∧
    ∃ request request',
      compile "films" reportedByYear (Expression.ofCalls laterFilms) = .ok request ∧
      compile "films" reportedByYear (Expression.ofCalls laterFilmsAgain) = .ok request' ∧
      request' = { request with filter := request'.filter } ∧
      ∀ item, request.filter.all (·.holds item) = request'.filter.all (·.holds item) := by
  have hsame : Expression.SaysSame laterFilms laterFilmsAgain := by
    refine ⟨fun attr => ?_, rfl, rfl, rfl,
      iff_of_false (List.cons_ne_nil _ _) (List.cons_ne_nil _ _), List.Perm.swap _ _ _⟩
    by_cases hattr : attr ∈ ["year", "title", "rating", "director"]
    · simp only [List.mem_cons, List.not_mem_nil, or_false] at hattr
      rcases hattr with rfl | rfl | rfl | rfl <;> rfl
    · simp only [List.mem_cons, List.not_mem_nil, or_false, not_or] at hattr
      simp only [laterFilms, laterFilmsAgain, List.filterMap_cons, List.filterMap_nil,
        Expression.Call.filter?, if_neg hattr.1, if_neg hattr.2.1, if_neg hattr.2.2.1,
        if_neg hattr.2.2.2]
  have hchosen : IndexCatalog.choose ⟨"films", [primaryIndex filmSchema.keys 1, reportedByYear]⟩
      (Expression.ofCalls laterFilms) = .ok reportedByYear := rfl
  have hasked : (compile "films" reportedByYear (Expression.ofCalls laterFilms)).isOk = true := rfl
  rcases planned_alike hsame with ⟨hchoose, hcompile⟩
  refine ⟨hsame, by decide, by decide, (hchoose _).symm.trans hchosen, ?_⟩
  rcases hcompile "films" reportedByYear with
    ⟨failure, hfailure, _⟩ | ⟨request, request', hrequest, hrequest', hfields, _, hholds⟩
  · rw [hfailure] at hasked
    exact absurd hasked Bool.false_ne_true
  · exact ⟨request, request', hrequest, hrequest', hfields, hholds⟩

end WideColumn
