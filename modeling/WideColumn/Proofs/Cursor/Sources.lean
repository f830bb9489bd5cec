import WideColumn.Proofs.Cursor.Delivery

/-!
# Sources That Answer Alike

When a cursor cannot tell two sources apart.

The states of two sources may be of different types. What it takes is a relation between them
that every plan and every answer keeps, with the same result on both sides. It is then kept by
whatever asks for plans and answers and looks at nothing else (`Alike.bind`). A cursor does just
that, so whatever is done with it comes to the same against the one source and the other.

## Main definitions

* `Alike`: Two pieces of work come to the same from states that are related.
* `Source.Matches`: Two sources plan and answer alike.
* `Delivery.Agrees`: Two cursors in use differ only in the states of their sources.

## Theorems

* `pull_alike`: A pull comes to the same.
* `step_agrees`, `foldl_agrees`: So does every call, and every row of calls.
-/

namespace WideColumn

/-- From states that are related two pieces of work come to the same result, and leave states
    that are related. -/
def Alike {σ τ α : Type} (R : σ → τ → Prop) (x : StateM σ α) (y : StateM τ α) : Prop :=
  ∀ s t, R s t → (x s).1 = (y t).1 ∧ R (x s).2 (y t).2

namespace Alike

variable {σ τ α β : Type} {R : σ → τ → Prop}

theorem pure (a : α) : Alike R (pure a) (pure a) := fun _ _ h => ⟨rfl, h⟩

theorem bind {x : StateM σ α} {y : StateM τ α} {f : α → StateM σ β} {g : α → StateM τ β}
    (hwork : Alike R x y) (hrest : ∀ a, Alike R (f a) (g a)) : Alike R (x >>= f) (y >>= g) := by
  intro s t h
  have hwork := hwork s t h
  rcases hx : x s with ⟨result, left⟩
  rcases hy : y t with ⟨other, leftOver⟩
  rw [hx, hy] at hwork
  obtain ⟨rfl, hleft⟩ := hwork
  simp only [Bind.bind, StateT.bind, hx, hy]
  exact hrest result left leftOver hleft

end Alike

/-- Two sources plan and answer alike. -/
structure Source.Matches {σ τ : Type} (R : σ → τ → Prop) (a : Source σ) (b : Source τ) :
    Prop where
  plan : ∀ deadline, Alike R (a.plan deadline) (b.plan deadline)
  execute : ∀ deadline request, Alike R (a.execute deadline request) (b.execute deadline request)

section

variable {σ τ α : Type} {R : σ → τ → Prop} {a : Source σ} {b : Source τ}

/-- The states are related, and the same was asked and answered. -/
def Logged (R : σ → τ → Prop) (s : σ × List Exchange) (t : τ × List Exchange) : Prop :=
  R s.1 t.1 ∧ s.2 = t.2

theorem Source.Matches.fetch (h : a.Matches R b) (deadline : Option Nat) (c : Cursor) :
    Alike (Logged R) (a.fetch deadline c) (b.fetch deadline c) := by
  have hplan : Alike (Logged R) (a.planLogged deadline) (b.planLogged deadline) := by
    rintro ⟨s, exchanges⟩ ⟨t, _⟩ ⟨hst, rfl⟩
    rcases h.plan deadline s t hst with ⟨hplanned, hleft⟩
    exact ⟨hplanned, hleft, rfl⟩
  have hexecute : ∀ request,
      Alike (Logged R) (a.executeLogged deadline request) (b.executeLogged deadline request) := by
    rintro request ⟨s, exchanges⟩ ⟨t, _⟩ ⟨hst, rfl⟩
    rcases h.execute deadline request s t hst with ⟨hanswer, hleft⟩
    refine ⟨hanswer, hleft, ?_⟩
    exact congrArg (fun answer => exchanges ++ [⟨request, answer⟩]) hanswer
  rw [Source.fetch, Source.fetch, Cursor.fetch, Cursor.fetch]
  refine Alike.bind ?_ fun planned => ?_
  · rw [Cursor.planned, Cursor.planned]
    cases c.request with
    | some kept => exact Alike.pure _
    | none => exact hplan
  · cases planned with
    | error e => exact Alike.pure _
    | ok planned => exact (hexecute _).bind fun answer => Alike.pure _

/-- A cursor cannot tell two such sources apart. -/
theorem Cursor.pull_alike (h : a.Matches R b) (deadline : Option Nat) (pages : Nat) (c : Cursor) :
    Alike (Logged R) (c.pull (a.fetch deadline) pages) (c.pull (b.fetch deadline) pages) := by
  rcases next_cases c with ⟨item, _, hnext⟩ | ⟨_, ⟨completion, hnext⟩ | hnext⟩
  · rw [pull_of_item _ _ hnext, pull_of_item _ _ hnext]
    exact Alike.pure _
  · rw [pull_of_complete _ _ hnext, pull_of_complete _ _ hnext]
    exact Alike.pure _
  · cases pages with
    | zero =>
        rw [pull_zero _ hnext, pull_zero _ hnext]
        exact Alike.pure _
    | succ pages =>
        rw [pull, pull, hnext]
        refine (h.fetch deadline c).bind fun answer => ?_
        cases answer with
        | error e => exact Alike.pure _
        | ok received => exact pull_alike h deadline pages (c.receive received.1 received.2)

namespace Delivery

/-- Two cursors in use differ only in the states of their sources, which are related. -/
structure Agrees (R : σ → τ → Prop) (d : Delivery σ α) (e : Delivery τ α) : Prop where
  cursor_eq : d.cursor = e.cursor
  state : R d.state e.state
  exchanges_eq : d.exchanges = e.exchanges
  handed_eq : d.handed = e.handed

variable {d : Delivery σ α} {e : Delivery τ α} (decode : Item → Except CodecError α)

theorem step_agrees (hsource : a.Matches R b) (h : d.Agrees R e) (call : CursorCall) :
    (d.step a decode call).Agrees R (e.step b decode call) := by
  cases call with
  | pull deadline pages =>
      rcases Cursor.pull_alike hsource deadline pages d.cursor (d.state, d.exchanges)
        (e.state, e.exchanges) ⟨h.state, h.exchanges_eq⟩ with ⟨hgiven, hleft, hexchanges⟩
      rw [step, step, ← h.cursor_eq]
      refine ⟨congrArg Prod.snd hgiven, hleft, hexchanges, ?_⟩
      rw [h.handed_eq]
      exact congrArg (fun pulled : Cursor.Pull × Cursor =>
        e.handed ++ [⟨pulled.1.item?, pulled.1.record decode⟩]) hgiven
  | setMaxPages n => exact ⟨by rw [step, step, h.cursor_eq], h.state, h.exchanges_eq, h.handed_eq⟩
  | setLimit n => exact ⟨by rw [step, step, h.cursor_eq], h.state, h.exchanges_eq, h.handed_eq⟩

theorem foldl_agrees (hsource : a.Matches R b) (h : d.Agrees R e) (calls : List CursorCall) :
    (calls.foldl (step a decode) d).Agrees R (calls.foldl (step b decode) e) := by
  induction calls generalizing d e with
  | nil => exact h
  | cons call rest ih => exact ih (step_agrees decode hsource h call)

end Delivery

end

end WideColumn
