/-
# Computations that change a state and may fail

What one computation behind another does, said once for every property of computations that the
evaluation of nodes is shown to have.  A failure ends the computation and keeps the state in which
it happens.
-/
import Brace.Eval.Environment

namespace Brace.EvalM

variable {σ τ : Type} {α β : Type}

/-! ## One computation behind another -/

/-- The second computation starts in the state that the first one leaves, if this succeeds. -/
theorem run_bind (x : EvalM σ α) (k : α → EvalM σ β) (s : σ) :
    (x >>= k).run.run s =
      match x.run.run s with
      | (.error e, t) => (.error e, t)
      | (.ok a, t) => (k a).run.run t := by
  rw [ExceptT.run_bind, StateT.run_bind]
  obtain ⟨r, t⟩ := x.run.run s
  cases r with
  | error e => rfl
  | ok a => rfl

/-- Both parts of a computation that succeeds have succeeded. -/
theorem exists_of_run_bind_eq_ok {x : EvalM σ α} {k : α → EvalM σ β} {s u : σ} {b : β}
    (h : (x >>= k).run.run s = (.ok b, u)) :
    ∃ a t, x.run.run s = (.ok a, t) ∧ (k a).run.run t = (.ok b, u) := by
  rw [run_bind] at h
  generalize x.run.run s = r at h ⊢
  obtain ⟨answer, t⟩ := r
  cases answer with
  | error e => cases (Prod.mk.inj h).1
  | ok a => exact ⟨a, t, rfl, h⟩

/-! ## Where computations lead -/

/-- A relation holds between the state in which the computation begins and the one that it
leaves. -/
def Leads (T : σ → σ → Prop) (x : EvalM σ α) : Prop := ∀ s, T s (x.run.run s).2

/-- A computation behind another leads on from where the first one stopped, if leading is
transitive. -/
theorem Leads.bind {T : σ → σ → Prop} (htrans : ∀ {s t u}, T s t → T t u → T s u)
    {x : EvalM σ α} {k : α → EvalM σ β} (h : Leads T x) (hk : ∀ a, Leads T (k a)) :
    Leads T (x >>= k) := by
  intro s
  have hx := h s
  rw [run_bind]
  generalize x.run.run s = r at hx ⊢
  obtain ⟨answer, t⟩ := r
  -- A failure leaves the state in which the first computation ends.
  cases answer with
  | error e => exact hx
  | ok a => exact htrans hx (hk a t)

/-! ## How computations fail -/

/-- The computation fails only with errors of a kind. -/
def FailsOnly (E : EvalError → Prop) (x : EvalM σ α) : Prop :=
  ∀ s e, (x.run.run s).1 = .error e → E e

theorem FailsOnly.pure {E : EvalError → Prop} (a : α) : FailsOnly E (pure a : EvalM σ α) := by
  intro s e h
  cases h

theorem FailsOnly.throw {E : EvalError → Prop} {e : EvalError} (h : E e) :
    FailsOnly E (throw e : EvalM σ α) := by
  intro s e' he
  cases he
  exact h

/-- The failures of two computations in a row are those of the one and those of the other. -/
theorem FailsOnly.bind {E : EvalError → Prop} {x : EvalM σ α} {k : α → EvalM σ β}
    (h : FailsOnly E x) (hk : ∀ a, FailsOnly E (k a)) : FailsOnly E (x >>= k) := by
  intro s e he
  have hx := h s
  rw [run_bind] at he
  generalize x.run.run s = r at hx he
  obtain ⟨answer, t⟩ := r
  -- The error is that of the first computation, or of the second one, which was reached then.
  cases answer with
  | error e' =>
    obtain rfl := Except.error.inj he
    exact hx e' rfl
  | ok a => exact hk a t e he

/-! ## Computations through a map of states -/

/-- Both computations have the same answers, and `f` takes the states of the first to those of the
second. -/
def Maps (f : σ → τ) (x : EvalM σ α) (y : EvalM τ α) : Prop :=
  ∀ s, y.run.run (f s) = (x.run.run s).map id f

variable {f : σ → τ}

theorem Maps.pure (a : α) : Maps f (pure a) (pure a) := fun _ => rfl

theorem Maps.throw (e : EvalError) : Maps f (throw e : EvalM σ α) (throw e) := fun _ => rfl

/-- Computations that correspond answer alike, so what comes behind them corresponds as well. -/
theorem Maps.bind {x : EvalM σ α} {y : EvalM τ α} {k : α → EvalM σ β} {l : α → EvalM τ β}
    (h : Maps f x y) (hk : ∀ a, Maps f (k a) (l a)) : Maps f (x >>= k) (y >>= l) := by
  intro s
  rw [run_bind, run_bind, h s]
  obtain ⟨r, t⟩ := x.run.run s
  cases r with
  | error e => rfl
  | ok a => exact hk a t

/-! ## Computations without effect -/

/-- The computation succeeds and changes nothing. -/
def Silent (x : EvalM σ α) : Prop := ∀ s, ∃ a, x.run.run s = (.ok a, s)

theorem Silent.pure (a : α) : Silent (pure a : EvalM σ α) := fun _ => ⟨a, rfl⟩

/-- Two computations in a row change nothing if neither of them does. -/
theorem Silent.bind {x : EvalM σ α} {k : α → EvalM σ β} (h : Silent x) (hk : ∀ a, Silent (k a)) :
    Silent (x >>= k) := by
  intro s
  obtain ⟨a, ha⟩ := h s
  obtain ⟨b, hb⟩ := hk a s
  refine ⟨b, ?_⟩
  rw [run_bind, ha]
  exact hb

/-- A computation without effect may be left out if its value is not used. -/
theorem Silent.bind_const {x : EvalM σ α} (h : Silent x) (y : EvalM σ β) :
    (x >>= fun _ => y) = y := by
  refine funext fun s => ?_
  obtain ⟨a, ha⟩ := h s
  have hrun : (x >>= fun _ => y).run.run s = y.run.run s := by rw [run_bind, ha]
  exact hrun

end Brace.EvalM
