import QueryFold.Proofs.Chain.Run
import Mathlib.Tactic.SplitIfs

/-!
# Runs side by side

Two computations run side by side from related states. They are coupled if they end alike: both
with related values or both with related errors, and in related states. The first one may also
stop early, for an error that is excused; what the second one does is then left open.

A coupling of compound computations is put together from couplings of their parts.
-/

namespace QueryFold

variable {σ τ ε α β γ δ : Type}

/-- What is asked of two runs side by side. -/
structure Coupling (σ τ ε : Type) where
  /-- The states that belong together. -/
  states : σ → τ → Prop
  /-- The errors with which both runs may fail. -/
  shared : ε → Prop
  /-- The errors for which the first run may stop early. -/
  excused : ε → Prop

namespace Coupling

/-- Two results, with the states they leave, that belong together. -/
inductive Ends (C : Coupling σ τ ε) (values : α → β → Prop) :
    Except ε α × σ → Except ε β × τ → Prop where
  /-- Both runs yield values. -/
  | values {a : α} {b : β} {s : σ} {t : τ} (related : values a b) (states : C.states s t) :
      Ends C values (.ok a, s) (.ok b, t)
  /-- Both runs fail with the same error. -/
  | failure {e : ε} {s : σ} {t : τ} (shared : C.shared e) (states : C.states s t) :
      Ends C values (.error e, s) (.error e, t)
  /-- The first run stops early. -/
  | excused {e : ε} {s : σ} {r : Except ε β × τ} (excused : C.excused e) :
      Ends C values (.error e, s) r

/-- From states that belong together the computations end in results that belong together. -/
def Couples (C : Coupling σ τ ε) (values : α → β → Prop) (x : ExceptT ε (StateM σ) α)
    (y : ExceptT ε (StateM τ) β) : Prop :=
  ∀ s t, C.states s t → C.Ends values (execute x s) (execute y t)

namespace Couples

variable {C : Coupling σ τ ε} {values : α → β → Prop} {values' : γ → δ → Prop}

theorem pure {a : α} {b : β} (h : values a b) :
    C.Couples values (Pure.pure a) (Pure.pure b) :=
  fun _ _ states => .values h states

theorem throw {e : ε} (h : C.shared e) : C.Couples values (throw e) (throw e) :=
  fun _ _ states => .failure h states

theorem get : C.Couples C.states get get := fun _ _ states => .values states states

theorem modify {f : σ → σ} {g : τ → τ} (h : ∀ s t, C.states s t → C.states (f s) (g t)) :
    C.Couples Eq (modify f) (modify g) :=
  fun s t states => .values rfl (h s t states)

/-- A result that does not depend on the state. -/
theorem lift {x : Except ε α} (h : ∀ e, x = .error e → C.shared e) :
    C.Couples Eq (liftM x) (liftM x) := by
  intro s t states
  rw [execute_lift, execute_lift]
  cases x with
  | ok a => exact .values rfl states
  | error e => exact .failure (h e rfl) states

theorem bind {x : ExceptT ε (StateM σ) α} {y : ExceptT ε (StateM τ) β}
    {f : α → ExceptT ε (StateM σ) γ} {g : β → ExceptT ε (StateM τ) δ}
    (first : C.Couples values x y) (rest : ∀ a b, values a b → C.Couples values' (f a) (g b)) :
    C.Couples values' (x >>= f) (y >>= g) := by
  intro s t states
  have ends := first s t states
  rw [execute_bind, execute_bind]
  generalize execute x s = r, execute y t = r' at ends ⊢
  cases ends with
  | values related states' => exact rest _ _ related _ _ states'
  | failure shared states' => exact .failure shared states'
  | excused h => exact .excused h

/-- A check that is made in some cases only. -/
theorem check {c : Prop} [Decidable c] {x : Except ε PUnit}
    {f : PUnit → ExceptT ε (StateM σ) γ} {g : PUnit → ExceptT ε (StateM τ) δ}
    (h : ∀ e, x = .error e → C.shared e) (rest : ∀ u, C.Couples values' (f u) (g u)) :
    C.Couples values' (if c then liftM x >>= f else f ⟨⟩) (if c then liftM x >>= g else g ⟨⟩) := by
  split_ifs
  · exact bind (lift h) fun u _ same => same ▸ rest u
  · exact rest ⟨⟩

/-- If the first run fails with an error that the second one need not share, it is excused. -/
theorem excused_of_fails {x : ExceptT ε (StateM σ) α} {y : ExceptT ε (StateM τ) β} {s : σ} {t : τ}
    {e : ε} (h : C.Couples values x y) (states : C.states s t) (fails : Fails x s e)
    (own : ¬ C.shared e) : C.excused e := by
  have ends := h s t states
  rw [Fails] at fails
  generalize execute x s = r, execute y t = r' at ends fails
  cases ends with
  | values _ _ => cases fails
  | failure shared _ => exact absurd (Except.error.inj fails ▸ shared) own
  | excused h => exact Except.error.inj fails ▸ h

end Couples

end Coupling

end QueryFold
