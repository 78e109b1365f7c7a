import Mathlib.Init

/-!
# Inverting computations that may fail

Peel a successful or failed `Except` computation apart without unfolding its monad.
-/

namespace Except

universe u v w

variable {ε : Type u} {ε' : Type w} {α β : Type v}

theorem ok_bind (a : α) (f : α → Except ε β) : (Except.ok a >>= f) = f a := rfl

theorem error_bind (e : ε) (f : α → Except ε β) : (Except.error e >>= f) = .error e := rfl

theorem pure_eq_ok (a : α) : (pure a : Except ε α) = .ok a := rfl

theorem bind_eq_ok {x : Except ε α} {f : α → Except ε β} {b : β} :
    (x >>= f) = .ok b ↔ ∃ a, x = .ok a ∧ f a = .ok b := by
  cases x <;> simp [ok_bind, error_bind]

theorem bind_eq_error {x : Except ε α} {f : α → Except ε β} {e : ε} :
    (x >>= f) = .error e ↔ x = .error e ∨ ∃ a, x = .ok a ∧ f a = .error e := by
  cases x <;> simp [ok_bind, error_bind]

theorem mapError_ok (f : ε → ε') (a : α) : (Except.ok a : Except ε α).mapError f = .ok a := rfl

theorem mapError_error (f : ε → ε') (e : ε) :
    (Except.error e : Except ε α).mapError f = .error (f e) := rfl

theorem mapError_eq_ok {f : ε → ε'} {x : Except ε α} {a : α} :
    x.mapError f = .ok a ↔ x = .ok a := by
  cases x <;> simp [mapError_ok, mapError_error]

theorem mapError_eq_error {f : ε → ε'} {x : Except ε α} {e : ε'} :
    x.mapError f = .error e ↔ ∃ e', x = .error e' ∧ f e' = e := by
  cases x <;> simp [mapError_ok, mapError_error]

/-! ## Relabelled results -/

theorem map_of_ok (f : α → β) (a : α) : (Except.ok a : Except ε α).map f = .ok (f a) := rfl

theorem map_of_error (f : α → β) (e : ε) : (Except.error e : Except ε α).map f = .error e := rfl

theorem mapError_map (x : Except ε α) (f : α → β) (g : ε → ε') :
    (x.map f).mapError g = (x.mapError g).map f := by
  cases x <;> rfl

/-- Relabelling the first result of a computation relabels its outcome, if the rest agrees. -/
theorem bind_relabel {γ δ : Type v} {x : Except ε α} {f : α → β} {g : β → Except ε δ}
    {k : α → Except ε γ} {f' : γ → δ} (h : ∀ a, g (f a) = (k a).map f') :
    (x.map f >>= g) = (x >>= k).map f' := by
  cases x with
  | error e => rfl
  | ok a => exact h a

theorem bind_relabel_right {γ δ : Type v} {x : Except ε α} {g : α → Except ε δ}
    {k : α → Except ε γ} {f' : γ → δ} (h : ∀ a, g a = (k a).map f') :
    (x >>= g) = (x >>= k).map f' := by
  cases x with
  | error e => rfl
  | ok a => exact h a

end Except
