import Mathlib.Logic.Relation

/-!
# Deterministic transition systems that may fail

A system is a function `step : σ → α → Except ε σ`: the action names every choice of the
environment, so one state and one action give one outcome.  The rules below turn what a single
step preserves into what holds along a whole run, for runs whose steps all meet a condition.
-/

namespace TransitionSystem

variable {σ α ε : Type*} (step : σ → α → Except ε σ)

/-- Perform the actions in order, stopping at the first failure. -/
def run : σ → List α → Except ε σ
  | s, [] => .ok s
  | s, a :: as =>
      match step s a with
      | .ok s' => run s' as
      | .error e => .error e

/-- The states reached from `s₀` by steps that all satisfy `P`. -/
inductive Reach (P : σ → α → Prop) (s₀ : σ) : σ → Prop
  | start : Reach P s₀ s₀
  | next {s s' : σ} {a : α} : Reach P s₀ s → P s a → step s a = .ok s' → Reach P s₀ s'

/-- Every state that the run visits satisfies `Q`. -/
def Always (Q : σ → Prop) : σ → List α → Prop
  | s, [] => Q s
  | s, a :: as => Q s ∧ ∀ s', step s a = .ok s' → Always Q s' as

/-- Every step that the run takes satisfies `P`. -/
def Along (P : σ → α → Prop) : σ → List α → Prop
  | _, [] => True
  | s, a :: as => ∀ s', step s a = .ok s' → P s a ∧ Along P s' as

def alongBool (p : σ → α → Bool) : σ → List α → Bool
  | _, [] => true
  | s, a :: as =>
      match step s a with
      | .ok s' => p s a && alongBool p s' as
      | .error _ => true

variable {step}

theorem run_cons {s s' : σ} {a : α} (h : step s a = .ok s') (as : List α) :
    run step s (a :: as) = run step s' as := by
  simp [run, h]

theorem run_append (s : σ) (as bs : List α) :
    run step s (as ++ bs) = (run step s as).bind fun s' => run step s' bs := by
  induction as generalizing s with
  | nil => rfl
  | cons a as ih =>
      cases h : step s a with
      | ok s' => simpa [run, h] using ih s'
      | error e => simp [run, h, Except.bind]

/-- A run ends with its last step. -/
theorem run_concat_eq_ok {s s' : σ} {as : List α} {a : α} :
    run step s (as ++ [a]) = .ok s' ↔ ∃ t, run step s as = .ok t ∧ step t a = .ok s' := by
  rw [run_append]
  cases run step s as with
  | error e => simp [Except.bind]
  | ok t => cases hstep : step t a <;> simp [Except.bind, run, hstep]

/-! ## Invariants -/

/-- What the start satisfies and every admitted step preserves holds in every reached state. -/
theorem Reach.invariant {P : σ → α → Prop} {s₀ s : σ} {Q : σ → Prop} (h : Reach step P s₀ s)
    (start : Q s₀) (keep : ∀ s s' a, Q s → P s a → step s a = .ok s' → Q s') : Q s := by
  induction h with
  | start => exact start
  | next _ hp hs ih => exact keep _ _ _ ih hp hs

theorem Reach.trans {P : σ → α → Prop} {s₀ s s' : σ} (h : Reach step P s₀ s)
    (h' : Reach step P s s') : Reach step P s₀ s' :=
  h'.invariant h fun _ _ _ ih hp hs => .next ih hp hs

theorem Reach.mono {P P' : σ → α → Prop} {s₀ s : σ} (weaker : ∀ s a, P s a → P' s a)
    (h : Reach step P s₀ s) : Reach step P' s₀ s :=
  h.invariant .start fun _ _ _ ih hp hs => .next ih (weaker _ _ hp) hs

/-- A run that has been checked step by step. -/
theorem Reach.of_alongBool {P : σ → α → Prop} {p : σ → α → Bool} {s s' : σ} {as : List α}
    (hp : ∀ s a, p s a = true → P s a) (h : run step s as = .ok s')
    (hb : alongBool step p s as = true) : Reach step P s s' := by
  induction as generalizing s with
  | nil =>
      cases h
      exact .start
  | cons a as ih =>
      cases hs : step s a with
      | ok t =>
          rw [run_cons hs] at h
          simp only [alongBool, hs, Bool.and_eq_true] at hb
          exact (Reach.next .start (hp s a hb.1) hs).trans (ih h hb.2)
      | error e => simp [run, hs] at h

/-- A run of actions that are admitted in every state. -/
theorem Reach.of_run_forall {P : σ → α → Prop} {s s' : σ} {as : List α}
    (hp : ∀ a ∈ as, ∀ s, P s a) (h : run step s as = .ok s') : Reach step P s s' := by
  induction as generalizing s with
  | nil =>
      cases h
      exact .start
  | cons a as ih =>
      cases hs : step s a with
      | ok t =>
          rw [run_cons hs] at h
          exact (Reach.next .start (hp a List.mem_cons_self s) hs).trans
            (ih (fun b hb => hp b (List.mem_cons_of_mem _ hb)) h)
      | error e => simp [run, hs] at h

/-- The end of a run is reached by unconditional steps. -/
theorem Reach.of_run {s s' : σ} {as : List α} (h : run step s as = .ok s') :
    Reach step (fun _ _ => True) s s' :=
  .of_run_forall (fun _ _ _ => trivial) h

/-- Where the actions lead from a state; nowhere if one of them fails. -/
def landing (step : σ → α → Except ε σ) (s : σ) (as : List α) : σ :=
  match run step s as with
  | .ok s' => s'
  | .error _ => s

theorem reach_landing {P : σ → α → Prop} {p : σ → α → Bool} {s : σ} (as : List α)
    (hp : ∀ s a, p s a = true → P s a) (h : alongBool step p s as = true) :
    Reach step P s (landing step s as) := by
  unfold landing
  split
  · exact .of_alongBool hp ‹_› h
  · exact .start

/-- An invariant holds in every state that a run visits. -/
theorem Always.of_invariant {Q : σ → Prop} (keep : ∀ s s' a, Q s → step s a = .ok s' → Q s') :
    ∀ (as : List α) (s : σ), Q s → Always step Q s as := by
  intro as
  induction as with
  | nil => intro s hq; exact hq
  | cons a as ih =>
      intro s hq
      exact ⟨hq, fun s' hs => ih s' (keep s s' a hq hs)⟩

/-! ## Two systems that do the same -/

/-- If every step of one system is a step of the other under other names, then so is every run. -/
theorem run_relabel {τ β : Type*} {step' : τ → β → Except ε τ} {f : σ → τ} {g : α → β}
    {I : σ → Prop} (keep : ∀ s s' a, I s → step s a = .ok s' → I s')
    (same : ∀ s a, I s → step' (f s) (g a) = (step s a).map f) :
    ∀ (as : List α) (s : σ), I s → run step' (f s) (as.map g) = (run step s as).map f := by
  intro as
  induction as with
  | nil => intro s _; rfl
  | cons a as ih =>
      intro s hi
      simp only [List.map_cons, run, same s a hi]
      cases hs : step s a with
      | error e => rfl
      | ok s' => exact ih s' (keep s s' a hi hs)

/-! ## Observers -/

/-- The system together with an observer that takes notes of its steps. -/
def observed {γ : Type*} (step : σ → α → Except ε σ) (note : σ → α → σ → γ → γ) (s : σ × γ)
    (a : α) : Except ε (σ × γ) :=
  match step s.1 a with
  | .ok t => .ok (t, note s.1 a t s.2)
  | .error e => .error e

section Observed

variable {γ : Type*} {note : σ → α → σ → γ → γ} {s s' s₀ : σ × γ} {a : α}

theorem observed_eq_ok : observed step note s a = .ok s' ↔
    step s.1 a = .ok s'.1 ∧ s'.2 = note s.1 a s'.1 s.2 := by
  rcases s' with ⟨t, g⟩
  unfold observed
  cases h : step s.1 a with
  | error e => simp
  | ok t' =>
      simp only [Except.ok.injEq, Prod.mk.injEq]
      constructor
      · rintro ⟨rfl, rfl⟩
        exact ⟨rfl, rfl⟩
      · rintro ⟨rfl, rfl⟩
        exact ⟨rfl, rfl⟩

end Observed

/-! ## Exact conditions

When a step from a good state leads to a good state exactly if it satisfies `P`, a run stays
among the good states exactly if all of its steps satisfy `P`.  The context `C` is an invariant
that needs no condition. -/

theorem always_iff_along {P : σ → α → Prop} {C Q : σ → Prop}
    (context : ∀ s s' a, C s → step s a = .ok s' → C s')
    (exact_step : ∀ s s' a, C s → Q s → step s a = .ok s' → (Q s' ↔ P s a)) :
    ∀ (as : List α) (s : σ), C s → Q s → (Always step Q s as ↔ Along step P s as) := by
  intro as
  induction as with
  | nil => intro s _ hq; simpa [Always, Along] using hq
  | cons a as ih =>
      intro s hc hq
      simp only [Always, Along, hq, true_and]
      refine forall_congr' fun s' => forall_congr' fun hs => ?_
      have hc' := context s s' a hc hs
      have hiff := exact_step s s' a hc hq hs
      constructor
      · intro hall
        have hq' : Q s' := by cases as <;> simp_all [Always]
        exact ⟨hiff.mp hq', (ih s' hc' hq').mp hall⟩
      · intro h
        rcases h with ⟨hp, hall⟩
        exact (ih s' hc' (hiff.mpr hp)).mpr hall

end TransitionSystem
