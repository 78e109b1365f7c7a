import Eveboros.Lib.Outcome

/-!
# Interaction scripts

A script asks one question after the other, each depending on the answers so far, and ends with a
result.  Whoever serves it changes a state and may fail; it answers at once, or lets the script
wait for the answer.
-/

universe u v w x

inductive Script (ρ : Type u) (σ : Type v) (α : Type w)
  | done (a : α)
  | ask (question : ρ) (next : σ → Script ρ σ α)

namespace Script

variable {ρ ρ' : Type u} {σ : Type v} {α β : Type w}

def bind : Script ρ σ α → (α → Script ρ σ β) → Script ρ σ β
  | .done a, rest => rest a
  | .ask question next, rest => .ask question fun answer => (next answer).bind rest

def request (question : ρ) : Script ρ σ σ := .ask question .done

/-- Ask other questions in the place of these. -/
def relabel (f : ρ → ρ') : Script ρ σ α → Script ρ' σ α
  | .done a => .done a
  | .ask question next => .ask (f question) fun answer => (next answer).relabel f

theorem relabel_bind (f : ρ → ρ') (s : Script ρ σ α) (rest : α → Script ρ σ β) :
    (s.bind rest).relabel f = (s.relabel f).bind fun a => (rest a).relabel f := by
  induction s with
  | done a => rfl
  | ask question next ih => exact congrArg (ask (f question)) (funext ih)

/-- Where a script that is being served has got to. -/
inductive Paused (ρ : Type u) (σ : Type v) (α : Type w)
  | done (a : α)
  | waiting (next : σ → Script ρ σ α)

def Paused.relabel (f : ρ → ρ') : Paused ρ σ α → Paused ρ' σ α
  | .done a => .done a
  | .waiting next => .waiting fun answer => (next answer).relabel f

variable {τ τ' ε : Type x} {serve : τ → ρ → Except ε (τ × Option σ)}

/-- Serve the script until it is done or has to wait. -/
def play (serve : τ → ρ → Except ε (τ × Option σ)) :
    Script ρ σ α → τ → Except ε (τ × Paused ρ σ α)
  | .done a, s => .ok (s, .done a)
  | .ask question next, s =>
      match serve s question with
      | .error e => .error e
      | .ok (s', some answer) => (next answer).play serve s'
      | .ok (s', none) => .ok (s', .waiting next)

/-- Two servers that agree on the relabelled questions serve the relabelled scripts alike. -/
theorem play_relabel {serve' : τ' → ρ' → Except ε (τ' × Option σ)} {f : ρ → ρ'} {g : τ → τ'}
    (hserve : ∀ s question,
      serve' (g s) (f question) = (serve s question).map fun out => (g out.1, out.2))
    (script : Script ρ σ α) (s : τ) : (script.relabel f).play serve' (g s) =
      (script.play serve s).map fun out => (g out.1, out.2.relabel f) := by
  induction script generalizing s with
  | done a => rfl
  | ask question next ih =>
      simp only [relabel, play, hserve]
      cases serve s question with
      | error e => rfl
      | ok out =>
          rcases out with ⟨s', _ | answer⟩
          · rfl
          · exact ih answer s'

/-- What every answer preserves, a script preserves. -/
theorem play_keeps {Q : τ → Prop} (keep : ∀ {s s' question answer}, Q s →
      serve s question = .ok (s', answer) → Q s')
    {script : Script ρ σ α} {s s' : τ} {paused : Paused ρ σ α} (hq : Q s)
    (h : script.play serve s = .ok (s', paused)) : Q s' := by
  induction script generalizing s with
  | done a =>
      cases h
      exact hq
  | ask question next ih =>
      simp only [play] at h
      split at h
      · cases h
      · exact ih _ (keep hq ‹_›) h
      · cases h
        exact keep hq ‹_›

end Script
