import Eveboros.Machine.Sound

/-!
# Invariants of runs

`Visited P c` says that elementary changes made under the condition `P` lead from a fresh loop to
`c`.  It covers the configurations that runs reach as well as those inside a gather, where the
loop may still panic, and its induction is the one that every invariant uses: a lemma about one
elementary change becomes a fact about all runs.
-/

namespace Eveboros.Config

variable {Ev : Type}

inductive Visited (P : Config Ev → Action Ev → Prop) : Config Ev → Prop
  | start (now : Nat) : Visited P (init now)
  | edit {a : Action Ev} {c c' : Config Ev} : Visited P c → P c a → Edit a c c' → Visited P c'

abbrev Anything : Config Ev → Action Ev → Prop := fun _ _ => True

/-- A condition that still holds in the middle of a gather if it held at its beginning. -/
def GatherStable (P : Config Ev → Action Ev → Prop) : Prop :=
  ∀ c c' env, P c (.gather env) → Edit (.gather env) c c' → P c' (.gather env)

variable {P P' : Config Ev → Action Ev → Prop} {c c' : Config Ev} {a : Action Ev}

theorem GatherStable.of_forall (h : ∀ c env, P c (.gather env)) : GatherStable P :=
  fun _ c' env _ _ => h c' env

theorem gatherStable_anything : GatherStable (Anything : Config Ev → Action Ev → Prop) :=
  .of_forall fun _ _ => trivial

/-! ## From elementary changes to steps -/

section Keep

variable {Q : Config Ev → Prop}

/-- What each elementary change of a gather preserves holds all the way through it. -/
theorem keep_edits {env : GatherEnv} (stable : GatherStable P)
    (keep : ∀ c c', Q c → P c (.gather env) → Edit (.gather env) c c' → Q c') (hq : Q c)
    (hp : P c (.gather env)) (he : Edits (.gather env) c c') : Q c' ∧ P c' (.gather env) := by
  induction he with
  | refl => exact ⟨hq, hp⟩
  | tail _ hlast ih => exact ⟨keep _ _ ih.1 ih.2 hlast, stable _ _ env ih.2 hlast⟩

/-- What elementary changes preserve, steps preserve. -/
theorem keep_step (stable : GatherStable P) (keep : ∀ c c', Q c → P c a → Edit a c c' → Q c')
    (hq : Q c) (hp : P c a) (hs : c.step a = .ok c') : Q c' := by
  rcases step_cases hs with ⟨env, rfl⟩ | e
  · exact (keep_edits stable keep hq hp (gather_edits hs)).1
  · exact keep _ _ hq hp e

/-- Where a step panics: at `c` itself or, for a gather, further on. -/
theorem keep_fail (stable : GatherStable P)
    (keep : ∀ env c c', Q c → P c (.gather env) → Edit (.gather env) c c' → Q c') (hq : Q c)
    (hp : P c a) {p : Panic} (hs : c.step a = .error (.panic p)) :
    ∃ c', Q c' ∧ P c' a ∧ Fail a c' p := by
  rcases fail_cases hs with ⟨env, rfl⟩ | hfail
  · obtain ⟨c', hedits, hfail⟩ := gather_fails hs
    obtain ⟨hq', hp'⟩ := keep_edits stable (keep env) hq hp hedits
    exact ⟨c', hq', hp', hfail⟩
  · exact ⟨c, hq, hp, hfail⟩

end Keep

/-- What no elementary change of a gather changes is the same after it. -/
theorem edits_frame {β : Type*} {env : GatherEnv} (f : Config Ev → β)
    (hf : ∀ c c' : Config Ev, Edit (.gather env) c c' → f c' = f c)
    (he : Edits (.gather env) c c') : f c' = f c :=
  (keep_edits gatherStable_anything (fun _ _ heq _ e => (hf _ _ e).trans heq) rfl trivial he).1

theorem gather_frame {β : Type*} {env : GatherEnv} (f : Config Ev → β)
    (hf : ∀ c c' : Config Ev, Edit (.gather env) c c' → f c' = f c)
    (h : c.step (.gather env) = .ok c') : f c' = f c :=
  edits_frame f hf (gather_edits h)

namespace Visited

theorem mono (h : Visited P c) (weaker : ∀ c a, P c a → P' c a) : Visited P' c := by
  induction h with
  | start now => exact .start now
  | edit _ hp he ih => exact .edit ih (weaker _ _ hp) he

theorem any (h : Visited P c) : Visited Anything c := h.mono fun _ _ _ => trivial

/-- The configurations inside a gather are visited as well. -/
theorem gather_edits {env : GatherEnv} (h : Visited Anything c)
    (he : Edits (.gather env) c c') : Visited Anything c' :=
  (keep_edits gatherStable_anything (fun _ _ => .edit) h trivial he).1

theorem step (stable : GatherStable P) (h : Visited P c) (hp : P c a) (hs : c.step a = .ok c') :
    Visited P c' := keep_step stable (fun _ _ => .edit) h hp hs

theorem of_reach (stable : GatherStable P) {now : Nat}
    (h : TransitionSystem.Reach Config.step P (init now) c) : Visited P c :=
  h.invariant (.start now) fun _ _ _ hv hp hs => hv.step stable hp hs

end Visited

theorem Reachable.visited (h : Reachable c) : Visited Anything c := by
  rcases h with ⟨now, h⟩
  exact .of_reach gatherStable_anything h

/-- Where the actions lead from a fresh loop; nowhere if one of them fails. -/
def after (now : Nat) (as : List (Action Ev)) : Config Ev :=
  match TransitionSystem.run Config.step (init now) as with
  | .ok c => c
  | .error _ => init now

theorem reachable_after (now : Nat) (as : List (Action Ev)) : Reachable (after now as) := by
  unfold after
  split
  · exact ⟨now, .of_run ‹_›⟩
  · exact ⟨now, .start⟩

/-- The same under a condition, which is checked by performing the run. -/
theorem reach_after {P : Config Ev → Action Ev → Prop} {p : Config Ev → Action Ev → Bool}
    {now : Nat} (as : List (Action Ev)) (hp : ∀ c a, p c a = true → P c a)
    (h : TransitionSystem.alongBool Config.step p (init now) as = true) :
    TransitionSystem.Reach Config.step P (init now) (after now as) := by
  unfold after
  split
  · exact .of_alongBool hp ‹_› h
  · exact .start

/-- The last of the actions is a step. -/
theorem step_after {now : Nat} {as : List (Action Ev)} {a : Action Ev}
    (h : (TransitionSystem.run Config.step (init now) (as ++ [a])).isOk = true) :
    (after now as).step a = .ok (after now (as ++ [a])) := by
  cases hlast : TransitionSystem.run Config.step (init now) (as ++ [a]) with
  | error e => simp [hlast, Except.isOk, Except.toBool] at h
  | ok c' =>
      obtain ⟨c, hrun, hstep⟩ := TransitionSystem.run_concat_eq_ok.mp hlast
      simp only [after, hrun, hlast, hstep]

theorem Reachable.step (h : Reachable c) (hs : c.step a = .ok c') : Reachable c' := by
  rcases h with ⟨now, h⟩
  exact ⟨now, h.next trivial hs⟩

theorem Reachable.reach (h : Reachable c) (hr : TransitionSystem.Reach Config.step P c c') :
    Reachable c' :=
  hr.invariant h fun _ _ _ ih _ hs => ih.step hs

theorem Reachable.fail (h : Reachable c) {p : Panic} (hs : c.step a = .error (.panic p)) :
    ∃ c', Visited Anything c' ∧ Fail a c' p := by
  obtain ⟨c', hv, _, hfail⟩ :=
    keep_fail gatherStable_anything (fun _ _ _ => .edit) h.visited trivial hs
  exact ⟨c', hv, hfail⟩

end Eveboros.Config
