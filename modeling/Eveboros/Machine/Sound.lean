import Eveboros.Machine.Gathering
import Eveboros.Machine.Operations

/-!
# Every step is made of elementary changes

`step_edit` and `gather_edits` tie the relation `Edit` to the function `step`, and `fail_cases` and
`gather_fails` tie `Fail` to it.  Invariants are proved by these alone.
-/

namespace Eveboros.Config

open Loop

variable {Ev : Type}

/-- The outcome of a step other than a gather. -/
def Explained (a : Action Ev) (c : Config Ev) : Except Fault (Config Ev) → Prop
  | .ok c' => Edit a c c'
  | .error .disabled => True
  | .error (.panic p) => Fail a c p

theorem Sound.explained {a : Action Ev} {c : Config Ev} {x : Except Panic (Config Ev)}
    (h : Sound a c x) : Explained a c (x.mapError .panic) := by
  cases x <;> exact h

theorem callOp_explained (c : Config Ev) (op : Op Ev) (hctl : c.ctl = .user) :
    Explained (.call op) c (c.callOp op) := by
  cases op with
  | iface op => exact (callIface_sound c op hctl).explained
  | scope op =>
      cases hcaller : c.caller with
      | none => simp [callOp, hcaller, Explained]
      | some handle =>
          simp only [callOp, hcaller]
          exact (callScope_sound c handle op hctl hcaller).explained
  | owner op =>
      cases hcaller : c.caller with
      | some handle => simp [callOp, hcaller, Explained]
      | none =>
          simp only [callOp, hcaller]
          exact (callOwner_sound c op hctl).explained

theorem finish_explained (c : Config Ev) (event : Ev) (resp : Response) (hctl : c.ctl = .user) :
    Explained (.finish event resp) c (c.step (.finish event resp)) := by
  simp only [step, hctl]
  split
  · rename_i handle cb data rest _ hstack
    cases hget : c.loop.events.get? handle.id with
    | none =>
        obtain ⟨e, he⟩ := Recycler.index_of_none hget
        simp only [eventCallLeave, he, Except.error_bind, Except.mapError_error]
        exact .finishVacant handle cb data rest e hctl hstack hget
    | some holder =>
        by_cases haddr : data.ptr = c.loop.cellAddr handle.id
        · obtain ⟨events, he, hset⟩ := Recycler.modify_spec (fun h : EvHolder Ev =>
            { h with event := ⟨event, false⟩ }) hget
          simp only [eventCallLeave, Recycler.index_eq_ok.mpr hget, StolenCell.unsteal, haddr,
            ↓reduceIte, he, Except.ok_bind, Except.pure_eq_ok, Except.mapError_ok]
          exact .finished handle cb data rest event resp holder events rfl hctl hstack hget haddr
            hset
        · simp only [eventCallLeave, Recycler.index_eq_ok.mpr hget, StolenCell.unsteal, haddr,
            ↓reduceIte, Except.ok_bind, Except.error_bind, Except.mapError_ok,
            Except.mapError_error]
          exact .moved handle cb data rest hctl hstack haddr
  · trivial

theorem tick_explained (c : Config Ev) : Explained .tick c c.tick := by
  unfold tick
  split
  · rename_i hctl
    split
    · rename_i task rest hsched
      exact (popTask_sound c task rest hctl hsched).explained
    · trivial
  · rename_i handle cb hctl
    exact (enter_sound c handle cb hctl).explained
  · rename_i result hctl
    cases hr : c.resume result with
    | ok c' => exact resume_edit hctl hr
    | error f =>
        obtain rfl := resume_error hr
        trivial
  · trivial

theorem step_explained (c : Config Ev) (a : Action Ev) (hg : ∀ env, a ≠ .gather env) :
    Explained a c (c.step a) := by
  cases a with
  | call op =>
      simp only [step]
      split
      · exact callOp_explained c op ‹_›
      · trivial
  | finish event resp =>
      cases hctl : c.ctl with
      | user => exact finish_explained c event resp hctl
      | _ => simp [step, hctl, Explained]
  | settle deregisters handler =>
      simp only [step]
      split
      · exact (settle_sound c _ _ deregisters handler ‹_›).explained
      · trivial
  | gather env => exact absurd rfl (hg env)
  | tick => exact tick_explained c
  | dispatch signal =>
      simp only [step]
      split
      · exact .notified signal rfl ‹_›
      · trivial
  | remote m =>
      simp only [step]
      split
      · exact .arrived m rfl ‹_›
      · trivial
  | reorderReleased order =>
      simp only [step]
      split
      · exact .reorderedReleased order rfl ‹_›
      · trivial
  | reorderTimeouts order =>
      simp only [step]
      split
      · exact .reorderedTimeouts order rfl ‹_›
      · trivial
  | reorderRecipients signum order =>
      simp only [step]
      split
      · exact .reorderedRecipients signum order rfl ‹_›
      · trivial

section Results

variable {c c' : Config Ev} {a : Action Ev} {p : Panic}

/-- A step that gathers nothing is one elementary change. -/
theorem step_edit (h : c.step a = .ok c') (hg : ∀ env, a ≠ .gather env) : Edit a c c' := by
  have := step_explained c a hg
  rwa [h] at this

theorem step_cases (h : c.step a = .ok c') : (∃ env, a = .gather env) ∨ Edit a c c' := by
  by_cases hg : ∃ env, a = .gather env
  · exact .inl hg
  · exact .inr (step_edit h (not_exists.mp hg))

theorem fail_cases (h : c.step a = .error (.panic p)) : (∃ env, a = .gather env) ∨ Fail a c p := by
  by_cases hg : ∃ env, a = .gather env
  · exact .inl hg
  · have := step_explained c a (not_exists.mp hg)
    rw [h] at this
    exact .inr this

/-- A gather starts with nothing scheduled. -/
theorem gather_enabled {env : GatherEnv} (out : Except Panic (Config Ev))
    (h : c.step (.gather env) = out.mapError .panic) :
    c.ctl = .runOne ∧ c.loop.scheduled = [] := by
  simp only [step] at h
  split at h
  · exact ⟨‹_›, ‹_›⟩
  · cases out <;> cases h

/-- A gather that succeeds is one of the loop. -/
theorem gather_result {env : GatherEnv} (h : c.step (.gather env) = .ok c') :
    ∃ result, c.loop.tasksGather env = .ok (result, c'.loop) := by
  obtain ⟨hctl, hsched⟩ := gather_enabled (.ok c') h
  simp only [step, hctl, hsched] at h
  obtain ⟨⟨result, l⟩, hg, h⟩ := Except.bind_eq_ok.mp h
  refine ⟨result, (Except.mapError_eq_ok.mp hg).trans ?_⟩
  cases result <;> cases h <;> rfl

theorem gather_edits {env : GatherEnv} (h : c.step (.gather env) = .ok c') :
    Edits (.gather env) c c' := by
  obtain ⟨hctl, hsched⟩ := gather_enabled (.ok c') h
  have hsound := tasksGather_sound env hctl hsched
  simp only [step, hctl, hsched] at h
  obtain ⟨out, hg, h⟩ := Except.bind_eq_ok.mp h
  rw [Except.mapError_eq_ok.mp hg] at hsound
  rcases out with ⟨_ | _, l⟩
  · cases h
    exact hsound.tail (.gatherFailed _ trivial hctl)
  · cases h
    simpa only [hctl] using hsound

/-- So does one that panics. -/
theorem gather_panics {env : GatherEnv} (h : c.step (.gather env) = .error (.panic p)) :
    c.ctl = .runOne ∧ c.loop.scheduled = [] ∧ c.loop.tasksGather env = .error p := by
  obtain ⟨hctl, hsched⟩ := gather_enabled (.error p) h
  refine ⟨hctl, hsched, ?_⟩
  simp only [step, hctl, hsched] at h
  rcases Except.bind_eq_error.mp h with hg | ⟨⟨_ | _, l⟩, _, h⟩
  · obtain ⟨_, hg, ⟨⟩⟩ := Except.mapError_eq_error.mp hg
    exact hg
  · cases h
  · cases h

theorem gather_fails {env : GatherEnv} (h : c.step (.gather env) = .error (.panic p)) :
    ∃ c', Edits (.gather env) c c' ∧ Fail (.gather env) c' p := by
  obtain ⟨hctl, hsched, hg⟩ := gather_panics h
  have hsound := tasksGather_sound env hctl hsched
  rwa [hg] at hsound

/-- Every step that succeeds is a sequence of elementary changes. -/
theorem step_edits (h : c.step a = .ok c') : Edits a c c' := by
  rcases step_cases h with ⟨env, rfl⟩ | e
  · exact gather_edits h
  · exact .single e

end Results

end Eveboros.Config
