import Eveboros.Runs.Reentrancy

/-!
# Tasks of busy events

`run_one` takes a task off the queue and does its bookkeeping before it finds out that the event is
inside a callback.  The task is gone by the time it reports `Error::Busy`.
-/

namespace Eveboros

open TransitionSystem

variable {Ev : Type}

/-- In how many places does the loop hold the task: in the queue or, where there is such a place,
among what tasks of its kind are made of. -/
def Loop.holds (l : Loop Ev) (task : Task) : Nat :=
  l.scheduled.count task + match task.param with
    | .timeout id => l.timeouts.countP fun t => t.recipient = task.recipient ∧ t.id = id
    | .idle => if task.recipient ∈ l.wantIdle then 1 else 0
    | _ => 0

/-- The task is still pending after the call, and not counted as fired. -/
structure Postponed (task : Task) (before after : Loop Ev) : Prop where
  held : before.holds task ≤ after.holds task
  fired : after.timeoutsFired = before.timeoutsFired
  timeouts : (after.events.get? task.recipient.id).map EvHolder.timeouts =
    (before.events.get? task.recipient.id).map EvHolder.timeouts

namespace Config

open Loop

variable {c c' : Config Ev} {a : Action Ev} {task : Task} {rest : List Task}

/-- The loop has let go of one occurrence of the task. -/
structure LetGo (task : Task) (rest : List Task) (before after : Loop Ev) : Prop where
  scheduled : after.scheduled = rest
  heap : after.timeouts.Perm before.timeouts
  idle : after.wantIdle = before.wantIdle
  tag (idx : Nat) : after.tag idx = before.tag idx

theorem LetGo.not_postponed {l l' : Loop Ev} (g : LetGo task rest l l')
    (hsched : l.scheduled = task :: rest) : ¬Postponed task l l' := by
  intro p
  have hheld := p.held
  simp only [holds, hsched, g.scheduled, g.idle, List.count_cons_self] at hheld
  cases hparam : task.param with
  | timeout id =>
      simp only [hparam, g.heap.countP_eq] at hheld
      omega
  | _ =>
      simp only [hparam] at hheld
      omega

/-- Taking a task off the queue. -/
theorem pop_letsGo (hctl : c.ctl = .runOne) (hsched : c.loop.scheduled = task :: rest)
    (hcall : c'.ctl = .call task.recipient task.param.callback) (h : c.step .tick = .ok c') :
    LetGo task rest c.loop c'.loop := by
  have e := step_edit h nofun
  cases e with
  | passed task' rest' holder ha hctl' hsched' =>
      rw [hsched] at hsched'
      cases hsched'
      exact ⟨rfl, .refl _, rfl, fun _ => rfl⟩
  | fired task' rest' id left holder events ha hctl' hsched' hparam hget hgen hleft hset =>
      rw [hsched] at hsched'
      cases hsched'
      exact ⟨rfl, .refl _, rfl, tag_of_sets hset hget rfl rfl⟩
  | _ => simp_all

/-- Before the event is called, only the environment moves. -/
theorem letGo_step {l : Loop Ev} {handle : Handle} {cb : Callback} (g : LetGo task rest l c.loop)
    (hctl : c.ctl = .call handle cb) (ha : a ≠ .tick) (h : c.step a = .ok c') :
    LetGo task rest l c'.loop ∧ c'.ctl = .call handle cb := by
  by_cases hg : ∃ env, a = .gather env
  · rcases hg with ⟨env, rfl⟩
    have henabled := (gather_enabled (.ok c') h).1
    rw [hctl] at henabled
    cases henabled
  have e := step_edit h (not_exists.mp hg)
  cases e with
  | notified | arrived | reorderedReleased | reorderedRecipients =>
      exact ⟨⟨g.scheduled, g.heap, g.idle, g.tag⟩, hctl⟩
  | reorderedTimeouts order _ hperm =>
      exact ⟨⟨g.scheduled, hperm.trans g.heap, g.idle, g.tag⟩, hctl⟩
  | _ => simp_all

/-- The call of an event inside a callback. -/
theorem tick_busy {handle : Handle} {cb : Callback} (hctl : c.ctl = .call handle cb)
    (hstolen : c.loop.Stolen handle) :
    c.step .tick = .ok { c with
      ctl := .ret (.error .busy), log := .refused handle cb .busy :: c.log } := by
  obtain ⟨holder, hget, hgen, hst⟩ := get?_of_tag hstolen
  have henter : c.loop.eventCallEnter handle = .ok (.error .busy) := by
    simp [eventCallEnter, hget, hgen, hst]
  simp [step, tick, hctl, enter, henter, Except.ok_bind, Except.pure_eq_ok, Except.mapError_ok]

/-- Whenever `run_one` reports `Error::Busy` for a task, the task is lost. -/
theorem busy_loses_task (c : Config Ev) (h : Reachable c) (task : Task) (rest : List Task)
    (hctl : c.ctl = .runOne) (hsched : c.loop.scheduled = task :: rest)
    (hrunning : task.recipient ∈ c.running) :
    ∀ c₁ c₂, c.step .tick = .ok c₁ → c₁.ctl = .call task.recipient task.param.callback →
      Reach step (fun _ a => a ≠ .tick) c₁ c₂ → ∃ c₃, c₂.step .tick = .ok c₃ ∧
        c₃.ctl = .ret (.error .busy) ∧ ¬Postponed task c.loop c₃.loop := by
  intro c₁ c₂ hpop hcall hreach
  have hstolen := (h.visited.discipline.mem_running _).mp hrunning
  obtain ⟨g, hctl₂⟩ : LetGo task rest c.loop c₂.loop ∧
      c₂.ctl = .call task.recipient task.param.callback :=
    hreach.invariant (Q := fun s => LetGo task rest c.loop s.loop ∧
        s.ctl = .call task.recipient task.param.callback)
      ⟨pop_letsGo hctl hsched hcall hpop, hcall⟩
      fun _ _ _ ih ha hs => letGo_step ih.1 ih.2 ha hs
  have hstolen₂ : c₂.loop.Stolen task.recipient := (g.tag _).trans hstolen
  exact ⟨_, tick_busy hctl₂ hstolen₂, rfl, g.not_postponed hsched⟩

/-- An event sends itself a message from a callback, in which it then calls `run_one`. -/
def messageToSelf : List (Action Unit) :=
  [.call (.iface (.insertExact () ⟨3, true⟩)), .tick, .call (.scope (.expectMessage (.atom 0))),
    .call (.iface (.sendImpl ⟨0, 0⟩ (.atom 0 7) (.atom 0))), .call (.iface .runOne)]

theorem busy_loses_task_messageToSelf : ∃ c₁ c₃ : Config Unit,
    (after 0 messageToSelf).step .tick = .ok c₁ ∧ c₁.step .tick = .ok c₃ ∧
      ¬Postponed ⟨⟨0, 0⟩, .message ⟨.atom 0 7, .atom 0, .send (some ⟨0, 0⟩)⟩⟩
        (after 0 messageToSelf).loop c₃.loop := by
  obtain ⟨c₁, hpop, hcall⟩ : ∃ c₁, (after 0 messageToSelf).step .tick = .ok c₁ ∧
      c₁.ctl = .call ⟨0, 0⟩ (.message ⟨.atom 0 7, .atom 0, .send (some ⟨0, 0⟩)⟩) :=
    ⟨_, rfl, rfl⟩
  obtain ⟨c₃, hbusy, _, hlost⟩ := busy_loses_task _ (reachable_after 0 messageToSelf)
    ⟨⟨0, 0⟩, .message ⟨.atom 0 7, .atom 0, .send (some ⟨0, 0⟩)⟩⟩ [] rfl rfl (by decide) c₁ c₁ hpop
    hcall .start
  exact ⟨c₁, c₃, hpop, hbusy, hlost⟩

/-- An event registers a timeout in its `init` and waits there for it. -/
def timeoutForSelf : List (Action Unit) :=
  [.call (.iface (.insertExact () ⟨3, true⟩)), .tick, .call (.scope (.timeoutAt 5)),
    .call (.iface .runOne), .gather ⟨9, .ok [], 9, []⟩]

/-- The timeout fires into the busy event, is forgotten and counts as fired. -/
theorem busy_forgets_timeout : ∃ c' : Config Unit,
    run step (after 0 timeoutForSelf) [.tick, .tick] = .ok c' ∧
      c'.ctl = .ret (.error .busy) ∧
      (after 0 timeoutForSelf).loop.holds ⟨⟨0, 0⟩, .timeout ⟨0⟩⟩ = 1 ∧
      c'.loop.holds ⟨⟨0, 0⟩, .timeout ⟨0⟩⟩ = 0 ∧ c'.loop.timeoutsFired = 1 ∧
      ¬Postponed ⟨⟨0, 0⟩, .timeout ⟨0⟩⟩ (after 0 timeoutForSelf).loop c'.loop := by
  obtain ⟨c', hrun, hctl, hbefore, hafter, hfired⟩ : ∃ c' : Config Unit,
      run step (after 0 timeoutForSelf) [.tick, .tick] = .ok c' ∧ c'.ctl = .ret (.error .busy) ∧
      (after 0 timeoutForSelf).loop.holds ⟨⟨0, 0⟩, .timeout ⟨0⟩⟩ = 1 ∧
      c'.loop.holds ⟨⟨0, 0⟩, .timeout ⟨0⟩⟩ = 0 ∧ c'.loop.timeoutsFired = 1 :=
    ⟨_, rfl, rfl, rfl, rfl, rfl⟩
  refine ⟨c', hrun, hctl, hbefore, hafter, hfired, fun p => ?_⟩
  have hheld := p.held
  omega

end Config

end Eveboros
