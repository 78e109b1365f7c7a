import Eveboros.Runs.Registries

/-!
# Re-entrant operations

How the stack moves: a step pushes one frame, pops one, or leaves the stack as it is.  So an
operation, however deep the callbacks under it go, hands the control back with the stack it was
called on, and with the stolen events of that moment.
-/

namespace Eveboros.Config

open Loop TransitionSystem

variable {Ev : Type} {c c' : Config Ev} {a : Action Ev}

/-! ## The stack -/

/-- How one step may change the stack. -/
inductive Shift (c c' : Config Ev) : Prop
  | same (h : c'.stack = c.stack)
  | push (frame : Frame) (h : c'.stack = frame :: c.stack)
  | leave (frame : Frame) (hframe : frame.callee ≠ none) (h : c.stack = frame :: c'.stack)
  | giveBack (frame : Frame) (h : c.stack = frame :: c'.stack) (hctl : c'.ctl = .user)

theorem Edit.shift (e : Edit a c c') : Shift c c' := by
  cases e with
  | beganRunOne | beganRun | beganUntilComplete | stored | posted | entered => exact .push _ rfl
  | finished handle cb data rest event resp holder events ha hctl hstack =>
      exact .leave _ (by simp [Frame.callee]) hstack
  | gaveBack frame rest result ans ha hctl hstack => exact .giveBack frame hstack rfl
  | _ => exact .same rfl

theorem Edit.stack_of_gather {env : GatherEnv} (e : Edit (.gather env) c c') :
    c'.stack = c.stack := by
  cases e <;> first | rfl | simp_all

theorem step_shift (h : c.step a = .ok c') : Shift c c' := by
  rcases step_cases h with ⟨env, rfl⟩ | e
  · exact .same (gather_frame Config.stack (fun _ _ => Edit.stack_of_gather) h)
  · exact e.shift

/-- An operation answers at once, or puts a frame of its own on the stack. -/
theorem call_shift {op : Op Ev} (h : c.step (.call op) = .ok c') :
    (c'.stack = c.stack ∧ c'.ctl = .user) ∨
      ∃ frame, frame.callee = none ∧ c'.stack = frame :: c.stack := by
  have e := step_edit h nofun
  cases e with
  | beganRunOne | beganUntilComplete | stored | posted => exact .inr ⟨_, rfl, rfl⟩
  | beganRun frame ha hctl =>
      refine .inr ⟨frame, ?_, rfl⟩
      rcases ha with ⟨_, rfl⟩ | ⟨_, rfl⟩ <;> rfl
  | refusal _ _ _ hctl | query _ _ _ hctl | lent _ _ _ _ _ _ hctl
  | stopped _ hctl | sent _ _ _ _ _ hctl
  | timer _ _ _ _ _ _ hctl | signalled _ _ _ hctl | idled _ _ hctl | expected _ _ _ _ _ hctl
  | ioRefused _ _ _ _ _ hctl | ioRegistered _ _ _ _ _ _ _ hctl | ioRemoved _ _ _ _ _ _ _ _ hctl
  | submitted _ _ hctl | tracked _ _ _ _ _ hctl | poolSet _ _ hctl | enabled _ _ hctl =>
      exact .inl ⟨rfl, hctl⟩
  | _ => simp_all [Action.IsGather, Action.IsSettle]

/-! ## Returning -/

/-- The operation `op`, called in `c`, has returned in `c'`: the first configuration after the call
in which the stack is no deeper than before. -/
def Returns (op : Op Ev) (c c' : Config Ev) : Prop :=
  ∃ c₁, c.step (.call op) = .ok c₁ ∧
    Reach step (fun s _ => c.stack.length < s.stack.length) c₁ c' ∧
    c'.stack.length ≤ c.stack.length

/-- As long as an operation has not returned, its frame and those below stay on the stack. -/
theorem inside {base : List Frame} {frame : Frame} {c₁ : Config Ev} (hframe : frame.callee = none)
    (hstart : c₁.stack = frame :: base)
    (h : Reach step (fun s _ => base.length < s.stack.length) c₁ c) :
    (∃ above, c.stack = above ++ frame :: base) ∨ (c.stack = base ∧ c.ctl = .user) := by
  refine h.invariant (Q := fun s => (∃ above, s.stack = above ++ frame :: base) ∨
    (s.stack = base ∧ s.ctl = .user)) (.inl ⟨[], hstart⟩) fun s s' a ih hdeep hs => ?_
  rcases ih with ⟨above, hstack⟩ | ⟨hstack, _⟩
  · cases step_shift hs with
    | same h => exact .inl ⟨above, h.trans hstack⟩
    | push top h => exact .inl ⟨top :: above, by rw [h, hstack, List.cons_append]⟩
    | leave top htop h =>
        cases above with
        | nil =>
            rw [hstack] at h
            cases h
            exact absurd hframe htop
        | cons _ above =>
            rw [hstack] at h
            exact .inl ⟨above, (List.cons.inj h).2.symm⟩
    | giveBack top h hctl =>
        cases above with
        | nil =>
            rw [hstack] at h
            cases h
            exact .inr ⟨rfl, hctl⟩
        | cons _ above =>
            rw [hstack] at h
            exact .inl ⟨above, (List.cons.inj h).2.symm⟩
  · simp [hstack] at hdeep

theorem Returns.stack {op : Op Ev} (h : Returns op c c') : c'.stack = c.stack ∧ c'.ctl = .user := by
  rcases h with ⟨c₁, hcall, hreach, hlen⟩
  rcases call_shift hcall with ⟨hstack, hctl⟩ | ⟨frame, hframe, hstack⟩
  · -- The operation answered at once, so nothing was left to do.
    have hend : c₁ = c' := hreach.invariant rfl fun s s' a hs hdeep _ => by
      subst hs
      simp [hstack] at hdeep
    subst hend
    exact ⟨hstack, hctl⟩
  · rcases inside hframe hstack hreach with ⟨above, hstack'⟩ | hback
    · simp [hstack'] at hlen
      omega
    · exact hback

theorem Returns.reachable {op : Op Ev} (hc : Reachable c) (h : Returns op c c') : Reachable c' := by
  rcases h with ⟨c₁, hcall, hreach, _⟩
  exact (hc.step hcall).reach hreach

/-! ## Waiting for an event -/

/-- No `run_until_complete` waits for an event in a callback further down. -/
def NoDeadLock : List Frame → Prop
  | [] => True
  | .runUntilComplete handle :: rest => handle ∉ rest.filterMap Frame.callee ∧ NoDeadLock rest
  | _ :: rest => NoDeadLock rest

theorem NoDeadLock.tail {frame : Frame} {rest : List Frame} (h : NoDeadLock (frame :: rest)) :
    NoDeadLock rest := by
  cases frame <;> first | exact h | exact h.2

theorem noDeadLock_edit (d : Discipline c) (h : NoDeadLock c.stack) (e : Edit a c c') :
    NoDeadLock c'.stack := by
  cases e with
  | beganUntilComplete handle holder ha hctl hget hgen hfree =>
      refine ⟨fun hmem => ?_, h⟩
      have hstolen := (d.mem_running handle).mp hmem
      simp [Stolen, tag_of_get? hget, hfree] at hstolen
  | beganRun frame ha hctl => rcases ha with ⟨_, rfl⟩ | ⟨_, rfl⟩ <;> exact h
  | finished handle cb data rest event resp holder events ha hctl hstack =>
      rw [hstack] at h
      exact h
  | gaveBack frame rest result ans ha hctl hstack =>
      rw [hstack] at h
      exact h.tail
  | _ => exact h

theorem Visited.noDeadLock {P : Config Ev → Action Ev → Prop} (h : Visited P c) :
    NoDeadLock c.stack := by
  induction h with
  | start now => trivial
  | edit hv _ he ih => exact noDeadLock_edit hv.discipline ih he

/-! ## The assertions -/

theorem not_alreadyStolen (h : Reachable c) :
    c.step a ≠ .error (.panic (.cell .alreadyStolen)) := by
  intro hstep
  obtain ⟨c', hv, hfail⟩ := h.fail hstep
  cases hfail with
  | settleStolen handle resp holder hctl hget hstolen =>
      have htag := hv.discipline.settling handle resp hctl
      simp [tag_of_get? hget, hstolen] at htag

/-- No access to the slot of an event finds it empty. -/
theorem not_events_panic (h : Reachable c) (fault : RecyclerFault) :
    c.step a ≠ .error (.panic (.events fault)) := by
  intro hstep
  obtain ⟨c', hv, hfail⟩ := h.fail hstep
  have hlive {handle : Handle} (halive : c'.loop.eventAlive handle = true) :
      c'.loop.events.get? handle.id ≠ none := by
    obtain ⟨holder, hget, _⟩ := eventAlive_iff.mp halive
    simp [hget]
  cases hfail with
  | scopeVacant handle _ hctl hcaller hnone =>
      exact hlive (hv.discipline.caller_alive hcaller) hnone
  | finishVacant handle cb data rest _ hctl hstack hnone =>
      exact hlive (hv.discipline.caller_alive (by simp [caller, hstack])) hnone
  | settleVacant handle resp _ hctl hnone =>
      exact hlive (eventAlive_of_tag (hv.discipline.settling handle resp hctl)) hnone
  | childVacant pid handle _ hlookup hnone =>
      exact hlive ((hv.registries.children pid handle).mp hlookup).alive hnone

/-- An event inside a callback stays alive, in its slot. -/
theorem running_alive (h : Reachable c) (hstep : c.step a = .ok c') :
    ∀ handle ∈ c.running, c'.loop.eventAlive handle = true := by
  intro handle hmem
  have d := h.visited.discipline
  have hstolen := (d.mem_running handle).mp hmem
  have halive := eventAlive_of_tag hstolen
  rcases step_cases hstep with ⟨env, rfl⟩ | e
  · rw [← halive]
    exact gather_frame (fun c => c.loop.eventAlive handle)
      (fun _ _ e => e.eventAlive_of_gather handle) hstep
  · apply e.eventAlive d halive
    intro resp hctl
    simpa using hstolen.symm.trans (d.settling handle resp hctl)

/-- Callbacks may call the loop again to any depth: the stolen cells are those of the events inside
a callback, such events stay where they are, and every operation returns with the stolen events it
was entered with. -/
theorem callback_stack_discipline (c : Config Ev) (h : Reachable c) :
    (c.running.Nodup ∧ ∀ handle, handle ∈ c.running ↔ c.loop.Stolen handle) ∧
    (∀ a c', c.step a = .ok c' → ∀ handle ∈ c.running, c'.loop.eventAlive handle = true) ∧
    (∀ a, c.step a ≠ .error (.panic (.cell .alreadyStolen)) ∧
      ∀ fault, c.step a ≠ .error (.panic (.events fault))) ∧
    (∀ op c', Returns op c c' → c'.stack = c.stack ∧ c'.ctl = .user ∧
      ∀ handle, c'.loop.Stolen handle ↔ c.loop.Stolen handle) ∧
    ∀ handle rest, c.stack = .runUntilComplete handle :: rest → ¬c.loop.Stolen handle := by
  have d := h.visited.discipline
  refine ⟨⟨d.nodup, d.mem_running⟩, fun _ _ => running_alive h,
    fun _ => ⟨not_alreadyStolen h, fun fault => not_events_panic h fault⟩, ?_, ?_⟩
  · intro op c' hret
    rcases hret.stack with ⟨hstack, hctl⟩
    refine ⟨hstack, hctl, fun handle => ?_⟩
    rw [← d.mem_running, ← (hret.reachable h).visited.discipline.mem_running, running, running,
      hstack]
  · intro handle rest hstack hstolen
    have hwait := h.visited.noDeadLock
    rw [hstack] at hwait
    have hmem := (d.mem_running handle).mpr hstolen
    rw [running, hstack] at hmem
    exact hwait.1 hmem

/-- An `init` callback inside the `init` callback of another event. -/
def nestedInserts : List (Action Unit) :=
  [.call (.iface (.insertExact () ⟨3, true⟩)), .tick, .call (.iface (.insertExact () ⟨3, true⟩)),
    .tick]

theorem callback_stack_discipline_nestedInserts :
    (after 0 nestedInserts).running = [⟨1, 1⟩, ⟨0, 0⟩] ∧
      ∀ handle, handle ∈ (after 0 nestedInserts).running ↔
        (after 0 nestedInserts).loop.Stolen handle :=
  ⟨by decide, (callback_stack_discipline _ (reachable_after 0 nestedInserts)).1.2⟩

end Eveboros.Config
