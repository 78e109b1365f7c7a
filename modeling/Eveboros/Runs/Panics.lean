import Eveboros.Runs.Addresses
import Eveboros.Runs.Ios
import Eveboros.Runs.Timers
import Eveboros.Signals.RealTime

/-!
# All panics of a loop

The loop asserts much about itself.  As long as no event removes an IO and no insertion moves an
event that runs, all its assertions hold, and what remains are six requests and answers from outside
that the loop cannot deal with.
-/

namespace Eveboros.Config

open Loop TransitionSystem

variable {Ev : Type} {c c' : Config Ev} {a : Action Ev}

/-- The actions that break the loop sooner or later. -/
def Breaks (c : Config Ev) (a : Action Ev) : Prop := RemovesIo c a ∨ MovesEvents c a

/-- A callback asks for a child that is tracked already. -/
def TracksTwice (c : Config Ev) (a : Action Ev) : Prop :=
  ∃ pid handle, a = .call (.scope (.child pid)) ∧ c.ctl = .user ∧ c.caller = some handle ∧
    pid ∈ c.loop.children

/-- An event dies, and mio does not let go of its IOs. -/
def CannotDeregister (c : Config Ev) (a : Action Ev) : Prop :=
  ∃ handle resp handler holder, a = .settle false handler ∧ c.ctl = .settle handle resp ∧
    resp ≠ .ok true ∧ c.loop.events.get? handle.id = some holder ∧ holder.ios.keys ≠ []

/-- A callback asks for a timeout beyond the end of time. -/
def OutlastsTime (c : Config Ev) (a : Action Ev) : Prop :=
  ∃ after handle, a = .call (.scope (.timeoutAfter after)) ∧ c.ctl = .user ∧
    c.caller = some handle ∧ INSTANT_END ≤ c.loop.now + after

/-- Somebody wants a signal that cannot be caught. -/
def WantsUncatchable (c : Config Ev) (a : Action Ev) : Prop :=
  ∃ signal : Signal, c.ctl = .user ∧ signal.uncatchable = true ∧
    c.loop.signalsEnabled signal.num = false ∧
    (a = .call (.owner (.signalEnable signal)) ∧ c.caller = none ∨
      a = .call (.scope (.signal signal)) ∧ ∃ handle, c.caller = some handle)

/-- Somebody wants a pool without threads. -/
def EmptiesPool (c : Config Ev) (a : Action Ev) : Prop :=
  a = .call (.owner (.poolThreadCountSet 0)) ∧ c.ctl = .user ∧ c.caller = none

/-- A child that a real-time signal has killed is reaped. -/
def MeetsRealTime (c : Config Ev) (a : Action Ev) : Prop :=
  ∃ env, a = .gather env ∧ c.ctl = .runOne ∧ c.loop.scheduled = [] ∧ c.loop.ReapsRealTime env

/-- The causes of panics that no discipline of the loop rules out. -/
inductive Cause (c : Config Ev) (a : Action Ev) : Panic → Prop
  | childTracked (h : TracksTwice c a) : Cause c a .childTracked
  | deregister (h : CannotDeregister c a) : Cause c a .deregister
  | instantOverflow (h : OutlastsTime c a) : Cause c a .instantOverflow
  | sigaction (h : WantsUncatchable c a) : Cause c a .sigaction
  | noThreads (h : EmptiesPool c a) : Cause c a .noThreads
  | waitpid (h : MeetsRealTime c a) : Cause c a .waitpid

/-- What the assertions rest on. -/
structure Intact (c : Config Ev) : Prop where
  reachable : Reachable c
  addresses : AddressStable c
  ownership : c.loop.IoOwnership

theorem intact_of_reach {now : Nat}
    (h : Reach step (fun c a => ¬Breaks c a) (init now) c) : Intact c := by
  have hstart : AddressStable (init now : Config Ev) := by
    intro handle cb data hmem
    cases hmem
  refine h.invariant ⟨⟨now, .start⟩, hstart, ioOwnership_new now⟩ ?_
  intro s s' a i hbreaks hs
  obtain ⟨hremoves, hmoves⟩ := not_or.mp hbreaks
  have hv := i.reachable.visited
  exact ⟨i.reachable.step hs, addressStable_step hv i.addresses hmoves hs,
    ioOwnership_step hv i.ownership hremoves hs⟩

/-! ## What the loop refuses -/

theorem step_childTracked : c.step a = .error (.panic .childTracked) ↔ TracksTwice c a := by
  constructor
  · intro hs
    rcases fail_cases hs with ⟨env, rfl⟩ | hfail
    · obtain ⟨c', _, hfail⟩ := gather_fails hs
      cases hfail with
      | childTracked pid ha => cases ha
    · cases hfail with
      | childTracked pid ha hmem =>
          subst ha
          cases hctl : c.ctl with
          | user =>
              cases hcaller : c.caller with
              | none => simp [step, hctl, callOp, hcaller] at hs
              | some handle => exact ⟨pid, handle, rfl, hctl, hcaller, hmem⟩
          | _ => simp [step, hctl] at hs
  · intro htwice
    obtain ⟨pid, handle, rfl, hctl, hcaller, hmem⟩ := htwice
    have hchild : c.loop.child handle pid = .error .childTracked := by
      simp only [Loop.child, signalEnable_sigchld, Except.ok_bind, hmem, if_pos]
    simp only [step, hctl, callOp, hcaller, callScope, hchild, Except.error_bind,
      Except.mapError_error]

theorem eventKill_deregister {l : Loop Ev} {idx : Nat} :
    l.eventKill idx false = .error .deregister ↔
      ∃ holder, l.events.get? idx = some holder ∧ holder.ios.keys ≠ [] := by
  cases hget : l.events.get? idx with
  | none =>
      obtain ⟨e, he⟩ := Recycler.release_of_none hget
      simp [eventKill, he, Except.error_bind, Except.mapError_error]
  | some holder =>
      obtain ⟨events, he, _⟩ := Recycler.release_spec hget
      by_cases hkeys : holder.ios.keys = []
      · cases hstolen : holder.event.stolen <;>
          simp [eventKill, he, hkeys, hstolen, StolenCell.intoInner, Except.ok_bind,
            Except.error_bind, Except.mapError_ok, Except.mapError_error, Except.pure_eq_ok]
      · simp [eventKill, he, hkeys, Except.ok_bind, Except.mapError_ok]

theorem step_deregister : c.step a = .error (.panic .deregister) ↔ CannotDeregister c a := by
  constructor
  · intro hs
    rcases fail_cases hs with ⟨env, rfl⟩ | hfail
    · obtain ⟨c', _, hfail⟩ := gather_fails hs
      cases hfail with
      | deregister handler ha => cases ha
    · cases hfail with
      | deregister handler ha =>
          subst ha
          cases hctl : c.ctl with
          | settle handle resp =>
              simp only [step, hctl] at hs
              obtain ⟨p, hs, ⟨⟩⟩ := Except.mapError_eq_error.mp hs
              rcases resp with err | _ | _
              · rcases Except.bind_eq_error.mp hs with hkill | ⟨_, _, ⟨⟩⟩
                obtain ⟨holder, hget, hkeys⟩ := eventKill_deregister.mp hkill
                exact ⟨handle, _, handler, holder, rfl, hctl, by simp, hget, hkeys⟩
              · rcases Except.bind_eq_error.mp hs with hkill | ⟨_, _, ⟨⟩⟩
                obtain ⟨holder, hget, hkeys⟩ := eventKill_deregister.mp hkill
                exact ⟨handle, _, handler, holder, rfl, hctl, by simp, hget, hkeys⟩
              · cases hs
          | _ => simp [step, hctl] at hs
  · intro hcannot
    obtain ⟨handle, resp, handler, holder, rfl, hctl, hresp, hget, hkeys⟩ := hcannot
    have hkill := eventKill_deregister.mpr ⟨holder, hget, hkeys⟩
    simp only [step, hctl]
    rcases resp with err | _ | _
    · simp only [settle, hkill, Except.error_bind, Except.mapError_error]
    · simp only [settle, hkill, Except.error_bind, Except.mapError_error]
    · exact absurd rfl hresp

theorem step_instantOverflow : c.step a = .error (.panic .instantOverflow) ↔ OutlastsTime c a := by
  constructor
  · intro hs
    rcases fail_cases hs with ⟨env, rfl⟩ | hfail
    · obtain ⟨c', _, hfail⟩ := gather_fails hs
      cases hfail with
      | overflow after ha => cases ha
    · cases hfail with
      | overflow after ha hpast =>
          subst ha
          cases hctl : c.ctl with
          | user =>
              cases hcaller : c.caller with
              | none => simp [step, hctl, callOp, hcaller] at hs
              | some handle => exact ⟨after, handle, rfl, hctl, hcaller, hpast⟩
          | _ => simp [step, hctl] at hs
  · rintro ⟨after, handle, rfl, hctl, hcaller, hpast⟩
    have htimeout : c.loop.timeoutAfter handle after = .error .instantOverflow := by
      simp [Loop.timeoutAfter, hpast]
    simp only [step, hctl, callOp, hcaller, callScope, htimeout, Except.error_bind,
      Except.mapError_error]

theorem step_sigaction : c.step a = .error (.panic .sigaction) ↔ WantsUncatchable c a := by
  constructor
  · intro hs
    rcases fail_cases hs with ⟨env, rfl⟩ | hfail
    · obtain ⟨c', _, hfail⟩ := gather_fails hs
      cases hfail with
      | uncatchable signal ha => simp at ha
    · cases hfail with
      | uncatchable signal ha hoff hsignal =>
          cases hctl : c.ctl with
          | user =>
              rcases ha with rfl | rfl
              · cases hcaller : c.caller with
                | none => simp [step, hctl, callOp, hcaller] at hs
                | some handle =>
                    exact ⟨signal, hctl, hsignal, hoff, .inr ⟨rfl, handle, hcaller⟩⟩
              · cases hcaller : c.caller with
                | none => exact ⟨signal, hctl, hsignal, hoff, .inl ⟨rfl, hcaller⟩⟩
                | some handle => simp [step, hctl, callOp, hcaller] at hs
          | _ => rcases ha with rfl | rfl <;> simp [step, hctl] at hs
  · rintro ⟨signal, hctl, hsignal, hoff, hwho⟩
    have henable : c.loop.signalEnable signal = .error .sigaction := by
      simp [signalEnable, hoff, hsignal]
    rcases hwho with ⟨rfl, hcaller⟩ | ⟨rfl, handle, hcaller⟩
    · simp only [step, hctl, callOp, hcaller, callOwner, henable, Except.error_bind,
        Except.mapError_error]
    · simp only [step, hctl, callOp, hcaller, callScope, Loop.signal, henable, Except.error_bind,
        Except.mapError_error]

theorem step_noThreads : c.step a = .error (.panic .noThreads) ↔ EmptiesPool c a := by
  constructor
  · intro hs
    rcases fail_cases hs with ⟨env, rfl⟩ | hfail
    · obtain ⟨c', _, hfail⟩ := gather_fails hs
      cases hfail with
      | poolEmpty ha => cases ha
    · cases hfail with
      | poolEmpty ha =>
          subst ha
          cases hctl : c.ctl with
          | user =>
              cases hcaller : c.caller with
              | none => exact ⟨rfl, hctl, hcaller⟩
              | some handle => simp [step, hctl, callOp, hcaller] at hs
          | _ => simp [step, hctl] at hs
  · rintro ⟨rfl, hctl, hcaller⟩
    simp only [step, hctl, callOp, hcaller, callOwner, poolThreadCountSet, ↓reduceIte,
      Except.error_bind, Except.mapError_error]

/-! ## Children whose status makes no sense -/

/-- No flag is ever set for what is not a signal. -/
theorem Visited.zeroFlag {P : Config Ev → Action Ev → Prop} (h : Visited P c) :
    c.loop.signalFlags 0 = false := by
  induction h with
  | start now => rfl
  | edit _ _ he ih =>
      cases he with
      | notified signal =>
          exact (Function.update_of_ne (Nat.ne_of_lt signal.pos) _ _).trans ih
      | flagCleared signum =>
          exact (Function.update_apply _ signum false 0).trans (by rw [ih, ite_self])
      | _ => exact ih

theorem step_waitpid_meets (hv : Visited Anything c) (hs : c.step a = .error (.panic .waitpid)) :
    MeetsRealTime c a := by
  rcases fail_cases hs with ⟨env, rfl⟩ | hfail
  · obtain ⟨hctl, hsched, hs⟩ := gather_panics hs
    exact ⟨env, rfl, hctl, hsched, (tasksGather_reaps hsched hv.zeroFlag).only hs⟩
  · cases hfail with
    | undecodable env pid signum ha =>
        subst ha
        obtain ⟨hctl, hsched, hs⟩ := gather_panics hs
        exact ⟨env, rfl, hctl, hsched, (tasksGather_reaps hsched hv.zeroFlag).only hs⟩

/-- The gather does not survive it. -/
theorem MeetsRealTime.panics (hv : Visited Anything c) (h : MeetsRealTime c a) :
    ∃ p, c.step a = .error (.panic p) := by
  obtain ⟨env, rfl, hctl, hsched, hreaps⟩ := h
  cases hgather : c.loop.tasksGather env with
  | ok out => exact absurd hgather ((tasksGather_reaps hsched hv.zeroFlag).whenever hreaps out)
  | error p => exact ⟨p, by simp only [step, hctl, hsched, hgather]; rfl⟩

/-! ## All of them -/

theorem Intact.cause (i : Intact c) (hfew : c.issued.length ≤ 2 ^ 64) (hsane : MioSane c a)
    {p : Panic} (hs : c.step a = .error (.panic p)) : Cause c a p := by
  have hr := i.reachable
  have hv := hr.visited
  cases p with
  | childTracked => exact .childTracked (step_childTracked.mp hs)
  | deregister => exact .deregister (step_deregister.mp hs)
  | instantOverflow => exact .instantOverflow (step_instantOverflow.mp hs)
  | sigaction => exact .sigaction (step_sigaction.mp hs)
  | noThreads => exact .noThreads (step_noThreads.mp hs)
  | waitpid => exact .waitpid (step_waitpid_meets hv hs)
  | events fault => exact absurd hs (not_events_panic hr fault)
  | ios fault => exact absurd hs (not_ios_panic hv i.ownership hsane fault)
  | cell fault =>
      cases fault with
      | alreadyStolen => exact absurd hs (not_alreadyStolen hr)
      | moved => exact absurd hs (not_moved hv i.addresses)
  | childUnlinked => exact absurd hs (not_childUnlinked hr)
  | underflow => exact absurd hs (step_not_underflow hr hfew)
  | tasksScheduled =>
      obtain ⟨_, _, hfail⟩ := hr.fail hs
      cases hfail

theorem Intact.panics_iff (i : Intact c) (hfew : c.issued.length ≤ 2 ^ 64) (hsane : MioSane c a)
    (p : Panic) : c.step a = .error (.panic p) ↔ Cause c a p := by
  refine ⟨i.cause hfew hsane, fun hcause => ?_⟩
  cases hcause with
  | childTracked h => exact step_childTracked.mpr h
  | deregister h => exact step_deregister.mpr h
  | instantOverflow h => exact step_instantOverflow.mpr h
  | sigaction h => exact step_sigaction.mpr h
  | noThreads h => exact step_noThreads.mpr h
  | waitpid h =>
      obtain ⟨p, hs⟩ := h.panics i.reachable.visited
      obtain ⟨env, rfl, _⟩ := h
      cases i.cause hfew hsane hs with
      | waitpid => exact hs
      | childTracked h => obtain ⟨_, _, ⟨⟩, _⟩ := h
      | deregister h => obtain ⟨_, _, _, _, ⟨⟩, _⟩ := h
      | instantOverflow h => obtain ⟨_, _, ⟨⟩, _⟩ := h
      | sigaction h => obtain ⟨_, _, _, _, ⟨⟨⟩, _⟩ | ⟨⟨⟩, _⟩⟩ := h
      | noThreads h => obtain ⟨⟨⟩, _⟩ := h

/-- In a run that removes no IO and moves no event that runs, with at most 2^64 insertions and as
long as mio reports only what is registered, a step panics exactly for one of the six causes. -/
theorem panics_exactly (now : Nat) (c : Config Ev)
    (h : Reach step (fun c a => ¬Breaks c a) (init now) c) (hfew : c.issued.length ≤ 2 ^ 64)
    (a : Action Ev) (hsane : MioSane c a) (p : Panic) :
    c.step a = .error (.panic p) ↔ Cause c a p :=
  (intact_of_reach h).panics_iff hfew hsane p

def breaksTest (c : Config Ev) : Action Ev → Bool
  | .call (.scope (.ioRemove _ _)) => true
  | .call (.iface (.insertExact _ _)) => !c.running.isEmpty
  | _ => false

theorem not_breaks_of_test (c : Config Ev) (a : Action Ev) (h : (!breaksTest c a) = true) :
    ¬Breaks c a := by
  rintro (⟨id, outcome, handle, io, rfl, _⟩ | ⟨event, growth, rfl, _, hrunning⟩)
  · cases h
  · simp [breaksTest, hrunning] at h

/-- An event watches a child, and asks for it once more. -/
def twiceTracked : List (Action Unit) :=
  [.call (.iface (.insertExact () ⟨3, true⟩)), .tick, .call (.scope (.child 5))]

theorem panics_exactly_twiceTracked :
    (after 0 twiceTracked).step (.call (.scope (.child 5))) = .error (.panic .childTracked) := by
  have hreach : Reach step (fun c a => ¬Breaks c a) (init 0) (after 0 twiceTracked) :=
    reach_after twiceTracked not_breaks_of_test (by decide)
  refine (panics_exactly 0 _ hreach (by decide) _ ?_ _).mpr
    (.childTracked ⟨5, ⟨0, 0⟩, rfl, rfl, rfl, by decide⟩)
  rintro env polled ⟨⟩

end Eveboros.Config
