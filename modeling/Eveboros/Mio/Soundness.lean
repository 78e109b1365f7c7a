import Eveboros.Mio.Registrations
import Eveboros.Runs.Completion
import Eveboros.Runs.Panics

/-!
# The loop neither panics nor gets stuck

A user who avoids all that makes the loop panic gets through: no step of the loop over a lawful mio
panics, and whoever has the control can go on.
-/

namespace Eveboros

open TransitionSystem

variable {Ev : Type}

namespace Config

variable {c c' : Config Ev} {a : Action Ev}

/-! ## Control -/

def Based : List Frame → Prop
  | [] => True
  | frame :: rest =>
      (frame.callee ≠ none → ∃ below ∈ rest.head?, below.callee = none) ∧ Based rest

/-- The loop works for the operation on top of the stack. -/
structure Attended (c : Config Ev) : Prop where
  based : Based c.stack
  busy : c.ctl ≠ .user → ∃ top ∈ c.stack.head?, top.callee = none

theorem attended_edit (t : Attended c) (e : Edit a c c') : Attended c' := by
  cases e with
  | beganRunOne | beganUntilComplete | stored | posted =>
      exact ⟨⟨fun hcallee => absurd rfl hcallee, t.based⟩, fun _ => ⟨_, rfl, rfl⟩⟩
  | beganRun frame ha =>
      have hframe : frame.callee = none := by rcases ha with ⟨_, rfl⟩ | ⟨_, rfl⟩ <;> rfl
      exact ⟨⟨fun hcallee => absurd hframe hcallee, t.based⟩, fun _ => ⟨_, rfl, hframe⟩⟩
  | entered handle cb holder events ha hctl =>
      exact ⟨⟨fun _ => t.busy (by simp [hctl]), t.based⟩, fun hctl' => absurd rfl hctl'⟩
  | finished handle cb data rest event resp holder events ha hctl hstack =>
      have hbased := t.based
      rw [hstack] at hbased
      exact ⟨hbased.2, fun _ => hbased.1 (by simp [Frame.callee])⟩
  | gaveBack frame rest result ans ha hctl hstack =>
      have hbased := t.based
      rw [hstack] at hbased
      exact ⟨hbased.2, fun hctl' => absurd rfl hctl'⟩
  | turnedAway _ _ _ _ hctl | kept _ _ hctl | killed _ _ _ _ _ _ _ _ hctl | passed _ _ _ _ hctl
  | lost _ _ _ _ _ _ _ hctl | fired _ _ _ _ _ _ _ hctl | again _ hctl | gatherFailed _ _ hctl =>
      exact ⟨t.based, fun _ => t.busy (by simp [hctl])⟩
  | _ => exact ⟨t.based, t.busy⟩

theorem Visited.attended {P : Config Ev → Action Ev → Prop} (h : Visited P c) : Attended c := by
  induction h with
  | start now => exact ⟨trivial, fun hctl => absurd rfl hctl⟩
  | edit _ _ he ih => exact attended_edit ih he

theorem operation_resumes {frame : Frame} {rest : List Frame} (hstack : c.stack = frame :: rest)
    (hframe : frame.callee = none) (result : Except Error Unit) :
    ∃ c', c.resume result = .ok c' := by
  cases hresume : c.resume result with
  | ok c' => exact ⟨c', rfl⟩
  | error f =>
      exfalso
      unfold resume at hresume
      rw [hstack] at hresume
      cases frame with
      | callback => cases hframe
      | insertExact | postImpl | runOne => cases hresume
      | run | runUntilEmpty | runUntilComplete =>
          simp only at hresume
          repeat' split at hresume
          all_goals cases hresume

/-- The action applies to the configuration; what it leads to may be a panic. -/
def Enabled (c : Config Ev) (a : Action Ev) : Prop := c.step a ≠ .error .disabled

theorem Enabled.step {a : Action Ev} (h : Enabled c a)
    (hsafe : ∀ p, c.step a ≠ .error (.panic p)) : ∃ c', c.step a = .ok c' := by
  cases hstep : c.step a with
  | ok c' => exact ⟨c', rfl⟩
  | error f =>
      cases f with
      | disabled => exact absurd hstep h
      | panic p => exact absurd hstep (hsafe p)

theorem panics_are_no_refusals {α : Type} (out : Except Panic α) :
    out.mapError Fault.panic ≠ .error .disabled := by
  cases out <;> simp [Except.mapError]

theorem enabled_finish (t : Stacked c) (hctl : c.ctl = .user) (hstack : c.stack ≠ [])
    (event : Ev) (resp : Response) : Enabled c (.finish event resp) := by
  obtain ⟨frame, rest, heq⟩ := List.exists_cons_of_ne_nil hstack
  have hcallee := t.user hctl frame (by rw [heq]; rfl)
  cases frame with
  | callback handle cb data =>
      simp only [Enabled, Config.step, hctl, heq]
      cases c.loop.eventCallLeave handle data event <;>
        simp [Except.mapError, Except.bind, bind, pure, Except.pure]
  | _ => exact absurd rfl hcallee

theorem enabled_settle {handle : Handle} {resp : Response} (hctl : c.ctl = .settle handle resp)
    (deregisters : Bool) (handler : Except Error Unit) :
    Enabled c (.settle deregisters handler) := by
  simp only [Enabled, Config.step, hctl]
  exact panics_are_no_refusals _

theorem enabled_gather (hctl : c.ctl = .runOne) (hsched : c.loop.scheduled = [])
    (env : GatherEnv) : Enabled c (.gather env) := by
  simp only [Enabled, Config.step, hctl, hsched]
  cases c.loop.tasksGather env with
  | error p => simp [Except.mapError, Except.bind, bind]
  | ok out =>
      rcases out with ⟨err | _, l⟩ <;> simp [Except.mapError, Except.bind, bind, pure, Except.pure]

/-- Left to itself the loop has a step to make, unless it has to gather. -/
theorem enabled_tick (t : Attended c) (huser : c.ctl ≠ .user)
    (hsettle : ∀ handle resp, c.ctl ≠ .settle handle resp)
    (hgather : c.ctl = .runOne → c.loop.scheduled ≠ []) : Enabled c .tick := by
  obtain ⟨top, htop, hframe⟩ := t.busy huser
  cases hctl : c.ctl with
  | user => exact absurd hctl huser
  | settle handle resp => exact absurd hctl (hsettle handle resp)
  | runOne =>
      obtain ⟨task, rest, hsched⟩ := List.exists_cons_of_ne_nil (hgather hctl)
      simp only [Enabled, Config.step, tick, hctl, hsched]
      exact panics_are_no_refusals _
  | call handle cb =>
      simp only [Enabled, Config.step, tick, hctl]
      exact panics_are_no_refusals _
  | ret result =>
      obtain ⟨rest, hstack⟩ := List.head?_eq_some_iff.mp htop
      obtain ⟨c', hresume⟩ := operation_resumes hstack hframe result
      simp [Enabled, Config.step, tick, hctl, hresume]

end Config

namespace Mio

open Config

variable {m : Mio} {s s' : m.State} {calls : List MioCall} {c c' : Config Ev} {a : Action Ev}

/-- Nobody breaks the loop or asks too much of it, and no child is killed by a real-time signal. -/
structure Prudent (c : Config Ev) (a : Action Ev) : Prop where
  still : ¬MovesEvents c a
  keepsIos : ¬RemovesIo c a
  keepsObjects : ¬ReplacesIo a
  untracked : ¬TracksTwice c a
  inTime : ¬OutlastsTime c a
  catchable : ¬WantsUncatchable c a
  threaded : ¬EmptiesPool c a
  decodable : ¬MeetsRealTime c a

/-- What holds along a run of a prudent user. -/
structure Sound (m : Mio) (c : Config Ev) (s : m.State) : Prop where
  intact : Intact c
  mirrors : Mirrors (m.watched s) c

theorem Sound.inStep (k : Sound m c s) : InStep m c s :=
  ⟨k.intact.reachable.visited, k.intact.ownership.toIoClaims, k.mirrors⟩

theorem Sound.frugal (k : Sound m c s) (hp : Prudent c a) : Frugal c a := by
  refine ⟨?_, hp.keepsObjects⟩
  rintro ⟨_, _, hmem⟩
  exact k.intact.ownership.released _ hmem (Recycler.get?_next _)

theorem Sound.next (hm : m.Lawful) (k : Sound m c s) (hp : Prudent c a) (hasks : Asks c calls a)
    (hserves : m.Serves s calls s') (h : c.step a = .ok c') : Sound m c' s' := by
  have hv := k.intact.reachable.visited
  exact ⟨⟨k.intact.reachable.step h, addressStable_step hv k.intact.addresses hp.still h,
    ioOwnership_step hv k.intact.ownership hp.keepsIos h⟩,
    (k.inStep.next hm (k.frugal hp) hasks hserves h).mirrors⟩

theorem sound_of_runs (hm : m.Lawful) {now : Nat} (h : Runs m Prudent now c s) : Sound m c s := by
  induction h with
  | start => exact ⟨intact_of_reach .start, (inStep_start hm now).mirrors⟩
  | step _ hp hasks hserves hstep ih => exact ih.next hm hp hasks hserves hstep

/-! ## No panic -/

/-- What a poll reports does not matter to a loop that does not get to it. -/
theorem step_unpolled {env : GatherEnv} (hempty : c.loop.events.isEmpty ≠ .ok false) :
    c.step (.gather env) = c.step (.gather { env with poll := .ok [] }) := by
  have hgather : c.loop.tasksGather env = c.loop.tasksGather { env with poll := .ok [] } := by
    unfold Loop.tasksGather Loop.tasksPoll
    split
    · rfl
    · simp only [bind_assoc]
      cases hdrain : c.loop.drainReleased with
      | error p => rfl
      | ok l =>
          obtain ⟨ios, _, ⟨⟩⟩ := Except.bind_eq_ok.mp hdrain
          cases hevents : c.loop.events.isEmpty with
          | error fault => simp only [Except.ok_bind, hevents, Except.mapError_error,
              Except.error_bind]
          | ok empty =>
              cases empty with
              | true => simp only [Except.ok_bind, hevents, Except.mapError_ok, ↓reduceIte]
              | false => exact absurd hevents hempty
  simp only [Config.step, hgather]

/-- All that is left to go wrong is a deregistration. -/
theorem Prudent.cause (hp : Prudent c a) {p : Panic} (h : Cause c a p) : p = .deregister := by
  cases h with
  | deregister => rfl
  | childTracked h => exact absurd h hp.untracked
  | instantOverflow h => exact absurd h hp.inTime
  | sigaction h => exact absurd h hp.catchable
  | noThreads h => exact absurd h hp.threaded
  | waitpid h => exact absurd h hp.decodable

theorem Sound.not_panic (hm : m.Lawful) (k : Sound m c s) (hfew : c.issued.length ≤ 2 ^ 64)
    (hp : Prudent c a) (hasks : Asks c calls a) (hserves : m.Serves s calls s') (p : Panic) :
    c.step a ≠ .error (.panic p) := by
  intro hpanic
  have hlets := k.inStep.not_deregister hm hasks hserves
  have hsane : MioSane c a := by
    intro env polled ha hpoll
    subst ha
    simp only [Asks] at hasks
    split at hasks
    · exact mioSane_of_reports hm k.mirrors (serves_one (hasks ▸ hserves)) env polled rfl hpoll
    · rename_i hempty
      -- Nobody has asked for this poll, so it may as well report nothing.
      exfalso
      have hnothing : MioSane c (.gather { env with poll := .ok [] }) := by
        rintro _ _ ⟨⟩ ⟨⟩ ev hmem
        cases hmem
      rw [step_unpolled hempty] at hpanic hlets
      cases k.intact.cause hfew hnothing hpanic with
      | deregister => exact hlets hpanic
      | waitpid h =>
          obtain ⟨_, ⟨⟩, _, _, hreaps⟩ := h
          exact hempty hreaps.occupied
      | childTracked h => obtain ⟨_, _, ⟨⟩, _⟩ := h
      | instantOverflow h => obtain ⟨_, _, ⟨⟩, _⟩ := h
      | sigaction h => obtain ⟨_, _, _, _, ⟨⟨⟩, _⟩ | ⟨⟨⟩, _⟩⟩ := h
      | noThreads h => obtain ⟨⟨⟩, _⟩ := h
  obtain rfl := hp.cause (k.intact.cause hfew hsane hpanic)
  exact hlets hpanic

/-! ## No standstill -/

/-- The action can be done, and mio plays its part. -/
def Goes (m : Mio) (c : Config Ev) (s : m.State) (a : Action Ev) : Prop :=
  ∃ calls s' c', Asks c calls a ∧ m.Serves s calls s' ∧ c.step a = .ok c'

/-- Whoever has the control can use it: a callback can return whatever it likes, and the loop goes
on with whatever the operating system reports. -/
def GoesOn (m : Mio) (c : Config Ev) (s : m.State) : Prop :=
  match c.ctl with
  | .user => c.stack ≠ [] → ∀ event resp, Goes m c s (.finish event resp)
  | .settle _ _ => ∀ handler, Goes m c s (.settle true handler)
  | .runOne =>
      (c.loop.scheduled ≠ [] → Goes m c s .tick) ∧
        (c.loop.scheduled = [] → ∀ env calls s', ¬MeetsRealTime c (.gather env) →
          Asks c calls (.gather env) → m.Serves s calls s' → ∃ c', c.step (.gather env) = .ok c')
  | _ => Goes m c s .tick

theorem prudent_of_not_call (c : Config Ev) {a : Action Ev} (ha : ∀ op, a ≠ .call op)
    (hdecodable : ¬MeetsRealTime c a) : Prudent c a where
  still := by
    rintro ⟨_, _, rfl, _⟩
    exact ha _ rfl
  keepsIos := by
    rintro ⟨_, _, _, _, rfl, _⟩
    exact ha _ rfl
  keepsObjects := by
    rintro ⟨_, _, rfl⟩
    exact ha _ rfl
  untracked := by
    rintro ⟨_, _, rfl, _⟩
    exact ha _ rfl
  inTime := by
    rintro ⟨_, _, rfl, _⟩
    exact ha _ rfl
  catchable := by
    rintro ⟨_, _, _, _, ⟨rfl, _⟩ | ⟨rfl, _⟩⟩ <;> exact ha _ rfl
  threaded := by
    rintro ⟨rfl, _⟩
    exact ha _ rfl
  decodable := hdecodable

theorem Sound.step (hm : m.Lawful) (k : Sound m c s) (hfew : c.issued.length ≤ 2 ^ 64)
    (ha : ∀ op, a ≠ .call op) (hdecodable : ¬MeetsRealTime c a) (hasks : Asks c calls a)
    (hserves : m.Serves s calls s') (henabled : Enabled c a) : ∃ c', c.step a = .ok c' :=
  henabled.step fun p =>
    k.not_panic hm hfew (prudent_of_not_call c ha hdecodable) hasks hserves p

theorem not_meetsRealTime (ha : ∀ env, a ≠ .gather env) : ¬MeetsRealTime c a := by
  rintro ⟨env, rfl, _⟩
  exact ha env rfl

/-- mio has an answer to the end of an event. -/
theorem Sound.settles (hm : m.Lawful) (k : Sound m c s) {handle : Handle} {resp : Response}
    (hctl : c.ctl = .settle handle resp) (handler : Except Error Unit) :
    ∃ calls s', Asks c calls (.settle true handler) ∧ m.Serves s calls s' := by
  have d := k.intact.reachable.visited.discipline
  obtain ⟨holder, hget, hgen, _⟩ := Loop.get?_of_tag (d.settling handle resp hctl)
  obtain ⟨hnodup, hwatched⟩ := k.mirrors.objectsOf_watched k.intact.ownership.toIoClaims hget hgen
  obtain ⟨s', hserves⟩ := hm.forgets hnodup hwatched
  rcases resp with err | _ | _
  · exact ⟨_, s', by simpa only [Asks, hctl] using ⟨_, .refl _, rfl⟩, hserves⟩
  · exact ⟨_, s', by simpa only [Asks, hctl] using ⟨_, .refl _, rfl⟩, hserves⟩
  · exact ⟨[], s, by simp only [Asks, hctl], .nil s⟩

theorem Sound.goesOn (hm : m.Lawful) (k : Sound m c s) (hfew : c.issued.length ≤ 2 ^ 64) :
    GoesOn m c s := by
  have hv := k.intact.reachable.visited
  have alone {a : Action Ev} (ha : ∀ op, a ≠ .call op) (hgather : ∀ env, a ≠ .gather env)
      (hasks : Asks c [] a) (henabled : Enabled c a) : Goes m c s a := by
    obtain ⟨c', hstep⟩ :=
      k.step hm hfew ha (not_meetsRealTime hgather) hasks (.nil s) henabled
    exact ⟨[], s, c', hasks, .nil s, hstep⟩
  unfold GoesOn
  split
  · rename_i hctl
    intro hstack event resp
    exact alone nofun nofun rfl (enabled_finish hv.stacked hctl hstack event resp)
  · rename_i handle resp hctl
    intro handler
    obtain ⟨calls, s', hasks, hserves⟩ := k.settles hm hctl handler
    have hstep : ∃ c', c.step (.settle true handler) = .ok c' :=
      k.step hm hfew nofun (not_meetsRealTime nofun) hasks hserves
        (enabled_settle hctl true handler)
    obtain ⟨c', hstep⟩ := hstep
    exact ⟨calls, s', c', hasks, hserves, hstep⟩
  · rename_i hctl
    refine ⟨fun hsched => ?_, fun hsched env calls s' hdecodable hasks hserves => ?_⟩
    · exact alone nofun nofun rfl (enabled_tick hv.attended (by simp [hctl]) (by simp [hctl])
        fun _ => hsched)
    · exact k.step hm hfew nofun hdecodable hasks hserves (enabled_gather hctl hsched env)
  · rename_i huser hsettle hrun
    exact alone nofun nofun rfl
      (enabled_tick hv.attended huser hsettle fun hctl => absurd hctl hrun)

/-- The loop over a lawful mio, used by a prudent user: with at most 2^64 insertions it never
panics, and whoever has the control can go on. -/
theorem prudent_runs_never_panic_or_stick (m : Mio) (hm : m.Lawful) (now : Nat) (c : Config Ev)
    (s : m.State) (h : Runs m Prudent now c s) (hfew : c.issued.length ≤ 2 ^ 64) :
    (∀ a calls s' p, Prudent c a → Asks c calls a → m.Serves s calls s' →
      c.step a ≠ .error (.panic p)) ∧ GoesOn m c s := by
  have k := sound_of_runs hm h
  exact ⟨fun a calls s' p hp hasks hserves => k.not_panic hm hfew hp hasks hserves p,
    k.goesOn hm hfew⟩

def prudent (c : Config Ev) : Action Ev → Bool
  | .call (.iface (.insertExact _ growth)) =>
      !c.loop.events.relocates growth || c.running.isEmpty
  | .call (.scope (.ioRemove _ _)) => false
  | .call (.scope (.ioMut _ left)) => left.isNone
  | .call (.scope (.child pid)) => !decide (pid ∈ c.loop.children)
  | .call (.scope (.timeoutAfter after)) => decide (c.loop.now + after < INSTANT_END)
  | .call (.scope (.signal signal)) | .call (.owner (.signalEnable signal)) => !signal.uncatchable
  | .call (.owner (.poolThreadCountSet cnt)) => cnt != 0
  | .gather env => !Loop.undecodable env.waits
  | .settle deregisters _ => deregisters
  | _ => true

theorem prudent_of_test (c : Config Ev) (a : Action Ev) (h : prudent c a = true) :
    Prudent c a ∧ ∀ handler, a ≠ .settle false handler := by
  refine ⟨⟨?_, ?_, ?_, ?_, ?_, ?_, ?_, ?_⟩, ?_⟩
  · rintro ⟨event, growth, rfl, hmove, hrunning⟩
    simp [prudent, hmove, hrunning] at h
  · rintro ⟨id, outcome, handle, io, rfl, _⟩
    cases h
  · rintro ⟨id, object, rfl⟩
    cases h
  · rintro ⟨pid, handle, rfl, _, _, hmem⟩
    simp [prudent, hmem] at h
  · rintro ⟨after, handle, rfl, _, _, hpast⟩
    exact absurd (of_decide_eq_true h) (Nat.not_lt.mpr hpast)
  · rintro ⟨signal, _, hsignal, _, ⟨rfl, _⟩ | ⟨rfl, _⟩⟩ <;> simp [prudent, hsignal] at h
  · rintro ⟨rfl, _⟩
    cases h
  · rintro ⟨env, rfl, _, _, hreaps⟩
    simp [prudent, hreaps.undecodable] at h
  · rintro handler rfl
    cases h

/-- The event with the two IOs can be buried. -/
theorem prudent_runs_never_panic_or_stick_givesUpReady :
    ∃ (c : Config Unit) (w : Nat → Option Nat), Runs selector Prudent 0 c w ∧
      c.ctl = .settle ⟨0, 0⟩ (.ok false) ∧ Goes selector c w (.settle true (.ok ())) := by
  obtain ⟨⟨c, w⟩, hdrive⟩ : ∃ s, drive prudent givesUpReady (init 0, fun _ => none) = some s :=
    Option.isSome_iff_exists.mp (by decide)
  have hends : (drive prudent givesUpReady (init 0, fun _ => none)).map
      (fun s => (s.1.ctl, s.1.issued.length)) = some (.settle ⟨0, 0⟩ (.ok false), 1) := rfl
  simp only [hdrive, Option.map_some, Option.some.injEq, Prod.mk.injEq] at hends
  have hruns := runs_of_drive prudent_of_test givesUpReady .start hdrive
  have hgoes := (prudent_runs_never_panic_or_stick selector selector_lawful 0 c w hruns
    (by omega)).2
  simp only [GoesOn, hends.1] at hgoes
  exact ⟨c, w, hruns, hends.1, hgoes (.ok ())⟩

end Mio

end Eveboros
