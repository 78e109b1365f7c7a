import Eveboros.Recycler.History
import Eveboros.Runs.Stopping

/-!
# When the loop is empty

`Error::Empty` comes out of a gather that finds no events, and out of error handlers, which may
return whatever they like.  `run_until_empty` takes both for the end of the events.
-/

namespace Eveboros

open TransitionSystem

variable {Ev : Type}

namespace Loop

variable {l l' : Loop Ev}

def NoEvents (l : Loop Ev) : Prop := ∀ idx, l.events.get? idx = none

theorem NoEvents.not_alive (h : l.NoEvents) (handle : Handle) : l.eventAlive handle = false := by
  simp [eventAlive, h handle.id]

/-! ## The errors of a gather -/

theorem childrenGather_error {waits : List WaitResult} {err : Error}
    (h : childrenGather waits l = .ok (.error err, l')) : ∃ e, err = .nix e := by
  induction waits generalizing l with
  | nil => cases h
  | cons answer answers ih =>
      unfold childrenGather at h
      split at h
      · cases h
      · cases h
      · cases h
      · cases h
        exact ⟨_, rfl⟩
      · obtain ⟨l₁, _, h⟩ := Except.bind_eq_ok.mp h
        exact ih h
      · obtain ⟨l₁, _, h⟩ := Except.bind_eq_ok.mp h
        exact ih h
      · cases h
      · exact ih h

theorem scanSignal_error {waits : List WaitResult} {signum : Nat} {err : Error}
    (h : l.scanSignal waits signum = .ok (.error err, l')) : ∃ e, err = .nix e := by
  simp only [scanSignal] at h
  split at h
  · split at h
    · cases h
      exact ⟨_, rfl⟩
    · split at h
      · obtain ⟨⟨reaped, l₁⟩, hreap, h⟩ := Except.bind_eq_ok.mp h
        cases reaped with
        | ok _ => cases h
        | error e =>
            cases h
            exact childrenGather_error hreap
      · cases h
  · cases h

theorem scanSignals_error {waits : List WaitResult} {signums : List Nat} {err : Error}
    (h : scanSignals waits signums l = .ok (.error err, l')) : ∃ e, err = .nix e := by
  induction signums generalizing l with
  | nil => cases h
  | cons signum rest ih =>
      obtain ⟨⟨scanned, l₁⟩, hscan, h⟩ := Except.bind_eq_ok.mp h
      cases scanned with
      | ok _ => exact ih h
      | error e =>
          cases h
          exact scanSignal_error hscan

theorem tasksGatherIo_error {waits : List WaitResult} {evs : List PollEvent} {err : Error}
    (h : tasksGatherIo waits evs l = .ok (.error err, l')) : ∃ e, err = .nix e := by
  induction evs generalizing l with
  | nil => cases h
  | cons ev rest ih =>
      obtain ⟨⟨gathered, l₁⟩, hev, h⟩ := Except.bind_eq_ok.mp h
      cases gathered with
      | ok _ => exact ih h
      | error e =>
          cases h
          unfold gatherEvent at hev
          split at hev
          · obtain ⟨_, _, hev⟩ := Except.bind_eq_ok.mp hev
            cases hev
          · split at hev
            · exact scanSignals_error hev
            · obtain ⟨_, _, hev⟩ := Except.bind_eq_ok.mp hev
              cases hev

/-- A gather fails if there are no events, or with an error of the operating system. -/
theorem tasksGather_error {env : GatherEnv} {err : Error}
    (h : l.tasksGather env = .ok (.error err, l')) :
    (err = .empty ∧ l'.NoEvents) ∨ (∃ kind, err = .io kind) ∨ ∃ e, err = .nix e := by
  obtain ⟨polled, hpoll, h⟩ := Except.bind_eq_ok.mp h
  cases polled with
  | woken l₁ =>
      obtain ⟨l₂, _, h⟩ := Except.bind_eq_ok.mp h
      cases h
  | ended result l₁ =>
      cases h
      unfold tasksPoll at hpoll
      split at hpoll
      · cases hpoll
      obtain ⟨l₁, _, hpoll⟩ := Except.bind_eq_ok.mp hpoll
      obtain ⟨empty, hempty, hpoll⟩ := Except.bind_eq_ok.mp hpoll
      cases empty with
      | true =>
          cases hpoll
          exact .inl ⟨rfl, Slab.isEmpty_iff.mp (Except.mapError_eq_ok.mp hempty)⟩
      | false =>
          simp only [Bool.false_eq_true, ↓reduceIte] at hpoll
          split at hpoll
          · cases hpoll
          · cases hpoll
            exact .inr (.inl ⟨_, rfl⟩)
          · obtain ⟨⟨gathered, l₂⟩, hio, hpoll⟩ := Except.bind_eq_ok.mp hpoll
            cases gathered with
            | ok _ => cases hpoll
            | error err =>
                cases hpoll
                exact .inr (.inr (tasksGatherIo_error hio))

end Loop

namespace Config

open Loop

variable {c c' : Config Ev} {a : Action Ev}

theorem gather_error {env : GatherEnv} {err : Error} (h : c.step (.gather env) = .ok c')
    (hctl : c'.ctl = .ret (.error err)) :
    (err = .empty ∧ c'.loop.NoEvents) ∨ (∃ kind, err = .io kind) ∨ ∃ e, err = .nix e := by
  obtain ⟨henabled, hsched⟩ := gather_enabled (.ok c') h
  simp only [step, henabled, hsched] at h
  obtain ⟨⟨result, l⟩, hg, h⟩ := Except.bind_eq_ok.mp h
  cases result with
  | ok _ =>
      cases h
      simp at hctl
  | error err =>
      cases h
      cases hctl
      exact tasksGather_error (Except.mapError_eq_ok.mp hg)

theorem gather_empty {env : GatherEnv} (h : c.step (.gather env) = .ok c')
    (hctl : c'.ctl = .ret (.error .empty)) : c'.loop.NoEvents := by
  rcases gather_error h hctl with ⟨_, hnone⟩ | ⟨kind, hio⟩ | ⟨e, hnix⟩
  · exact hnone
  · cases hio
  · cases hnix

/-! ## The success of `run_until_empty` -/

/-- `run_until_empty`, when it returns `Ok`, tells the truth: the loop holds no events or `stop`
was called since it began, and no error was turned into `Ok` while events remain. -/
def SuccessIsTrue (s : Overseen Ev) : Prop :=
  ∀ rest result c', s.1.stack = .runUntilEmpty :: rest → s.1.ctl = .ret result →
    s.1.step .tick = .ok c' → c'.log = .returned .runUntilEmpty (.ok .unit) :: s.1.log →
      (c'.loop.NoEvents ∨ ∃ inner outer, s.2 = inner :: outer ∧ inner.during = true) ∧
        ((∃ err, result = .error err) → c'.loop.NoEvents)

/-- The error handler passes `Error::Empty` on to `run_until_empty` while other events remain. -/
def FakesEmpty (c : Config Ev) (a : Action Ev) : Prop :=
  ∃ deregisters handle err rest, a = .settle deregisters (.error .empty) ∧
    c.ctl = .settle handle (.error err) ∧ c.stack = .runUntilEmpty :: rest ∧
    ∃ other, other ≠ handle.id ∧ c.loop.events.get? other ≠ none

/-- `Error::Empty` reaches `run_until_empty` only when there are no events. -/
def EmptyIsTrue (c : Config Ev) : Prop :=
  ∀ rest, c.stack = .runUntilEmpty :: rest → c.ctl = .ret (.error .empty) → c.loop.NoEvents

theorem EmptyIsTrue.of_ctl (h : c.ctl ≠ .ret (.error .empty)) : EmptyIsTrue c :=
  fun _ _ hctl => absurd hctl h

theorem not_emptyIsTrue_of_fake (hfake : FakesEmpty c a) (h : c.step a = .ok c') :
    ¬EmptyIsTrue c' := by
  rcases hfake with ⟨deregisters, handle, err, rest, rfl, hctl, hstack, other, hne, hother⟩
  intro q
  have e := step_edit h nofun
  cases e with
  | kept handle' ha hctl' =>
      rw [hctl] at hctl'
      cases hctl'
  | killed handle' resp result holder events _ handler ha hctl' hresp hget hfree hset =>
      rw [hctl] at hctl'
      cases hctl'
      cases ha
      rcases hresp with ⟨⟨⟩, _⟩ | ⟨_, _, rfl⟩
      have hnone := q rest hstack rfl other
      rw [hset.get? other, if_neg hne] at hnone
      exact hother hnone
  | _ => simp_all

theorem emptyIsTrue_step (q : EmptyIsTrue c) (hfake : ¬FakesEmpty c a) (h : c.step a = .ok c') :
    EmptyIsTrue c' := by
  by_cases hg : ∃ env, a = .gather env
  · rcases hg with ⟨env, rfl⟩
    exact fun _ _ => gather_empty h
  have e := step_edit h (not_exists.mp hg)
  cases e with
  | killed handle resp result holder events deregisters handler ha hctl hresp hget hfree hset =>
      intro rest hstack hempty other
      rw [hset.get? other]
      split
      · rfl
      · rename_i hne
        by_contra hother
        rcases hresp with ⟨_, rfl⟩ | ⟨err, rfl, rfl⟩
        · cases hempty
        · cases hempty
          exact hfake ⟨deregisters, handle, err, rest, ha, hctl, hstack, other, hne, hother⟩
  | gatherFailed err ha => exact absurd ha.env hg
  | turnedAway handle cb err ha hctl hwhy =>
      rcases hwhy with ⟨rfl, _⟩ | ⟨rfl, _⟩ <;> exact .of_ctl nofun
  | beganRunOne | beganRun | beganUntilComplete | stored | posted | entered | finished | kept
  | passed | lost | fired | again | gaveBack =>
      exact .of_ctl nofun
  | timer _ _ _ _ _ _ hctl | expected _ _ _ _ _ hctl | ioRegistered _ _ _ _ _ _ _ hctl
  | ioRemoved _ _ _ _ _ _ _ _ hctl | tracked _ _ _ _ _ hctl =>
      exact .of_ctl (by simp [answer, hctl])
  | reaped _ _ _ _ _ _ hctl => exact .of_ctl (by simp [hctl])
  | _ => exact q

/-- While the flag is cleared, `stop` has been called during every run in progress. -/
def StopNoted (s : Overseen Ev) : Prop := s.1.loop.active = false → ∀ n ∈ s.2, n.during = true

theorem during_of_noteStop {notes : List RunNote} : ∀ n ∈ noteStop notes, n.during = true := by
  cases notes with
  | nil => simp [noteStop]
  | cons inner outer => simp [noteStop]

theorem stopNoted_step {s s' : Overseen Ev} (q : StopNoted s) (h : overseen s a = .ok s') :
    StopNoted s' := by
  obtain ⟨hstep, hnote⟩ := observed_eq_ok.mp h
  intro hactive n hmem
  by_cases hbegin : BeginsRun a
  · rw [(step_begins hstep hbegin).2] at hactive
    cases hactive
  by_cases hstop : a = .call (.iface .stop)
  · subst hstop
    rw [hnote] at hmem
    exact during_of_noteStop n hmem
  rw [step_active hstep hbegin hstop] at hactive
  apply q hactive n
  by_cases htick : a = .tick
  · subst htick
    rw [hnote] at hmem
    simp only [note] at hmem
    split at hmem
    · exact List.mem_of_mem_tail hmem
    · exact hmem
  · rwa [hnote, note_of_other hbegin hstop htick] at hmem

theorem successIsTrue_iff {s : Overseen Ev} (hlen : s.2.length = s.1.runs) (hnoted : StopNoted s) :
    SuccessIsTrue s ↔ EmptyIsTrue s.1 := by
  constructor
  · intro q rest hstack hctl
    have htick : s.1.step .tick = .ok (s.1.giveBack .runUntilEmpty rest (.ok .unit)) := by
      simp [step, tick, hctl, resume, hstack]
    exact (q rest _ _ hstack hctl htick rfl).2 ⟨_, rfl⟩
  · intro q rest result c' hstack hctl htick hlog
    cases result with
    | ok _ =>
        rw [tick_run hstack rfl hctl] at htick
        cases hactive : s.1.loop.active with
        | true =>
            rw [hactive, if_pos rfl, Except.ok.injEq] at htick
            subst htick
            simp at hlog
        | false =>
            refine ⟨.inr ?_, fun herr => by obtain ⟨err, ⟨⟩⟩ := herr⟩
            cases hs : s.2 with
            | nil =>
                rw [hs, runs, hstack, List.countP_cons_of_pos rfl] at hlen
                cases hlen
            | cons inner outer =>
                exact ⟨inner, outer, rfl, hnoted hactive inner (by simp [hs])⟩
    | error err =>
        have hresume : s.1.step .tick = s.1.resume (.error err) := by simp [step, tick, hctl]
        rw [hresume, resume, hstack] at htick
        simp only at htick
        split at htick
        · rename_i heq
          cases heq
          cases htick
          exact ⟨.inl (q rest hstack hctl), fun _ => q rest hstack hctl⟩
        · cases htick
          simp [giveBack] at hlog
        · contradiction

/-- `run_until_empty` tells the truth exactly as long as no error handler passes `Error::Empty` on
to it while other events remain. -/
theorem run_until_empty_true_iff_no_fake (now : Nat) (as : List (Action Ev)) :
    Always overseen SuccessIsTrue (fresh now) as ↔
      Along overseen (fun s a => ¬FakesEmpty s.1 a) (fresh now) as := by
  apply always_iff_along (C := fun s => s.2.length = s.1.runs ∧ StopNoted s)
  · intro s s' a hc hs
    exact ⟨note_length hs hc.1, stopNoted_step hc.2 hs⟩
  · intro s s' a hc q hs
    have hstep := (observed_eq_ok.mp hs).1
    rw [successIsTrue_iff (note_length hs hc.1) (stopNoted_step hc.2 hs)]
    rw [successIsTrue_iff hc.1 hc.2] at q
    exact ⟨fun q' hfake => not_emptyIsTrue_of_fake hfake hstep q',
      fun hfake => emptyIsTrue_step q hfake hstep⟩
  · exact ⟨rfl, nofun⟩
  · intro rest result c' hstack
    cases hstack

/-- The first of two events fails with an error that it got elsewhere. -/
def borrowedError : List (Action Unit) :=
  insertIdle ++ insertIdle ++ [.call (.iface .runUntilEmpty)] ++ nextIdle ++
    [.finish () (.error .empty), .settle true (.error .empty)]

/-- The loop passes for empty, although the second event lives and nobody called `stop`. -/
theorem error_passes_for_success :
    ∃ s c' : Overseen Unit, run overseen (fresh 0) borrowedError = .ok s ∧
      overseen s .tick = .ok c' ∧
      c'.1.log = .returned .runUntilEmpty (.ok .unit) :: s.1.log ∧
      c'.1.loop.eventAlive ⟨1, 1⟩ = true ∧ s.2 = [⟨false, false⟩] ∧ ¬SuccessIsTrue s := by
  obtain ⟨s, t, hs, ht, hstack, hctl, hlog, halive, hnotes⟩ : ∃ s t : Overseen Unit,
      run overseen (fresh 0) borrowedError = .ok s ∧ overseen s .tick = .ok t ∧
      s.1.stack = [.runUntilEmpty] ∧ s.1.ctl = .ret (.error .empty) ∧
      t.1.log = .returned .runUntilEmpty (.ok .unit) :: s.1.log ∧
      t.1.loop.eventAlive ⟨1, 1⟩ = true ∧ s.2 = [⟨false, false⟩] :=
    ⟨_, _, rfl, rfl, rfl, rfl, rfl, rfl, rfl⟩
  refine ⟨s, t, hs, ht, hlog, halive, hnotes, fun q => ?_⟩
  have hnone := (q [] _ t.1 hstack hctl (observed_eq_ok.mp ht).1 hlog).2 ⟨_, rfl⟩
  rw [hnone.not_alive] at halive
  cases halive

end Config

end Eveboros
