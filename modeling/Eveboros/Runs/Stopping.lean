import Eveboros.Runs.Nesting

/-!
# Stopping runs

`stop` is meant for the innermost run in progress, but all runs share one flag.  The flag speaks
for the innermost run exactly as long as a run inside another one never returns unless `stop` has
been addressed to both of them or to neither.
-/

namespace Eveboros.Config

open TransitionSystem

variable {Ev : Type} {s s' : Overseen Ev} {a : Action Ev}

/-- The flag says whether the innermost run has been asked to stop. -/
def Obeys (s : Overseen Ev) : Prop :=
  ∀ inner outer, s.2 = inner :: outer → s.1.loop.active = !inner.addressed

/-- The innermost run, when it looks at the flag after a callback, returns exactly if it has been
asked to. -/
def EndsWhenAsked (s : Overseen Ev) : Prop :=
  ∀ frame rest, s.1.stack = frame :: rest → frame.isRun = true → s.1.ctl = .ret (.ok ()) →
    ∃ inner outer, s.2 = inner :: outer ∧ s.1.step .tick =
      .ok (if inner.addressed then s.1.giveBack frame rest (.ok .unit)
        else { s.1 with ctl := .runOne })

/-- If this step is the return of a run inside another one, `stop` has been addressed to both or
to neither. -/
def RequestsAgree (s : Overseen Ev) (a : Action Ev) : Prop :=
  a = .tick → RunReturns s.1 →
    ∀ inner outer rest, s.2 = inner :: outer :: rest → inner.addressed = outer.addressed

theorem note_of_other {c c' : Config Ev} {notes : List RunNote} (hbegin : ¬BeginsRun a)
    (hstop : a ≠ .call (.iface .stop)) (htick : a ≠ .tick) : note c a c' notes = notes := by
  unfold note
  split
  · simp [BeginsRun] at hbegin
  · simp [BeginsRun] at hbegin
  · exact absurd rfl hstop
  · exact absurd rfl htick
  · rfl

theorem Obeys.congr (q : Obeys s) (hnotes : s'.2 = s.2)
    (hactive : s'.1.loop.active = s.1.loop.active) : Obeys s' := by
  intro inner outer hs
  rw [hactive]
  exact q inner outer (hnotes ▸ hs)

/-- The return of a run uncovers the one around it, with the flag as the inner one left it. -/
theorem obeys_returned (hlen : s.2.length = s.1.runs) (q : Obeys s) (hret : RunReturns s.1)
    (hactive : s'.1.loop.active = s.1.loop.active) (hnotes : s'.2 = s.2.tail) :
    Obeys s' ↔ ∀ inner outer rest, s.2 = inner :: outer :: rest →
      inner.addressed = outer.addressed := by
  rcases hret with ⟨frame, rest, result, hstack, hrun, _⟩
  cases hs : s.2 with
  | nil => simp [hs, runs, hstack, hrun] at hlen
  | cons inner tail =>
      have hinner := q inner tail hs
      rw [hs, List.tail_cons] at hnotes
      constructor
      · intro q' inner' outer rest' heq
        obtain ⟨rfl, rfl⟩ := List.cons.inj heq
        have houter := q' outer rest' hnotes
        rw [hactive, hinner] at houter
        exact Bool.not_inj houter
      · intro hagree outer rest' hs'
        rw [hactive, hinner, hagree inner outer rest' (by rw [← hs', hnotes])]

/-- One step, from a state in which the flag is right. -/
theorem obeys_step (hlen : s.2.length = s.1.runs) (q : Obeys s) (h : overseen s a = .ok s') :
    Obeys s' ↔ RequestsAgree s a := by
  obtain ⟨hstep, hnote⟩ := observed_eq_ok.mp h
  by_cases hbegin : BeginsRun a
  · have hactive := (step_begins hstep hbegin).2
    have hnotes : s'.2 = ⟨false, false⟩ :: s.2 := by
      rw [hnote]
      rcases hbegin with rfl | rfl <;> rfl
    refine iff_of_true ?_ ?_
    · intro inner outer hs'
      rw [hnotes] at hs'
      cases hs'
      exact hactive
    · rintro rfl
      simp [BeginsRun] at hbegin
  by_cases hstop : a = .call (.iface .stop)
  · subst hstop
    refine iff_of_true ?_ ?_
    · intro inner outer hs'
      rw [(step_stop hstep).2]
      rw [hnote, note] at hs'
      cases hs : s.2 with
      | nil => simp [hs, noteStop] at hs'
      | cons _ _ =>
          rw [hs, noteStop] at hs'
          cases hs'
          rfl
    · intro htick
      cases htick
  have hactive := step_active hstep hbegin hstop
  by_cases htick : a = .tick
  · subst htick
    by_cases hret : RunReturns s.1
    · have hruns := runs_of_returns hret hstep
      have hnotes : s'.2 = s.2.tail := by
        rw [hnote, note, if_pos (by omega)]
      rw [obeys_returned hlen q hret hactive hnotes]
      exact ⟨fun hagree _ _ => hagree, fun hagree => hagree rfl hret⟩
    · have hruns := runs_of_not_returns hret hstep
      have hnotes : s'.2 = s.2 := by
        rw [hnote, note, if_neg (by omega)]
      exact iff_of_true (q.congr hnotes hactive) fun _ hret' => absurd hret' hret
  · have hnotes : s'.2 = s.2 := by
      rw [hnote, note_of_other hbegin hstop htick]
    exact iff_of_true (q.congr hnotes hactive) fun htick' => absurd htick' htick

theorem Obeys.endsWhenAsked (q : Obeys s) (hlen : s.2.length = s.1.runs) : EndsWhenAsked s := by
  intro frame rest hstack hrun hctl
  cases hs : s.2 with
  | nil => simp [hs, runs, hstack, hrun] at hlen
  | cons inner outer =>
      refine ⟨inner, outer, rfl, ?_⟩
      rw [tick_run hstack hrun hctl, q inner outer hs]
      cases inner.addressed <;> rfl

/-- The one flag serves all nested runs exactly as long as an inner run returns only when `stop` has
been addressed to both it and the run around it, or to neither.  Until then `stop` ends the
innermost run and no other. -/
theorem stop_ends_innermost_iff_requests_agree (now : Nat) :
    (∀ as : List (Action Ev), Always overseen Obeys (fresh now) as ↔
      Along overseen RequestsAgree (fresh now) as) ∧
    ∀ s : Overseen Ev, Reach overseen RequestsAgree (fresh now) s → EndsWhenAsked s := by
  have hstart : Obeys (fresh now : Overseen Ev) := nofun
  constructor
  · intro as
    exact always_iff_along (C := fun s => s.2.length = s.1.runs)
      (fun s s' a hlen hs => note_length hs hlen) (fun s s' a hlen q hs => obeys_step hlen q hs) as
      (fresh now) rfl hstart
  · intro s hreach
    obtain ⟨hlen, q⟩ : s.2.length = s.1.runs ∧ Obeys s :=
      hreach.invariant (Q := fun s => s.2.length = s.1.runs ∧ Obeys s) ⟨rfl, hstart⟩
        fun s s' a ih hagree hs => ⟨note_length hs ih.1, (obeys_step ih.1 ih.2 hs).mpr hagree⟩
    exact q.endsWhenAsked hlen

/-- An event that wants to be called when the loop is idle. -/
def insertIdle : List (Action Unit) :=
  [.call (.iface (.insertExact () ⟨3, true⟩)), .tick, .call (.scope .idle), .finish () (.ok true),
    .settle true (.ok ()), .tick]

/-- Gather the next idle task and call the event. -/
def nextIdle : List (Action Unit) := [.gather ⟨0, .ok [], 0, []⟩, .tick, .tick]

/-- The callback returns, and its event lives on. -/
def liveOn : List (Action Unit) := [.finish () (.ok true), .settle true (.ok ())]

/-- The first event runs the loop from its callback, and the second one stops it. -/
def innerStop : List (Action Unit) :=
  insertIdle ++ insertIdle ++ [.call (.iface .run)] ++ nextIdle ++ [.call (.iface .run)] ++
    nextIdle ++ [.call (.iface .stop)] ++ liveOn ++ [.tick] ++ liveOn

/-- The first event stops the loop and runs it once more, until the second one fails. -/
def stopThenRun : List (Action Unit) :=
  insertIdle ++ insertIdle ++ [.call (.iface .run)] ++ nextIdle ++
    [.call (.iface .stop), .call (.iface .run)] ++ nextIdle ++
    [.finish () (.error .missing), .settle true (.error .missing), .tick] ++ liveOn

/-- A `stop` for the inner run ends the outer one as well, and a `stop` for the outer one is
forgotten when an inner run begins after it. -/
theorem stop_misses_its_run :
    ∃ s t : Overseen Unit, run overseen (fresh 0) innerStop = .ok s ∧ ¬EndsWhenAsked s ∧
      run overseen (fresh 0) stopThenRun = .ok t ∧ ¬EndsWhenAsked t := by
  obtain ⟨s, t, hs, ht, hstacks, hctls, hnotes⟩ : ∃ s t : Overseen Unit,
      run overseen (fresh 0) innerStop = .ok s ∧ run overseen (fresh 0) stopThenRun = .ok t ∧
      (s.1.stack = [.run] ∧ t.1.stack = [.run]) ∧
      (s.1.ctl = .ret (.ok ()) ∧ t.1.ctl = .ret (.ok ())) ∧
      (s.2 = [⟨false, true⟩] ∧ s.1.loop.active = false) ∧
      (t.2 = [⟨true, true⟩] ∧ t.1.loop.active = true) :=
    ⟨_, _, rfl, rfl, ⟨rfl, rfl⟩, ⟨rfl, rfl⟩, ⟨rfl, rfl⟩, rfl, rfl⟩
  refine ⟨s, t, hs, fun hends => ?_, ht, fun hends => ?_⟩
  · obtain ⟨inner, outer, hnote, htick⟩ := hends .run [] hstacks.1 rfl hctls.1
    rw [hnotes.1.1] at hnote
    cases hnote
    rw [tick_run hstacks.1 rfl hctls.1, hnotes.1.2] at htick
    have hstack := congrArg
      (fun c : Except Fault (Config Unit) => c.toOption.map Config.stack) htick
    simp [Except.toOption, giveBack, hstacks.1] at hstack
  · obtain ⟨inner, outer, hnote, htick⟩ := hends .run [] hstacks.2 rfl hctls.2
    rw [hnotes.2.1] at hnote
    cases hnote
    rw [tick_run hstacks.2 rfl hctls.2, hnotes.2.2] at htick
    have hstack := congrArg
      (fun c : Except Fault (Config Unit) => c.toOption.map Config.stack) htick
    simp [Except.toOption, giveBack, hstacks.2] at hstack

end Eveboros.Config
