import Eveboros.Runs.Reentrancy

/-!
# Runs in progress

An observer of the loop notes, for every `run` on the stack, whether `stop` has been called for
it.  The code has no such notes, only the one flag `active`; they say what the flag is about.
-/

namespace Eveboros

variable {Ev : Type}

/-- What has been asked of a run in progress. -/
structure RunNote where
  /-- `stop` was called while this run was the innermost one. -/
  addressed : Bool
  /-- `stop` was called since the run began. -/
  during : Bool
  deriving DecidableEq, Repr

/-- The frames of the operations that go on until `active` is cleared. -/
def Frame.isRun : Frame → Bool
  | .run => true
  | .runUntilEmpty => true
  | _ => false

/-- A call of `stop` is addressed to the innermost run. -/
def noteStop : List RunNote → List RunNote
  | [] => []
  | _ :: outer => ⟨true, true⟩ :: outer.map fun n => { n with during := true }

namespace Config

open TransitionSystem

def runs (c : Config Ev) : Nat := c.stack.countP Frame.isRun

/-- The notes, innermost run first. -/
def note (c : Config Ev) (a : Action Ev) (c' : Config Ev) (notes : List RunNote) : List RunNote :=
  match a with
  | .call (.iface .run) => ⟨false, false⟩ :: notes
  | .call (.iface .runUntilEmpty) => ⟨false, false⟩ :: notes
  | .call (.iface .stop) => noteStop notes
  | .tick => if c'.runs < c.runs then notes.tail else notes
  | _ => notes

/-- The loop with the notes about its runs. -/
abbrev Overseen (Ev : Type) := Config Ev × List RunNote

def overseen : Overseen Ev → Action Ev → Except Fault (Overseen Ev) := observed step note

def fresh (now : Nat) : Overseen Ev := (init now, [])

def BeginsRun (a : Action Ev) : Prop :=
  a = .call (.iface .run) ∨ a = .call (.iface .runUntilEmpty)

variable {c c' : Config Ev} {a : Action Ev} {s s' : Overseen Ev}

/-! ## What the actions do to runs and to the flag -/

theorem step_begins (h : c.step a = .ok c') (ha : BeginsRun a) :
    c'.runs = c.runs + 1 ∧ c'.loop.active = true := by
  cases hctl : c.ctl with
  | user =>
      rcases ha with rfl | rfl
      · simp only [step, hctl] at h
        cases h
        exact ⟨List.countP_cons_of_pos rfl, rfl⟩
      · simp only [step, hctl] at h
        cases h
        exact ⟨List.countP_cons_of_pos rfl, rfl⟩
  | _ => rcases ha with rfl | rfl <;> simp [step, hctl] at h

theorem step_runs (h : c.step a = .ok c') (hbegin : ¬BeginsRun a) (htick : a ≠ .tick) :
    c'.runs = c.runs := by
  rcases step_cases h with ⟨env, rfl⟩ | e
  · exact congrArg (List.countP Frame.isRun)
      (gather_frame Config.stack (fun _ _ => Edit.stack_of_gather) h)
  · cases e with
    | beganRun frame ha => exact absurd (ha.imp And.left And.left) hbegin
    | gaveBack frame rest result ans ha => exact absurd ha htick
    | entered _ _ _ _ ha => exact absurd ha htick
    | finished handle cb data rest event resp holder events ha hctl hstack =>
        simp [runs, hstack, Frame.isRun]
    | _ => rfl

theorem step_active (h : c.step a = .ok c') (hbegin : ¬BeginsRun a)
    (hstop : a ≠ .call (.iface .stop)) : c'.loop.active = c.loop.active := by
  rcases step_cases h with ⟨env, rfl⟩ | e
  · apply gather_frame (fun c => c.loop.active) _ h
    intro c c' e
    cases e <;> first | rfl | simp_all
  · cases e with
    | beganRun frame ha => exact absurd (ha.imp And.left And.left) hbegin
    | stopped ha => exact absurd ha hstop
    | _ => rfl

theorem step_stop (h : c.step (.call (.iface .stop)) = .ok c') :
    c'.runs = c.runs ∧ c'.loop.active = false := by
  refine ⟨step_runs h (by simp [BeginsRun]) nofun, ?_⟩
  cases hctl : c.ctl with
  | user =>
      simp only [step, hctl] at h
      cases h
      rfl
  | _ => simp [step, hctl] at h

/-! ## How a run goes on -/

/-- The run on top of the stack returns: it was handed an error, or finds the flag cleared. -/
def RunReturns (c : Config Ev) : Prop :=
  ∃ frame rest result, c.stack = frame :: rest ∧ frame.isRun = true ∧ c.ctl = .ret result ∧
    (result = .ok () → c.loop.active = false)

/-- One turn of the loop in `run`. -/
theorem tick_run {frame : Frame} {rest : List Frame} (hstack : c.stack = frame :: rest)
    (hrun : frame.isRun = true) (hctl : c.ctl = .ret (.ok ())) :
    c.step .tick = .ok (if c.loop.active then { c with ctl := .runOne }
      else c.giveBack frame rest (.ok .unit)) := by
  have htick : c.step .tick = c.resume (.ok ()) := by simp [step, tick, hctl]
  rw [htick, resume, hstack]
  cases frame with
  | run => cases hactive : c.loop.active <;> simp
  | runUntilEmpty => cases hactive : c.loop.active <;> simp
  | _ => cases hrun

theorem resume_error_of_run {frame : Frame} {rest : List Frame} (hstack : c.stack = frame :: rest)
    (hrun : frame.isRun = true) (err : Error) :
    ∃ ans, c.resume (.error err) = .ok (c.giveBack frame rest ans) := by
  rw [resume, hstack]
  cases frame with
  | run => exact ⟨_, rfl⟩
  | runUntilEmpty =>
      simp only
      split
      · exact ⟨_, rfl⟩
      · exact ⟨_, rfl⟩
      · contradiction
  | _ => cases hrun

theorem runs_of_returns (hret : RunReturns c) (h : c.step .tick = .ok c') :
    c'.runs + 1 = c.runs := by
  rcases hret with ⟨frame, rest, result, hstack, hrun, hctl, hactive⟩
  have hgive : ∀ ans, (c.giveBack frame rest ans).runs + 1 = c.runs := by
    intro ans
    simp [runs, giveBack, hstack, hrun]
  cases result with
  | ok _ =>
      rw [tick_run hstack hrun hctl, hactive rfl] at h
      cases h
      exact hgive _
  | error err =>
      have htick : c.step .tick = c.resume (.error err) := by simp [step, tick, hctl]
      obtain ⟨ans, hans⟩ := resume_error_of_run hstack hrun err
      rw [htick, hans] at h
      cases h
      exact hgive ans

theorem runs_of_not_returns (hret : ¬RunReturns c) (h : c.step .tick = .ok c') :
    c'.runs = c.runs := by
  have e := step_edit h nofun
  cases e with
  | beganRun frame ha => simp at ha
  | finished _ _ _ _ _ _ _ _ ha => cases ha
  | gaveBack frame rest result ans ha hctl hstack hframe =>
      cases hrun : frame.isRun with
      | false => simp [runs, giveBack, hstack, hrun]
      | true =>
          exfalso
          apply hret
          refine ⟨frame, rest, result, hstack, hrun, hctl, fun hok => ?_⟩
          subst hok
          rw [tick_run hstack hrun hctl] at h
          cases hactive : c.loop.active with
          | false => rfl
          | true =>
              simp only [hactive, ↓reduceIte, Except.ok.injEq] at h
              have hsame := congrArg (fun c : Config Ev => c.stack.length) h
              simp [giveBack, hstack] at hsame
  | _ => rfl

/-- The notes follow the stack. -/
theorem note_length (h : overseen s a = .ok s') (hlen : s.2.length = s.1.runs) :
    s'.2.length = s'.1.runs := by
  obtain ⟨hstep, hnote⟩ := observed_eq_ok.mp h
  rw [hnote]
  by_cases hbegin : BeginsRun a
  · have hruns := (step_begins hstep hbegin).1
    rcases hbegin with rfl | rfl <;> simp [note, hlen, hruns]
  by_cases htick : a = .tick
  · subst htick
    simp only [note]
    by_cases hret : RunReturns s.1
    · have hruns := runs_of_returns hret hstep
      rw [if_pos (by omega), List.length_tail]
      omega
    · have hruns := runs_of_not_returns hret hstep
      rw [if_neg (by omega), hlen, hruns]
  · have hruns := step_runs hstep hbegin htick
    rw [hruns, ← hlen]
    unfold note
    split
    · simp [BeginsRun] at hbegin
    · simp [BeginsRun] at hbegin
    · cases s.2 <;> simp [noteStop]
    · exact absurd rfl htick
    · rfl

end Config

end Eveboros
