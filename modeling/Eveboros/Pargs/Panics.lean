import Eveboros.Pargs.Success
import Eveboros.Runs.Panics
import Eveboros.Runs.Readiness

/-!
# When the program panics

It asks the loop for little, and only in ways that the loop can stand: runners are inserted outside
of all callbacks, no IO is ever registered, and every child is new.  What remains are a complaint
that cannot be written and a command that a real-time signal has killed.
-/

namespace Eveboros.Pargs

open Config Loop TransitionSystem

variable {p p' : Program} {jobs : Nat} {lines : List (Except IoErrorKind String)} {act : Act}

def Used : Action Runner → Prop
  | .call (.iface (.insertExact _ _)) | .call (.iface .runUntilEmpty) => True
  | .call (.scope (.child _)) => True
  | .call _ => False
  | .settle deregisters _ => deregisters = true
  | _ => True

structure Modest (act : Act) (c : Config Runner) (a : Action Runner) : Prop where
  used : Used a
  inserts : ∀ event growth, a = .call (.iface (.insertExact event growth)) → c.running = []
  tracks : ∀ pid, a = .call (.scope (.child pid)) → pid ∉ c.loop.children
  gathers : a.IsGather → act = .other a

theorem Modest.not_breaks {c : Config Runner} {a : Action Runner} (h : Modest act c a) :
    ¬Breaks c a := by
  rintro (⟨id, outcome, _, _, rfl, _⟩ | ⟨event, growth, rfl, _, hrunning⟩)
  · exact h.used
  · exact hrunning (h.inserts event growth rfl)

/-- The only panic of the loop that is left. -/
theorem Modest.cause {c : Config Runner} {a : Action Runner} (h : Modest act c a) {panic : Panic}
    (hcause : Cause c a panic) :
    panic = .waitpid ∧ ∃ a, act = .other a ∧ MeetsRealTime c a := by
  cases hcause with
  | waitpid hmeets =>
      obtain ⟨env, rfl, _⟩ := id hmeets
      exact ⟨rfl, _, h.gathers trivial, hmeets⟩
  | childTracked htwice =>
      obtain ⟨pid, _, rfl, _, _, hmem⟩ := htwice
      exact absurd hmem (h.tracks pid rfl)
  | deregister hcannot =>
      obtain ⟨_, _, _, _, rfl, _⟩ := hcannot
      cases h.used
  | instantOverflow hlate =>
      obtain ⟨_, _, rfl, _⟩ := hlate
      exact h.used.elim
  | sigaction hwants =>
      obtain ⟨_, _, _, _, ⟨rfl, _⟩ | ⟨rfl, _⟩⟩ := hwants <;> exact h.used.elim
  | noThreads hempties =>
      obtain ⟨rfl, _⟩ := hempties
      exact h.used.elim

/-- A runner complains about its command, and that cannot be written. -/
def ComplainsInVain (p : Program) (act : Act) : Prop :=
  ∃ handle pid exit event cmd text spawn err, (∀ result, p.owner ≠ .returned result) ∧
    p.stage = .entered handle (.child pid exit) event ∧ event.command = some cmd ∧
    complaint cmd exit = some text ∧ act = .callback spawn (some err)

/-- What a step of the program performs, or why it performs nothing. -/
inductive Performs (p : Program) (act : Act) (out : Except Fault Program) : Prop
  | stays (p' : Program) (h : out = .ok p') (hconf : p'.conf = p.conf)
  | disabled (h : out = .error (.loop .disabled))
  | unwrap (h : out = .error .unwrap) (handle : Handle) (pid : Pid) (exit : ChildExit)
      (event : Runner) (hstage : p.stage = .entered handle (.child pid exit) event)
      (hnone : event.command = none)
  | complains (h : out = .error .stderr) (hvain : ComplainsInVain p act)
  | does (a : Action Runner) (modest : Modest act p.conf a)
      (h : out.map Program.conf = (p.conf.step a).mapError .loop)

theorem perform_performs {q : Program} {a : Action Runner} (hconf : q.conf = p.conf)
    (modest : Modest act p.conf a) : Performs p act (q.perform a) := by
  refine .does a modest ?_
  rw [← hconf]
  unfold Program.perform
  cases q.conf.step a <;> rfl

theorem finish_performs {q : Program} {event : Runner} {resp : Response}
    (hconf : q.conf = p.conf) : Performs p act (q.finish event resp) :=
  perform_performs hconf ⟨trivial, nofun, nofun, nofun⟩

theorem proceed_performs {growth : Growth} : Performs p act (p.proceed growth) := by
  unfold Program.proceed
  split
  · rename_i hctl hstack
    split
    · exact .disabled rfl
    · exact .stays _ rfl rfl
    · exact perform_performs rfl ⟨trivial, nofun, nofun, nofun⟩
    · refine perform_performs rfl ⟨trivial, fun _ _ _ => ?_, nofun, nofun⟩
      rw [running, hstack]
      rfl
    · exact .stays _ rfl rfl
    · exact .disabled rfl
  · exact .disabled rfl

theorem callback_performs {spawn : Except IoErrorKind Pid} {written : Option IoErrorKind}
    (hrunning : ∀ result, p.owner ≠ .returned result) :
    Performs p (.callback spawn written) (p.callback spawn written) := by
  unfold Program.callback
  split
  · exact .disabled rfl
  · exact .stays _ rfl rfl
  · rename_i handle pid exit event hstage
    split
    · rename_i cmd hcmd
      unfold Program.hear
      split
      · rename_i text err htext
        exact .complains rfl
          ⟨handle, pid, exit, event, cmd, text, spawn, err, hrunning, hstage, hcmd, htext, rfl⟩
      · exact .stays _ rfl rfl
    · exact .unwrap rfl handle pid exit event hstage ‹_›
  · exact finish_performs rfl
  · unfold Program.run
    split
    · exact finish_performs rfl
    · exact finish_performs rfl
    · split
      · exact finish_performs rfl
      · split
        · exact .disabled rfl
        · refine perform_performs rfl ⟨trivial, nofun, ?_, nofun⟩
          rintro _ ⟨⟩
          assumption
  · exact finish_performs rfl

theorem step_performs (p : Program) (act : Act) : Performs p act (p.step act) := by
  unfold Program.step
  split
  · exact .disabled rfl
  · exact proceed_performs
  · rename_i spawn written hrunning
    exact callback_performs hrunning
  · exact perform_performs rfl ⟨rfl, nofun, nofun, nofun⟩
  · refine .does .tick ⟨trivial, nofun, nofun, nofun⟩ ?_
    unfold Program.tick
    cases p.conf.step .tick <;> rfl
  · rename_i a _
    unfold Program.other
    cases a with
    | call | finish | settle | tick => exact .disabled rfl
    | _ => exact perform_performs rfl ⟨trivial, nofun, nofun, fun _ => rfl⟩

/-- The loop under the program stays intact. -/
theorem reach_conf {now : Nat}
    (h : Reach Program.step (fun _ _ => True) (.init now jobs lines) p) :
    Reach Config.step (fun c a => ¬Breaks c a) (Config.init now) p.conf := by
  refine h.invariant (Q := fun p => Reach Config.step (fun c a => ¬Breaks c a) (.init now) p.conf)
    .start fun q q' act' ih _ hs => ?_
  have hperforms := step_performs q act'
  rw [hs] at hperforms
  cases hperforms with
  | stays p' h hconf =>
      cases h
      rw [hconf]
      exact ih
  | does a modest h =>
      exact ih.next modest.not_breaks (Except.mapError_eq_ok.mp h.symm)
  | disabled h | unwrap h | complains h => cases h

theorem step_callback {spawn : Except IoErrorKind Pid} {written : Option IoErrorKind}
    (hrunning : ∀ result, p.owner ≠ .returned result) :
    p.step (.callback spawn written) = p.callback spawn written := by
  cases howner : p.owner with
  | returned result => exact absurd howner (hrunning result)
  | _ => simp only [Program.step, howner]

theorem ComplainsInVain.panics (h : ComplainsInVain p act) : p.step act = .error .stderr := by
  obtain ⟨handle, pid, exit, event, cmd, text, spawn, err, hrunning, hstage, hcmd, htext, rfl⟩ := h
  simp only [step_callback hrunning, Program.callback, hstage, hcmd, Program.hear, htext]

/-- A gather of a program that has not returned. -/
theorem step_gather {env : GatherEnv} (hrunning : ∀ result, p.owner ≠ .returned result) :
    p.step (.other (.gather env)) = p.perform (.gather env) := by
  cases howner : p.owner with
  | returned result => exact absurd howner (hrunning result)
  | _ => simp only [Program.step, howner, Program.other]

/-- With fewer than 2^64 jobs and as long as mio reports only what is registered, the program panics
exactly if it cannot write a complaint, or if a command was killed by a real-time signal. -/
theorem pargs_panics_iff (p : Program) (now : Nat)
    (h : Reach Program.step (fun _ _ => True) (.init now jobs lines) p) (hjobs : jobs < 2 ^ 64)
    (act : Act) (hsane : ∀ a, act = .other a → MioSane p.conf a) :
    p.step act ≠ .error .unwrap ∧
    (p.step act = .error .stderr ↔ ComplainsInVain p act) ∧
    ∀ panic, p.step act = .error (.loop (.panic panic)) ↔
      panic = .waitpid ∧ (∀ result, p.owner ≠ .returned result) ∧
        ∃ a, act = .other a ∧ MeetsRealTime p.conf a := by
  have q := sound_of_reach h
  have hloop := intact_of_reach (reach_conf h)
  have hfew := q.ledger.few.trans hjobs.le
  have hiff {a : Action Runner} (modest : Modest act p.conf a) (panic : Panic) :
      p.conf.step a = .error (.panic panic) ↔ Cause p.conf a panic := by
    refine hloop.panics_iff hfew (fun env polled ha => ?_) panic
    subst ha
    exact hsane _ (modest.gathers trivial) env polled rfl
  refine ⟨fun hunwrap => ?_, ⟨fun hstderr => ?_, fun hvain => hvain.panics⟩, fun panic =>
    ⟨fun hpanic => ?_, ?_⟩⟩
  · cases step_performs p act with
    | unwrap _ handle pid exit event hstage hnone =>
        obtain ⟨cmd, hsome, _⟩ := q.roster.told hstage
        simp [hnone] at hsome
    | does a modest hs =>
        rw [hunwrap] at hs
        obtain ⟨_, _, ⟨⟩⟩ := Except.mapError_eq_error.mp hs.symm
    | stays _ hs | disabled hs | complains hs => cases hunwrap.symm.trans hs
  · cases step_performs p act with
    | complains _ hvain => exact hvain
    | does a modest hs =>
        rw [hstderr] at hs
        obtain ⟨_, _, ⟨⟩⟩ := Except.mapError_eq_error.mp hs.symm
    | stays _ hs | disabled hs | unwrap hs => cases hstderr.symm.trans hs
  · cases step_performs p act with
    | does a modest hs =>
        rw [hpanic] at hs
        obtain ⟨_, hfault, ⟨⟩⟩ := Except.mapError_eq_error.mp hs.symm
        obtain ⟨rfl, hmeets⟩ := modest.cause ((hiff modest panic).mp hfault)
        refine ⟨rfl, fun result howner => ?_, hmeets⟩
        simp [Program.step, howner] at hpanic
    | stays _ hs | disabled hs | unwrap hs | complains hs => cases hpanic.symm.trans hs
  · rintro ⟨rfl, hrunning, a, rfl, hmeets⟩
    obtain ⟨env, rfl, _⟩ := id hmeets
    have modest : Modest (.other (.gather env)) p.conf (.gather env) :=
      ⟨trivial, by simp, by simp, fun _ => rfl⟩
    rw [step_gather hrunning, Program.perform, (hiff modest .waitpid).mpr (.waitpid hmeets)]

/-- mio reports the signal of the second child, which has been killed by the signal 40. -/
def secondExit : Act := .other (.gather ⟨1, .ok [⟨1, ⟨1⟩, 0⟩], 2, [.ok (.realTime 6 40)]⟩)

theorem pargs_panics_iff_secondExit :
    (Program.after (firstLine ++ [.other (.dispatch .SIGCHLD)])).step secondExit =
      .error (.loop (.panic .waitpid)) := by
  have hsane (a : Action Runner) (h : secondExit = .other a) :
      MioSane (Program.after (firstLine ++ [.other (.dispatch .SIGCHLD)])).conf a := by
    cases h
    exact mioSane_of_sane _ _ rfl
  have h := pargs_panics_iff _ 0 (reach_acts _) (by decide) secondExit hsane
  refine (h.2.2 .waitpid).mpr ⟨rfl, nofun, _, rfl, _, rfl, rfl, rfl, ?_⟩
  exact ⟨rfl, ⟨_, rfl, _, List.mem_singleton_self _, rfl⟩, rfl, rfl⟩

end Eveboros.Pargs
