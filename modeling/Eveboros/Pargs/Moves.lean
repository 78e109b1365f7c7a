import Eveboros.Pargs.Habits

/-!
# The moves of the program

One callback runs at a time, and outside of it at most one operation.  `Move p p'` lists what a
step can do then, with everything that it does to the loop.
-/

namespace Eveboros.Pargs

open Config Loop TransitionSystem

variable {c : Config Runner} {a : Action Runner} {handle : Handle} {cb : Callback}

/-! ## The moves -/

/-- How the stage of the program shows in the loop under it. -/
structure Shape (p : Program) : Prop where
  reachable : p.conf.Reachable
  children : OnlyChildren p.conf.log
  outside : p.stage.handle = none → p.conf.running = []
  inside (handle : Handle) : p.stage.handle = some handle →
    p.conf.running = [handle] ∧ p.conf.ctl = .user
  kind (handle : Handle) (cb : Callback) (event : Runner) : p.stage = .entered handle cb event →
    cb = .init ∨ ∃ pid exit, cb = .child pid exit
  frames : ∀ frame ∈ p.conf.stack, frame.callee = none →
    (∃ handle, frame = .insertExact handle) ∨ frame = .runUntilEmpty
  looping : p.conf.ctl = .runOne → p.conf.stack = [.runUntilEmpty]

structure Leaves (c : Config Runner) (handle : Handle) (event : Runner) (resp : Response)
    (c' : Config Runner) : Prop extends Steady c c' where
  ctl : c'.ctl = .settle handle resp
  log : c'.log = .finished handle event resp :: c.log
  running : c'.running = []
  stack : c'.stack ⊆ c.stack

/-- The owner has the control, and the operation that it called last has not failed. -/
structure Owned (c : Config Runner) : Prop where
  ctl : c.ctl = .user
  stack : c.stack = []
  good (err : Error) : c.answered ≠ some (.error err)

/-- What `insert_exact` and `run_until_empty` make of a result. -/
inductive Returning (c : Config Runner) : Frame → Except Error Unit → Answer → Prop
  | inserted (handle : Handle) : Returning c (.insertExact handle) (.ok ()) (.ok (.handle handle))
  | failed (frame : Frame) (err : Error) (hframe : frame = .runUntilEmpty → err ≠ .empty) :
      Returning c frame (.error err) (.error err)
  | empty : Returning c .runUntilEmpty (.error .empty) (.ok .unit)
  | stopped (hactive : c.loop.active = false) : Returning c .runUntilEmpty (.ok ()) (.ok .unit)

inductive Move (p : Program) : Program → Prop
  /- The owner -/
  | failed (err : Error) (hctl : p.conf.ctl = .user) (hstack : p.conf.stack = [])
      (hanswered : p.conf.answered = some (.error err)) :
      Move p { p with owner := .returned (.error err) }
  | completed (value : Value) (howner : p.owner = .running) (owned : Owned p.conf)
      (hanswered : p.conf.answered = some (.ok value)) :
      Move p { p with owner := .returned p.verdict }
  | inserted (left : Nat) (handle : Handle) (c : Config Runner)
      (howner : p.owner = .inserting (left + 1)) (owned : Owned p.conf) (steady : Steady p.conf c)
      (hdead : p.conf.loop.eventAlive handle = false) (hctl : c.ctl = .call handle .init)
      (hstack : c.stack = [.insertExact handle])
      (hlog : c.log = .stored handle ⟨none⟩ :: p.conf.log) :
      Move p { p with owner := .inserting left, conf := c }
  | began (c : Config Runner) (howner : p.owner = .inserting 0) (owned : Owned p.conf)
      (steady : Steady p.conf c) (hactive : c.loop.active = true) (hctl : c.ctl = .runOne)
      (hstack : c.stack = [.runUntilEmpty]) (hlog : c.log = p.conf.log) :
      Move p { p with owner := .running, conf := c }
  /- The callbacks -/
  | initialised (handle : Handle) (event : Runner)
      (hstage : p.stage = .entered handle .init event) :
      Move p { p with stage := .running handle event }
  | heard (handle : Handle) (pid : Pid) (exit : ChildExit) (event : Runner) (cmd : String)
      (hstage : p.stage = .entered handle (.child pid exit) event)
      (hcmd : event.command = some cmd) : Move p (p.heard handle pid cmd exit)
  | started (handle : Handle) (event : Runner) (pid : Pid) (cmd : String)
      (rest : List (Except IoErrorKind String)) (c : Config Runner)
      (hstage : p.stage = .running handle event) (hcommands : p.ctx.commands = .ok cmd :: rest)
      (alive : Alive p.conf c) (hawaited : c.awaited = (handle, pid) ::ₘ p.conf.awaited)
      (hctl : c.ctl = .user) (hstack : c.stack = p.conf.stack)
      (hlog : c.log = .answered (some handle) (.scope (.child pid)) (.ok .unit) :: p.conf.log) :
      Move p { p with
        conf := c
        ctx := { p.ctx with commands := rest }
        stage := .registered handle cmd
        started := cmd :: p.started
        working := ⟨handle, pid, cmd⟩ :: p.working }
  | ended (handle : Handle) (event : Runner) (c : Config Runner)
      (hstage : p.stage = .running handle event) (hcommands : p.ctx.commands = [])
      (leaves : Leaves p.conf handle event (.ok false) c) :
      Move p { p with conf := c, stage := .outside }
  | erred (handle : Handle) (event : Runner) (kind : IoErrorKind)
      (line : Except IoErrorKind String) (rest : List (Except IoErrorKind String))
      (c : Config Runner) (hstage : p.stage = .running handle event)
      (hcommands : p.ctx.commands = line :: rest)
      (leaves : Leaves p.conf handle event (.error (.io kind)) c) :
      Move p { p with conf := c, ctx := { p.ctx with commands := rest }, stage := .outside }
  | stayed (handle : Handle) (cmd : String) (c : Config Runner)
      (hstage : p.stage = .registered handle cmd)
      (leaves : Leaves p.conf handle ⟨some cmd⟩ (.ok true) c) :
      Move p { p with conf := c, stage := .outside }
  /- The loop -/
  | kept (handle : Handle) (c : Config Runner) (hctl : p.conf.ctl = .settle handle (.ok true))
      (steady : Steady p.conf c) (hctl' : c.ctl = .ret (.ok ())) (hstack : c.stack = p.conf.stack)
      (hlog : c.log = p.conf.log) : Move p { p with conf := c }
  | died (handle : Handle) (resp : Response) (c : Config Runner)
      (hctl : p.conf.ctl = .settle handle resp) (hresp : resp ≠ .ok true) (hr : c.Reachable)
      (alive : ∀ other, other ≠ handle → p.conf.loop.eventAlive other = true →
        c.loop.eventAlive other = true)
      (hactive : p.conf.loop.active = true → c.loop.active = true)
      (hawaited : (∀ pid, p.conf.loop.children.lookup pid ≠ some handle) →
        c.awaited = p.conf.awaited)
      (hctl' : c.ctl = .ret (errorHandler p.conf.ctl)) (hstack : c.stack = p.conf.stack)
      (hlog : c.log = .killed handle :: p.conf.log) : Move p { p with conf := c }
  | dropped (task : Task) (c : Config Runner) (hctl : p.conf.ctl = .runOne)
      (hdead : p.conf.loop.eventAlive task.recipient = false) (alive : Alive p.conf c)
      (hawaited : p.conf.awaited = ↑task.exit.toList + c.awaited) (hctl' : c.ctl = .runOne)
      (hstack : c.stack = p.conf.stack) (hlog : c.log = .dropped task :: p.conf.log) :
      Move p { p with conf := c }
  | called (task : Task) (handle : Handle) (pid : Pid) (exit : ChildExit) (c : Config Runner)
      (hctl : p.conf.ctl = .runOne) (steady : Steady p.conf c)
      (hctl' : c.ctl = .call handle (.child pid exit)) (hstack : c.stack = p.conf.stack)
      (hlog : c.log = .dispatched task :: p.conf.log) : Move p { p with conf := c }
  | entered (handle : Handle) (cb : Callback) (event : Runner) (data : StolenData)
      (c : Config Runner) (hctl : p.conf.ctl = .call handle cb)
      (hcb : cb = .init ∨ ∃ pid exit, cb = .child pid exit)
      (hvalue : lastValue handle p.conf.log = some event) (alive : Alive p.conf c)
      (hawaited : p.conf.awaited = ↑p.conf.ctl.exit.toList + c.awaited) (hctl' : c.ctl = .user)
      (hstack : c.stack = .callback handle cb data :: p.conf.stack)
      (hlog : c.log = .called handle cb event :: p.conf.log) :
      Move p { p with conf := c, stage := .entered handle cb event }
  | again (c : Config Runner) (hctl : p.conf.ctl = .ret (.ok ())) (steady : Steady p.conf c)
      (hctl' : c.ctl = .runOne) (hstack : p.conf.stack = [.runUntilEmpty])
      (hstack' : c.stack = [.runUntilEmpty]) (hlog : c.log = p.conf.log) :
      Move p { p with conf := c }
  | gaveBack (frame : Frame) (result : Except Error Unit) (ans : Answer) (c : Config Runner)
      (hctl : p.conf.ctl = .ret result) (hstack : p.conf.stack = [frame])
      (returning : Returning p.conf frame result ans) (steady : Steady p.conf c)
      (hevents : c.loop.events = p.conf.loop.events) (hctl' : c.ctl = .user)
      (hstack' : c.stack = []) (hlog : c.log = .returned frame ans :: p.conf.log) :
      Move p { p with conf := c }
  | quiet (c : Config Runner) (q : Quiet p.conf c) : Move p { p with conf := c }

/-! ## Every step is a move -/

section Moves

variable {p p' : Program} {event : Runner} {resp : Response}

theorem perform_ok (h : p.perform a = .ok p') :
    ∃ c, p.conf.step a = .ok c ∧ p' = { p with conf := c } := by
  unfold Program.perform at h
  split at h
  · cases h
    exact ⟨_, ‹_›, rfl⟩
  · cases h

/-- Outside of the callbacks there is at most one operation. -/
theorem Shape.single (s : Shape p) {frame : Frame} {rest : List Frame}
    (hidle : p.conf.running = []) (hstack : p.conf.stack = frame :: rest) :
    p.conf.stack = [frame] :=
  s.reachable.visited.stacked.layered.eq_of_mem hidle (by simp [hstack])

/-- Where the control is not with the user, no callback runs. -/
theorem Shape.idle (s : Shape p) (hctl : p.conf.ctl ≠ .user) :
    p.stage.handle = none ∧ p.conf.running = [] := by
  cases hstage : p.stage.handle with
  | none => exact ⟨rfl, s.outside hstage⟩
  | some handle => exact absurd (s.inside handle hstage).2 hctl

theorem leaves_finish (s : Shape p) (hstage : p.stage.handle = some handle)
    (hs : p.conf.step (.finish event resp) = .ok c) : Leaves p.conf handle event resp c := by
  obtain ⟨hrunning, hctl⟩ := s.inside handle hstage
  have e := step_edit hs nofun
  have hsteady : Steady p.conf c := by
    refine steady_edit s.reachable hs e nofun (by simp [hctl]) ?_
    exact awaited_same s.reachable.visited e nofun nofun id
  cases e with
  | finished handle' cb data rest _ _ holder events ha hctl' hstack =>
      cases ha
      simp only [running, hstack, List.filterMap_cons, Frame.callee] at hrunning
      obtain ⟨rfl, hrest⟩ := List.cons.inj hrunning
      exact ⟨hsteady, rfl, rfl, hrest, by rw [hstack]; exact List.subset_cons_self _ _⟩
  | kept _ ha => exact ha.elim
  | _ => simp_all

/-- The operations of a callback are called in the name of its runner. -/
theorem Shape.caller (s : Shape p) (hstage : p.stage.handle = some handle) :
    p.conf.caller = some handle := by
  obtain ⟨hrunning, hctl⟩ := s.inside handle hstage
  cases hstack : p.conf.stack with
  | nil => simp [running, hstack] at hrunning
  | cons top rest =>
      have htop := s.reachable.visited.stacked.user hctl top (by simp [hstack])
      cases top with
      | callback handle' cb data =>
          simp only [running, hstack, List.filterMap_cons, Frame.callee] at hrunning
          obtain ⟨rfl, _⟩ := List.cons.inj hrunning
          rw [Config.caller, hstack]
      | _ => exact absurd rfl htop

theorem move_started (s : Shape p) {pid : Pid} {cmd : String}
    {rest : List (Except IoErrorKind String)} (hstage : p.stage = .running handle event)
    (hcommands : p.ctx.commands = .ok cmd :: rest)
    (hs : p.conf.step (.call (.scope (.child pid))) = .ok c) :
    Move p { p with
      conf := c
      ctx := { p.ctx with commands := rest }
      stage := .registered handle cmd
      started := cmd :: p.started
      working := ⟨handle, pid, cmd⟩ :: p.working } := by
  have hhandle : p.stage.handle = some handle := by rw [hstage]; rfl
  obtain ⟨_, hctl⟩ := s.inside handle hhandle
  have hcaller := s.caller hhandle
  have own : (Action.call (.scope (.child pid)) : Action Runner).Own := by
    rintro _ ⟨⟩
    trivial
  have e := step_edit hs nofun
  have halive (other : Handle) (h : p.conf.loop.eventAlive other = true) :=
    e.eventAlive s.reachable.visited.discipline h (by simp [hctl])
  have hactive := active_step hs own
  have hr := s.reachable.step hs
  cases e with
  | tracked _ handle' holder events ha _ hcaller' _ hfresh =>
      cases ha
      obtain rfl : handle' = handle := Option.some.inj (hcaller'.symm.trans hcaller)
      refine .started handle' event pid cmd rest _ hstage hcommands ⟨hr, halive, hactive⟩
        (awaited_asked hfresh rfl rfl rfl) hctl rfl ?_
      rw [answer, hcaller]
  | refusal _ _ ha _ hcan =>
      cases ha
      exact hcan.elim
  | query _ _ ha _ hq =>
      cases ha
      exact hq.elim
  | timer _ _ _ _ _ ha _ _ hop =>
      cases ha
      cases hop
  | kept _ ha => exact ha.elim
  | _ => simp_all

theorem move_run (s : Shape p) {spawn : Except IoErrorKind Pid}
    (hstage : p.stage = .running handle event) (h : p.run handle event spawn = .ok p') :
    Move p p' := by
  have hhandle : p.stage.handle = some handle := by rw [hstage]; rfl
  obtain ⟨_, hctl⟩ := s.inside handle hhandle
  unfold Program.run at h
  split at h
  · obtain ⟨c, hs, rfl⟩ := perform_ok h
    exact .ended handle event c hstage ‹_› (leaves_finish s hhandle hs)
  · rename_i e rest hcommands
    obtain ⟨c, hs, rfl⟩ := perform_ok h
    exact .erred handle event e _ rest c hstage hcommands (leaves_finish s hhandle hs)
  · rename_i cmd rest hcommands
    split at h
    · rename_i e
      obtain ⟨c, hs, rfl⟩ := perform_ok h
      exact .erred handle event e _ rest c hstage hcommands (leaves_finish s hhandle hs)
    · rename_i pid
      split at h
      · cases h
      · obtain ⟨c, hs, rfl⟩ := perform_ok h
        exact move_started s hstage hcommands hs

theorem move_callback (s : Shape p) {spawn : Except IoErrorKind Pid}
    {written : Option IoErrorKind}
    (h : p.callback spawn written = .ok p') : Move p p' := by
  unfold Program.callback at h
  split at h
  · cases h
  · cases h
    exact .initialised _ _ ‹_›
  · split at h
    · unfold Program.hear at h
      split at h
      · cases h
      · cases h
        exact .heard _ _ _ _ _ ‹_› ‹_›
    · cases h
  · rename_i handle cb event hinit hchild hstage
    rcases s.kind handle cb event hstage with rfl | ⟨pid, exit, rfl⟩
    · exact absurd rfl hinit
    · exact absurd rfl (hchild pid exit)
  · exact move_run s ‹_› h
  · rename_i handle cmd hstage
    obtain ⟨c, hs, rfl⟩ := perform_ok h
    exact .stayed handle cmd c hstage (leaves_finish s (by rw [hstage]; rfl) hs)

theorem Stage.eq_outside {stage : Stage} (h : stage.handle = none) : stage = .outside := by
  cases stage with
  | outside => rfl
  | _ => cases h

theorem move_inserted (s : Shape p) (owned : Owned p.conf) {left : Nat} {growth : Growth}
    (howner : p.owner = .inserting (left + 1))
    (hs : p.conf.step (.call (.iface (.insertExact ⟨none⟩ growth))) = .ok c) :
    Move p { p with owner := .inserting left, conf := c } := by
  have own : (Action.call (.iface (.insertExact ⟨none⟩ growth)) : Action Runner).Own := by
    rintro _ ⟨⟩
    trivial
  have hctl := owned.ctl
  have e := step_edit hs nofun
  have steady : Steady p.conf c := by
    refine steady_edit s.reachable hs e own (by simp [hctl]) ?_
    exact awaited_same s.reachable.visited e nofun nofun id
  cases e with
  | stored event growth idx events ha hctl hstore =>
      cases ha
      refine .inserted left _ _ howner owned steady ?_ rfl (by rw [owned.stack]) rfl
      simp [eventAlive, hstore.vacant]
  | refusal _ _ ha _ hcan =>
      cases ha
      exact hcan.elim
  | query _ _ ha _ hq =>
      cases ha
      exact hq.elim
  | kept _ ha => exact ha.elim
  | _ => simp_all

theorem move_began (s : Shape p) (owned : Owned p.conf) (howner : p.owner = .inserting 0)
    (hs : p.conf.step (.call (.iface .runUntilEmpty)) = .ok c) :
    Move p { p with owner := .running, conf := c } := by
  have hr := s.reachable.step hs
  simp only [Config.step, owned.ctl, callOp, callIface, Except.mapError_ok, Except.ok.injEq] at hs
  subst hs
  have hstack : Frame.runUntilEmpty :: p.conf.stack = [.runUntilEmpty] := by rw [owned.stack]
  refine .began _ howner owned ⟨⟨hr, fun _ h => h, fun _ => rfl⟩, ?_⟩ rfl rfl hstack rfl
  exact awaited_congr rfl rfl (by rw [owned.ctl]; rfl)

theorem move_proceed (s : Shape p) {growth : Growth} (h : p.proceed growth = .ok p') :
    Move p p' := by
  unfold Program.proceed at h
  split at h
  · rename_i hctl hstack
    split at h
    · cases h
    · cases h
      exact .failed _ hctl hstack ‹_›
    · rename_i howner hgood
      obtain ⟨c, hs, rfl⟩ := perform_ok h
      exact move_began s ⟨hctl, hstack, hgood⟩ howner hs
    · rename_i left howner hgood
      obtain ⟨c, hs, rfl⟩ := perform_ok h
      exact move_inserted s ⟨hctl, hstack, hgood⟩ howner hs
    · rename_i value howner hanswered
      cases h
      exact .completed value howner ⟨hctl, hstack, by simp [hanswered]⟩ hanswered
    · cases h
  · cases h

theorem move_settle (s : Shape p)
    (h : p.perform (.settle true (errorHandler p.conf.ctl)) = .ok p') : Move p p' := by
  obtain ⟨c, hs, rfl⟩ := perform_ok h
  have hv := s.reachable.visited
  have hr := s.reachable.step hs
  have e := step_edit hs nofun
  have hactive := active_step hs nofun
  have halive (other : Handle) (hne : ∀ resp, p.conf.ctl ≠ .settle other resp)
      (h : p.conf.loop.eventAlive other = true) := e.eventAlive hv.discipline h hne
  have hawaits := e.awaits hv.discipline hv.registries
  cases e with
  | kept handle _ hctl =>
      refine .kept handle _ hctl ⟨⟨hr, fun _ h => h, hactive⟩, ?_⟩ rfl rfl rfl
      exact awaited_congr rfl rfl (by rw [hctl]; rfl)
  | killed handle resp result holder events deregisters handler ha hctl hresp hget hfree hset =>
      cases ha
      refine .died handle resp _ hctl ?_ hr
        (fun other hne => halive other (by simp [hctl, hne.symm])) hactive
        (fun hnone => ?_) ?_ rfl rfl
      · rcases hresp with ⟨rfl, _⟩ | ⟨err, rfl, _⟩ <;> simp
      · cases hawaits with
        | same h => exact h
        | asked _ _ ha | heard _ _ ha | dropped _ ha => cases ha
        | died handle' resp' _ hctl' _ h =>
            obtain ⟨rfl, _⟩ := Ctl.settle.inj (hctl'.symm.trans hctl)
            exact h hnone
      · rcases hresp with ⟨rfl, rfl⟩ | ⟨err, rfl, rfl⟩ <;> simp [hctl, errorHandler]
  | _ => simp_all [Action.IsGather]

/-- A runner that is called lives and is not in a callback, so it is not turned away. -/
theorem move_call (s : Shape p) (hctl : p.conf.ctl = .call handle cb)
    (h : p.tick = .ok p') : Move p p' := by
  obtain ⟨_, hidle⟩ := s.idle (by simp [hctl])
  have hv := s.reachable.visited
  unfold Program.tick at h
  split at h
  · rename_i c hs
    cases h
    have e := step_edit hs nofun
    have halive (other : Handle) (h : p.conf.loop.eventAlive other = true) :=
      e.eventAlive hv.discipline h (by simp [hctl])
    have hactive := active_step hs nofun
    have hr := s.reachable.step hs
    cases e with
    | entered handle' cb' holder events _ hctl' hget hgen =>
        obtain ⟨rfl, rfl⟩ := Ctl.call.inj (hctl'.symm.trans hctl)
        refine .entered handle' cb' holder.event.data _ _ hctl ?_ ?_ ⟨hr, halive, hactive⟩
          (awaited_heard rfl rfl rfl) rfl rfl rfl
        · exact asked_kind s.children (hv.allAsked.called _ _ hctl)
        · exact hv.identity.value handle' holder hget hgen
    | turnedAway handle' cb' err _ hctl' hwhy =>
        exfalso
        obtain ⟨rfl, rfl⟩ := Ctl.call.inj (hctl'.symm.trans hctl)
        rcases hwhy with ⟨_, hdead⟩ | ⟨_, holder, hget, hgen, hstolen⟩
        · simp [hv.callsAlive _ _ hctl] at hdead
        · have hmem := (hv.discipline.mem_running handle').mpr
            (by simp [Stolen, tag_of_get? hget, hgen, hstolen])
          simp [hidle] at hmem
    | kept _ ha => exact ha.elim
    | _ => simp_all
  · cases h

theorem entered_of_ctl (h : c.ctl ≠ .user) : c.entered = none := by
  unfold entered
  split
  · exact absurd ‹_› h
  · rfl

theorem tick_ok (h : p.tick = .ok p') : ∃ c, p.conf.step .tick = .ok c ∧
    (c.entered = none → p' = { p with conf := c }) := by
  unfold Program.tick at h
  split at h
  · rename_i c hs
    cases h
    exact ⟨c, hs, fun hnone => by rw [hnone]⟩
  · cases h

theorem move_runOne (s : Shape p) (hctl : p.conf.ctl = .runOne) (h : p.tick = .ok p') :
    Move p p' := by
  have hv := s.reachable.visited
  have hkind (task : Task) (hmem : task ∈ p.conf.loop.scheduled) :=
    asked_kind s.children (hv.allAsked.queued task hmem)
  obtain ⟨c, hs, hp'⟩ := tick_ok h
  have e := step_edit hs nofun
  have halive (other : Handle) (h : p.conf.loop.eventAlive other = true) :=
    e.eventAlive hv.discipline h (by simp [hctl])
  have hactive := active_step hs nofun
  have hr := s.reachable.step hs
  cases e with
  | dropped task rest _ _ hsched hdead =>
      rw [hp' (entered_of_ctl (by simp [hctl]))]
      refine .dropped task _ hctl hdead ⟨hr, halive, hactive⟩ ?_ hctl rfl rfl
      exact awaited_taken hsched rfl rfl (by rw [hctl]; rfl) (by rw [hctl]; rfl)
  | passed task rest holder _ _ hsched =>
      rw [hp' (entered_of_ctl nofun)]
      obtain ⟨pid, exit, hparam⟩ : ∃ pid exit, task.param = .child pid exit := by
        rcases hkind task (by simp [hsched]) with hinit | ⟨pid, exit, hchild⟩
        · cases hparam : task.param <;> simp [TaskParam.callback, hparam] at hinit
        · cases hparam : task.param <;> simp_all [TaskParam.callback]
      refine .called task task.recipient pid exit _ hctl ⟨⟨hr, halive, hactive⟩, ?_⟩
        ?_ rfl rfl
      · refine awaited_passed hsched rfl rfl (by rw [hctl]; rfl) ?_
        simp [Ctl.exit, Task.exit, TaskParam.callback, hparam]
      · simp [TaskParam.callback, hparam]
  | lost task rest id ready source holder _ _ hsched hparam
  | fired task rest id left holder events _ _ hsched hparam =>
      have htask := hkind task (by simp [hsched])
      simp [TaskParam.callback, hparam] at htask
  | kept _ ha => exact ha.elim
  | _ => simp_all [Action.IsGather]

theorem move_gaveBack {frame : Frame} {result : Except Error Unit} {ans : Answer}
    (hctl : p.conf.ctl = .ret result) (hstack : p.conf.stack = [frame])
    (returning : Returning p.conf frame result ans)
    (hr : (p.conf.giveBack frame [] ans).Reachable) :
    Move p { p with conf := p.conf.giveBack frame [] ans } := by
  refine .gaveBack frame result ans _ hctl hstack returning
    ⟨⟨hr, fun _ h => h, fun h => h⟩, ?_⟩ rfl rfl rfl rfl
  exact awaited_congr rfl rfl (by rw [hctl]; rfl)

theorem move_ret (s : Shape p) {result : Except Error Unit} (hctl : p.conf.ctl = .ret result)
    (h : p.tick = .ok p') : Move p p' := by
  obtain ⟨_, hidle⟩ := s.idle (by simp [hctl])
  obtain ⟨c, hs, hp'⟩ := tick_ok h
  have hr := s.reachable.step hs
  have htick : p.conf.step .tick = p.conf.resume result := by simp [Config.step, tick, hctl]
  rw [htick, resume] at hs
  cases hcons : p.conf.stack with
  | nil => simp [hcons] at hs
  | cons frame rest =>
      have hstack := s.single hidle hcons
      obtain rfl : rest = [] := (List.cons.inj (hcons.symm.trans hstack)).2
      have hcallee : frame.callee = none :=
        List.filterMap_eq_nil_iff.mp hidle frame (by simp [hcons])
      rw [hstack] at hs
      rcases s.frames frame (by simp [hcons]) hcallee with ⟨handle, rfl⟩ | rfl
      · cases hs
        rw [hp' rfl]
        refine move_gaveBack hctl hstack ?_ hr
        cases result with
        | ok _ => exact .inserted handle
        | error err => exact .failed _ err (by simp)
      · cases result with
        | error err =>
            rcases eq_or_ne err .empty with rfl | hne
            · cases hs
              rw [hp' rfl]
              exact move_gaveBack hctl hstack .empty hr
            · obtain rfl : p.conf.giveBack .runUntilEmpty [] (.error err) = c := by
                cases err <;> first | exact absurd rfl hne | exact Except.ok.inj hs
              rw [hp' rfl]
              exact move_gaveBack hctl hstack (.failed _ err fun _ => hne) hr
        | ok _ =>
            simp only at hs
            cases hactive : p.conf.loop.active with
            | true =>
                rw [hactive, if_pos rfl] at hs
                cases hs
                rw [hp' rfl]
                refine .again _ hctl ⟨⟨hr, fun _ h => h, fun h => h⟩, ?_⟩ rfl hstack rfl rfl
                exact awaited_congr rfl rfl (by rw [hctl]; rfl)
            | false =>
                rw [hactive, if_neg (by simp)] at hs
                cases hs
                rw [hp' rfl]
                exact move_gaveBack hctl hstack (.stopped hactive) hr

theorem move_step {act : Act} (s : Shape p) (h : p.step act = .ok p') : Move p p' := by
  unfold Program.step at h
  split at h
  · cases h
  · exact move_proceed s h
  · exact move_callback s h
  · exact move_settle s h
  · cases hctl : p.conf.ctl with
    | runOne => exact move_runOne s hctl h
    | call handle cb => exact move_call s hctl h
    | ret result => exact move_ret s hctl h
    | user | settle =>
        obtain ⟨c, hs, _⟩ := tick_ok h
        simp [Config.step, tick, hctl] at hs
  · unfold Program.other at h
    split at h
    · cases h
    · cases h
    · cases h
    · cases h
    · obtain ⟨c, hs, rfl⟩ := perform_ok h
      refine .quiet c (quiet_other s.reachable ?_ hs)
      unfold IsOther
      split <;> simp_all

end Moves

/-! ## The shape is kept -/

section Shape

variable {p p' : Program}

theorem shape_init (now jobs : Nat) (lines : List (Except IoErrorKind String)) :
    Shape (.init now jobs lines) where
  reachable := ⟨now, .start⟩
  children _ _ _ hmem := by cases hmem
  outside _ := rfl
  inside _ hstage := by cases hstage
  kind _ _ _ hstage := by cases hstage
  frames _ hmem := by cases hmem
  looping hctl := by cases hctl

/-- The loop under the program goes on outside of all callbacks. -/
theorem Shape.outward (s : Shape p) (hr : p'.conf.Reachable) (hstage : p'.stage.handle = none)
    (hlog : OnlyChildren p'.conf.log) (hrunning : p'.conf.running = [])
    (hframes : ∀ frame ∈ p'.conf.stack, frame ∈ p.conf.stack ∨
      (∃ handle, frame = .insertExact handle) ∨ frame = .runUntilEmpty)
    (hlooping : p'.conf.ctl = .runOne → p'.conf.stack = [.runUntilEmpty]) : Shape p' where
  reachable := hr
  children := hlog
  outside _ := hrunning
  inside handle h := by simp [hstage] at h
  kind handle cb event h := by
    rw [h] at hstage
    cases hstage
  frames frame hmem hcallee := (hframes frame hmem).elim (s.frames frame · hcallee) id
  looping := hlooping

/-- The program goes on inside of a callback. -/
theorem Shape.inward (hr : p'.conf.Reachable) (hstage : p'.stage.handle = some handle)
    (hlog : OnlyChildren p'.conf.log) (hrunning : p'.conf.running = [handle])
    (hctl : p'.conf.ctl = .user)
    (hkind : ∀ handle cb event, p'.stage = .entered handle cb event →
      cb = .init ∨ ∃ pid exit, cb = .child pid exit)
    (hframes : ∀ frame ∈ p'.conf.stack, frame.callee = none →
      (∃ handle, frame = .insertExact handle) ∨ frame = .runUntilEmpty) : Shape p' where
  reachable := hr
  children := hlog
  outside h := by simp [hstage] at h
  inside handle h := by
    obtain rfl := Option.some.inj (hstage.symm.trans h)
    exact ⟨hrunning, hctl⟩
  kind := hkind
  frames := hframes
  looping h := by simp [hctl] at h

/-- The same where the stack stays as it is and the loop does not look for tasks. -/
theorem Shape.sameStack (s : Shape p) (hr : p'.conf.Reachable) (hstage : p'.stage = p.stage)
    (hctl : p.conf.ctl ≠ .user) (hstack : p'.conf.stack = p.conf.stack)
    (hlog : OnlyChildren p'.conf.log)
    (hlooping : p'.conf.ctl = .runOne → p.conf.ctl = .runOne) : Shape p' := by
  obtain ⟨hnone, hidle⟩ := s.idle hctl
  refine s.outward hr (hstage ▸ hnone) hlog ?_ (fun frame hmem => .inl (hstack ▸ hmem))
    fun h => ?_
  · rw [running, hstack]
    exact hidle
  · rw [hstack]
    exact s.looping (hlooping h)

theorem Shape.left (s : Shape p) {resp : Response} {event : Runner}
    (leaves : Leaves p.conf handle event resp p'.conf) (hstage : p'.stage = .outside) :
    Shape p' := by
  refine s.outward leaves.reachable (by rw [hstage]; rfl) ?_ leaves.running
    (fun frame hmem => .inl (leaves.stack hmem)) (by simp [leaves.ctl])
  rw [leaves.log]
  exact s.children.cons (by simp)

/-- While the owner has the control, no callback runs. -/
theorem Shape.owned (s : Shape p) (hstack : p.conf.stack = []) : p.stage.handle = none := by
  cases hstage : p.stage.handle with
  | none => rfl
  | some handle =>
      have hrunning := (s.inside handle hstage).1
      simp [running, hstack] at hrunning

theorem shape_move (s : Shape p) (m : Move p p') : Shape p' := by
  cases m with
  | failed err hctl hstack =>
      exact ⟨s.reachable, s.children, s.outside, s.inside, s.kind, s.frames, s.looping⟩
  | completed value howner owned =>
      exact ⟨s.reachable, s.children, s.outside, s.inside, s.kind, s.frames, s.looping⟩
  | inserted left handle c howner owned steady hdead hctl hstack hlog =>
      refine s.outward steady.reachable (s.owned owned.stack) ?_ ?_ ?_ (by simp [hctl])
      · rw [hlog]
        exact s.children.cons (by simp)
      · rw [running, hstack]
        rfl
      · simp [hstack]
  | began c howner owned steady hactive hctl hstack hlog =>
      refine s.outward steady.reachable (s.owned owned.stack) ?_ ?_ ?_ fun _ => hstack
      · rw [hlog]
        exact s.children
      · rw [running, hstack]
        rfl
      · simp [hstack]
  | initialised handle event hstage =>
      obtain ⟨hrunning, hctl⟩ := s.inside handle (by rw [hstage]; rfl)
      exact .inward s.reachable rfl s.children hrunning hctl (by simp) s.frames
  | heard handle pid exit event cmd hstage hcmd =>
      obtain ⟨hrunning, hctl⟩ := s.inside handle (by rw [hstage]; rfl)
      exact .inward s.reachable rfl s.children hrunning hctl (by simp [Program.heard]) s.frames
  | started handle event pid cmd rest c hstage hcommands alive hawaited hctl hstack hlog =>
      refine .inward alive.reachable rfl ?_ ?_ hctl (by simp) ?_
      · rw [hlog]
        apply s.children.cons
        rintro _ _ _ ⟨⟩
        exact ⟨pid, rfl, rfl⟩
      · rw [running, hstack]
        exact (s.inside handle (by rw [hstage]; rfl)).1
      · rw [hstack]
        exact s.frames
  | ended handle event c hstage hcommands leaves => exact s.left leaves rfl
  | erred handle event kind line rest c hstage hcommands leaves => exact s.left leaves rfl
  | stayed handle cmd c hstage leaves => exact s.left leaves rfl
  | kept handle c hctl steady hctl' hstack hlog =>
      exact s.sameStack steady.reachable rfl (by simp [hctl]) hstack (hlog ▸ s.children)
        (by simp [hctl'])
  | died handle resp c hctl hresp hr alive hactive hawaited hctl' hstack hlog =>
      refine s.sameStack hr rfl (by simp [hctl]) hstack ?_ (by simp [hctl'])
      rw [hlog]
      exact s.children.cons (by simp)
  | dropped task c hctl hdead alive hawaited hctl' hstack hlog =>
      refine s.sameStack alive.reachable rfl (by simp [hctl]) hstack ?_ fun _ => hctl
      rw [hlog]
      exact s.children.cons (by simp)
  | called task handle pid exit c hctl steady hctl' hstack hlog =>
      refine s.sameStack steady.reachable rfl (by simp [hctl]) hstack ?_ fun _ => hctl
      rw [hlog]
      exact s.children.cons (by simp)
  | entered handle cb event data c hctl hcb hvalue alive hawaited hctl' hstack hlog =>
      obtain ⟨_, hidle⟩ := s.idle (by simp [hctl])
      refine .inward alive.reachable rfl ?_ ?_ hctl' ?_ ?_
      · rw [hlog]
        exact s.children.cons (by simp)
      · rw [running, hstack, List.filterMap_cons]
        simp only [Frame.callee]
        exact congrArg _ hidle
      · rintro _ _ _ ⟨⟩
        exact hcb
      · rw [hstack]
        rintro frame hmem hcallee
        rcases List.mem_cons.mp hmem with rfl | hold
        · cases hcallee
        · exact s.frames frame hold hcallee
  | again c hctl steady hctl' hstack hstack' hlog =>
      obtain ⟨hnone, hidle⟩ := s.idle (by simp [hctl])
      refine s.outward steady.reachable hnone (hlog ▸ s.children) ?_ ?_ fun _ => hstack'
      · rw [running, hstack']
        rfl
      · simp [hstack']
  | gaveBack frame result ans c hctl hstack returning steady hevents hctl' hstack' hlog =>
      obtain ⟨hnone, hidle⟩ := s.idle (by simp [hctl])
      refine s.outward steady.reachable hnone ?_ ?_ ?_ (by simp [hctl'])
      · rw [hlog]
        exact s.children.cons (by simp)
      · rw [running, hstack']
        rfl
      · simp [hstack']
  | quiet c q =>
      refine ⟨q.reachable, q.log ▸ s.children, fun h => ?_, fun handle h => ?_, s.kind, ?_,
        fun h => ?_⟩
      · rw [running, q.stack]
        exact s.outside h
      · rw [running, q.stack]
        obtain ⟨hrunning, hctl⟩ := s.inside handle h
        refine ⟨hrunning, ?_⟩
        rcases q.ctl with hsame | ⟨hrunOne, _⟩
        · exact hsame.trans hctl
        · simp [hctl] at hrunOne
      · rw [q.stack]
        exact s.frames
      · rw [q.stack]
        rcases q.ctl with hsame | ⟨hrunOne, _⟩
        · exact s.looping (hsame ▸ h)
        · exact s.looping hrunOne

end Shape

end Eveboros.Pargs
