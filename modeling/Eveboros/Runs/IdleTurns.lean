import Eveboros.Lib.Rotation
import Eveboros.Loop.Polling
import Eveboros.Runs.Queue
import Eveboros.Runs.Registries

/-!
# Idle callbacks in turns

The events that want to be idle form a queue in which they take turns: a gather that finds nothing
else serves its front.  An event whose idle task is on its way still stands in front of the others.
-/

namespace Eveboros

variable {Ev : Type}

/-! ## The queue -/

/-- What the history says about the turns; a call of a busy event uses the turn up as well. -/
def Obs.turn : Obs Ev → Option (Rotation.Event Handle)
  | .answered (some handle) (.scope .idle) _ => some (.join handle)
  | .called handle .idle _ => some (.serve handle)
  | .refused handle .idle .busy => some (.serve handle)
  | .killed handle => some (.leave handle)
  | _ => none

/-- The event asked to be idle, and since then it was neither called for it, nor turned away as
busy, nor killed. -/
def AwaitsIdle (handle : Handle) (log : List (Obs Ev)) : Prop :=
  Rotation.Awaits handle (log.filterMap Obs.turn)

theorem Obs.turn_eq_join {o : Obs Ev} {handle : Handle} (h : o.turn = some (.join handle)) :
    ∃ ans, o = .answered (some handle) (.scope .idle) ans := by
  unfold turn at h
  split at h
  · cases h
    exact ⟨_, rfl⟩
  all_goals cases h

theorem Obs.turn_eq_serve {o : Obs Ev} {handle : Handle} (h : o.turn = some (.serve handle)) :
    (∃ event, o = .called handle .idle event) ∨ o = .refused handle .idle .busy := by
  unfold turn at h
  split at h
  · cases h
  · cases h
    exact .inl ⟨_, rfl⟩
  · cases h
    exact .inr rfl
  all_goals cases h

theorem Obs.turn_eq_leave {o : Obs Ev} {handle : Handle} (h : o.turn = some (.leave handle)) :
    o = .killed handle := by
  unfold turn at h
  split at h
  · cases h
  · cases h
  · cases h
  · cases h
    rfl
  · cases h

def Task.idler (task : Task) : Option Handle :=
  match task.param with
  | .idle => some task.recipient
  | _ => none

theorem Task.idler_eq_some {task : Task} {handle : Handle} :
    task.idler = some handle ↔ task = ⟨handle, .idle⟩ := by
  rcases task with ⟨recipient, param⟩
  cases param <;> simp [idler]

def Ctl.idler : Ctl → Option Handle
  | .call handle .idle => some handle
  | _ => none

/-- The call of an idle event is the one that its idle task asks for. -/
theorem Task.idler_call (task : Task) :
    (Ctl.call task.recipient task.param.callback).idler = task.idler := by
  rcases task with ⟨recipient, param⟩
  cases param <;> rfl

def Loop.NoIdle (l : Loop Ev) : Prop := ∀ task ∈ l.scheduled, task.idler = none

/-! ## What a gather does to it -/

namespace Loop

variable {l l' : Loop Ev} {env : GatherEnv}

structure KeepsIdle (l l' : Loop Ev) : Prop where
  idle : l'.wantIdle = l.wantIdle
  tasks : l.NoIdle → l'.NoIdle

/-- Tasks of another kind are added. -/
theorem KeepsIdle.adds {tasks : List Task} (h : ∀ task ∈ tasks, task.idler = none) :
    KeepsIdle l { l with scheduled := l.scheduled ++ tasks } where
  idle := rfl
  tasks hl task hmem := (List.mem_append.mp hmem).elim (hl task) (h task)

theorem KeepsIdle.trans {l'' : Loop Ev} (k : KeepsIdle l l') (k' : KeepsIdle l' l'') :
    KeepsIdle l l'' := ⟨k'.idle.trans k.idle, fun hl => k'.tasks (k.tasks hl)⟩

theorem idler_of_fromPoll {task : Task} (h : task.param.FromPoll) : task.idler = none := by
  rcases task with ⟨recipient, param⟩
  cases param with
  | idle => exact h.elim
  | _ => rfl

theorem KeepsIdle.of_childPush {pid : Pid} {exit : ChildExit} (h : l.childPush pid exit = .ok l') :
    KeepsIdle l l' := by
  rcases childPush_ok h with rfl | ⟨_, _, _, _, _, rfl⟩
  · exact ⟨rfl, id⟩
  · exact ⟨rfl, (KeepsIdle.adds (by simp [Task.idler])).tasks⟩

theorem allowsPoll_keepsIdle : AllowsPoll (KeepsIdle : Loop Ev → Loop Ev → Prop) where
  refl _ := ⟨rfl, id⟩
  trans := .trans
  adds _ _ h := .adds fun task hmem => idler_of_fromPoll (h task hmem)
  reads _ _ := ⟨rfl, id⟩
  wakes _ := ⟨rfl, id⟩
  clears _ _ := ⟨rfl, id⟩
  reaps := .of_childPush

def Polled.loop : Polled Ev → Loop Ev
  | .ended _ l => l
  | .woken l => l

theorem tasksPoll_keepsIdle {polled : Polled Ev} (h : l.tasksPoll env = .ok polled) :
    KeepsIdle l polled.loop := by
  unfold tasksPoll at h
  split at h
  · cases h
  obtain ⟨l₁, hdrain, h⟩ := Except.bind_eq_ok.mp h
  obtain ⟨ios, _, hdrain⟩ := Except.bind_eq_ok.mp hdrain
  cases hdrain
  obtain ⟨empty, _, h⟩ := Except.bind_eq_ok.mp h
  split at h
  · cases h
    exact ⟨rfl, id⟩
  · split at h
    · cases h
      exact ⟨rfl, id⟩
    · cases h
      exact ⟨rfl, id⟩
    · obtain ⟨⟨gathered, l₂⟩, hio, h⟩ := Except.bind_eq_ok.mp h
      have hkeeps := allowsPoll_keepsIdle.tasksGatherIo hio
      cases gathered with
      | error err =>
          cases h
          exact ⟨hkeeps.idle, hkeeps.tasks⟩
      | ok _ =>
          cases h
          exact ⟨hkeeps.idle, hkeeps.tasks⟩

theorem timersCleanup_keepsIdle (h : l.timersCleanup = .ok l') : KeepsIdle l l' := by
  obtain ⟨⟨dead, alive⟩, _, h⟩ := Except.bind_eq_ok.mp h
  simp only at h
  split at h
  · cases h
    exact ⟨rfl, id⟩
  · cases h
    exact ⟨rfl, id⟩

theorem tasksGatherTimers_keepsIdle (l : Loop Ev) : KeepsIdle l l.tasksGatherTimers where
  idle := rfl
  tasks hl task hmem := by
    rcases List.mem_append.mp hmem with hmem | hmem
    · exact hl task hmem
    · obtain ⟨t, _, rfl⟩ := List.mem_map.mp hmem
      rfl

/-- A gather schedules an idle task if it found no other one; it takes the front of the queue. -/
theorem tasksGather_idle {result : Except Error Unit}
    (h : l.tasksGather env = .ok (result, l')) :
    KeepsIdle l l' ∨ result = .ok () ∧ ∃ handle,
      l'.scheduled = [⟨handle, .idle⟩] ∧ l.wantIdle.toList = handle :: l'.wantIdle.toList := by
  obtain ⟨polled, hpolled, h⟩ := Except.bind_eq_ok.mp h
  have hkeeps := tasksPoll_keepsIdle hpolled
  cases polled with
  | ended result l₁ =>
      cases h
      exact .inl hkeeps
  | woken l₁ =>
      obtain ⟨l₂, hclean, h⟩ := Except.bind_eq_ok.mp h
      cases h
      have hkeeps := (hkeeps.trans (timersCleanup_keepsIdle hclean)).trans
        (tasksGatherTimers_keepsIdle l₂)
      unfold gatherIdle
      split
      · rename_i hnone
        split
        · rename_i handle rest hpop
          refine .inr ⟨rfl, handle, by simp [schedule, hnone], ?_⟩
          rw [← hkeeps.idle]
          exact ListSet.toList_of_popFront hpop
        · exact .inl hkeeps
      · exact .inl hkeeps

end Loop

namespace Config

open Loop TransitionSystem

variable {c c' : Config Ev} {a : Action Ev}

/-- The queue, with the event in front whose idle callback is on its way. -/
def turns (c : Config Ev) : List Handle :=
  c.ctl.idler.toList ++ (c.loop.scheduled.filterMap Task.idler ++ c.loop.wantIdle.toList)

theorem turns_of_noIdle (h : c.loop.NoIdle) :
    c.turns = c.ctl.idler.toList ++ c.loop.wantIdle.toList := by
  simp [turns, List.filterMap_eq_nil_iff.mpr h]

structure IdleOrder (c : Config Ev) : Prop where
  sole (handle : Handle) : ⟨handle, .idle⟩ ∈ c.loop.scheduled →
    c.ctl = .runOne ∧ c.loop.scheduled = [⟨handle, .idle⟩] ∧ c.loop.eventAlive handle = true
  run : Rotation.Run (c.log.filterMap Obs.turn) c.turns

theorem noIdle_iff {l : Loop Ev} : l.NoIdle ↔ ∀ handle, ⟨handle, .idle⟩ ∉ l.scheduled := by
  constructor
  · intro h handle hmem
    cases h _ hmem
  · intro h task hmem
    cases hidler : task.idler with
    | none => rfl
    | some handle =>
        rw [Task.idler_eq_some] at hidler
        exact absurd (hidler ▸ hmem) (h handle)

/-- Only `run_one` sees an idle task in the queue. -/
theorem IdleOrder.noIdle (o : IdleOrder c) (hctl : c.ctl ≠ .runOne) : c.loop.NoIdle :=
  noIdle_iff.mpr fun handle hmem => hctl (o.sole handle hmem).1

theorem IdleOrder.of_noIdle (h : c.loop.NoIdle)
    (run : Rotation.Run (c.log.filterMap Obs.turn)
      (c.ctl.idler.toList ++ c.loop.wantIdle.toList)) : IdleOrder c where
  sole handle hmem := absurd hmem (noIdle_iff.mp h handle)
  run := turns_of_noIdle h ▸ run

/-- Outside `run_one`, a change that has nothing to do with idle callbacks. -/
theorem IdleOrder.aside (o : IdleOrder c) (hctl : c.ctl ≠ .runOne) (hidler : c.ctl.idler = none)
    (hidler' : c'.ctl.idler = none) (hkeeps : KeepsIdle c.loop c'.loop)
    (hlog : c'.log.filterMap Obs.turn = c.log.filterMap Obs.turn) : IdleOrder c' := by
  have hnone := o.noIdle hctl
  refine .of_noIdle (hkeeps.tasks hnone) ?_
  have hrun := o.run
  rw [turns_of_noIdle hnone, hidler] at hrun
  rwa [hlog, hidler', hkeeps.idle]

/-- `run_one` takes a task of another kind. -/
theorem IdleOrder.popped (o : IdleOrder c) {task : Task} {rest : List Task}
    (hctl : c.ctl = .runOne) (hsched : c.loop.scheduled = task :: rest) (hother : task.idler = none)
    (hidler' : c'.ctl.idler = none) (hsched' : c'.loop.scheduled = rest)
    (hidle : c'.loop.wantIdle = c.loop.wantIdle)
    (hlog : c'.log.filterMap Obs.turn = c.log.filterMap Obs.turn) : IdleOrder c' := by
  have hnone : c.loop.NoIdle := by
    refine noIdle_iff.mpr fun handle hmem => ?_
    have hsole := (o.sole handle hmem).2.1
    rw [hsched] at hsole
    rw [(List.cons.inj hsole).1] at hother
    cases hother
  refine .of_noIdle (fun task' hmem => hnone task' ?_) ?_
  · rw [hsched]
    exact List.mem_cons_of_mem _ (hsched' ▸ hmem)
  · have hrun := o.run
    rw [turns_of_noIdle hnone, hctl] at hrun
    rwa [hlog, hidler', hidle]

/-- Operations that do not ask for an idle callback. -/
theorem turn_answered {caller : Option Handle} {op : Op Ev} {ans : Answer}
    (h : op ≠ .scope .idle) : (Obs.answered caller op ans).turn = none := by
  cases caller with
  | none => rfl
  | some handle =>
      cases op with
      | scope op =>
          cases op with
          | idle => exact absurd rfl h
          | _ => rfl
      | _ => rfl

theorem IdleOrder.answered (o : IdleOrder c) (hctl : c.ctl = .user) {l : Loop Ev} {op : Op Ev}
    {ans : Answer} (hkeeps : KeepsIdle c.loop l) (hop : op ≠ .scope .idle) :
    IdleOrder (c.answer l op ans) :=
  o.aside (by simp [hctl]) (by simp [hctl, Ctl.idler]) (by simp [answer, hctl, Ctl.idler]) hkeeps
    (by simp [answer, turn_answered hop])

/-- It does not matter what the IOs are. -/
theorem IdleOrder.contents (o : IdleOrder c) (hctl : c.ctl = .user) {l : Loop Ev} {op : Op Ev}
    {ans : Answer} {objects : Nat} {boxes : Nat → Nat} (hkeeps : KeepsIdle c.loop l)
    (hop : op ≠ .scope .idle) :
    IdleOrder { c.answer l op ans with objects := objects, boxes := boxes } := by
  have hanswer : IdleOrder (c.answer l op ans) := o.answered hctl hkeeps hop
  exact ⟨hanswer.sole, hanswer.run⟩

/-- The event of an idle task is alive. -/
theorem IdleOrder.idler_of_dead (o : IdleOrder c) {task : Task} (hmem : task ∈ c.loop.scheduled)
    (hdead : c.loop.eventAlive task.recipient = false) : task.idler = none := by
  cases hidler : task.idler with
  | none => rfl
  | some handle =>
      rw [Task.idler_eq_some] at hidler
      subst hidler
      simp [(o.sole handle hmem).2.2] at hdead

theorem idleOrder_asked (o : IdleOrder c) (hctl : c.ctl = .user) {handle : Handle}
    (hcaller : c.caller = some handle) {ans : Answer} :
    IdleOrder (c.answer (c.loop.idle handle) (.scope .idle) ans) := by
  have hnone := o.noIdle (by simp [hctl])
  have hrun := o.run
  rw [turns_of_noIdle hnone, hctl] at hrun
  refine .of_noIdle hnone ?_
  simp only [answer, hcaller, hctl, List.filterMap_cons, Obs.turn]
  exact hrun.join handle

/-- The event whose turn it is, is called or turned away. -/
theorem idleOrder_served (o : IdleOrder c) {handle : Handle} (hctl : c.ctl = .call handle .idle)
    {ob : Obs Ev} (hob : ob.turn = some (.serve handle)) (hctl' : c'.ctl.idler = none)
    (hsched : c'.loop.scheduled = c.loop.scheduled) (hidle : c'.loop.wantIdle = c.loop.wantIdle)
    (hlog : c'.log = ob :: c.log) : IdleOrder c' := by
  have hnone := o.noIdle (by simp [hctl])
  have hrun := o.run
  rw [turns_of_noIdle hnone, hctl] at hrun
  refine .of_noIdle (fun task hmem => hnone task (hsched ▸ hmem)) ?_
  simp only [hctl', hidle, hlog, List.filterMap_cons, hob]
  exact .serve hrun

/-- An event is called or turned away; only an idle callback has to do with the turns. -/
theorem idleOrder_called (o : IdleOrder c) {handle : Handle} {cb : Callback}
    (hctl : c.ctl = .call handle cb) {ob : Obs Ev}
    (hturn : cb = .idle → ob.turn = some (.serve handle)) (haside : cb ≠ .idle → ob.turn = none)
    (hctl' : c'.ctl.idler = none) (hsched : c'.loop.scheduled = c.loop.scheduled)
    (hidle : c'.loop.wantIdle = c.loop.wantIdle) (hlog : c'.log = ob :: c.log) :
    IdleOrder c' := by
  by_cases hcb : cb = .idle
  · subst hcb
    exact idleOrder_served o hctl (hturn rfl) hctl' hsched hidle hlog
  · have hkeeps : KeepsIdle c.loop c'.loop := ⟨hidle, fun hl task hmem => hl task (hsched ▸ hmem)⟩
    refine o.aside (by simp [hctl]) ?_ hctl' hkeeps (by simp [hlog, haside hcb])
    rw [hctl]
    cases cb with
    | idle => exact absurd rfl hcb
    | _ => rfl

theorem idleOrder_killed (o : IdleOrder c) {handle : Handle} {resp : Response}
    (hctl : c.ctl = .settle handle resp) (hctl' : c'.ctl.idler = none)
    (hsched : c'.loop.scheduled = c.loop.scheduled)
    (hidle : c'.loop.wantIdle = c.loop.wantIdle.erase handle)
    (hlog : c'.log = .killed handle :: c.log) : IdleOrder c' := by
  have hnone := o.noIdle (by simp [hctl])
  have hrun := o.run
  rw [turns_of_noIdle hnone, hctl] at hrun
  refine .of_noIdle (fun task hmem => hnone task (hsched ▸ hmem)) ?_
  simp only [hctl', hidle, hlog, List.filterMap_cons, Obs.turn]
  exact hrun.leave handle

/-- The idle task leaves the queue, and its event is called next. -/
theorem idleOrder_taken (o : IdleOrder c) {handle : Handle} {rest : List Task}
    (hctl : c.ctl = .runOne) (hsched : c.loop.scheduled = ⟨handle, .idle⟩ :: rest)
    (hctl' : c'.ctl = .call handle .idle) (hsched' : c'.loop.scheduled = rest)
    (hidle : c'.loop.wantIdle = c.loop.wantIdle)
    (hlog : c'.log.filterMap Obs.turn = c.log.filterMap Obs.turn) : IdleOrder c' := by
  have hsole := (o.sole handle (by simp [hsched])).2.1
  rw [hsched] at hsole
  obtain rfl : rest = [] := (List.cons.inj hsole).2
  have hnone : c'.loop.NoIdle := by simp [NoIdle, hsched']
  refine .of_noIdle hnone ?_
  have hrun := o.run
  rw [hlog, hctl', hidle]
  simpa [turns, hctl, hsched, Ctl.idler, Task.idler] using hrun

theorem idleOrder_gather (hr : Reachable c) {env : GatherEnv} (o : IdleOrder c)
    (h : c.step (.gather env) = .ok c') : IdleOrder c' := by
  have halive := idle_task_alive hr h
  obtain ⟨hctl, hsched⟩ := gather_enabled (.ok c') h
  have hrun := o.run
  rw [turns_of_noIdle (by simp [NoIdle, hsched]), hctl] at hrun
  simp only [step, hctl, hsched] at h
  obtain ⟨⟨result, l⟩, hg, h⟩ := Except.bind_eq_ok.mp h
  rcases tasksGather_idle (Except.mapError_eq_ok.mp hg) with hkeeps | ⟨rfl, handle, hnew, hfront⟩
  · have hnone : l.NoIdle := hkeeps.tasks (by simp [NoIdle, hsched])
    cases result with
    | error err =>
        cases h
        exact .of_noIdle hnone (by rwa [hkeeps.idle])
    | ok _ =>
        cases h
        exact .of_noIdle hnone (by rwa [hkeeps.idle])
  · cases h
    refine ⟨fun handle' hmem => ?_, ?_⟩
    · obtain rfl : handle' = handle := by simpa [hnew] using hmem
      exact ⟨rfl, hnew, halive _ hmem rfl⟩
    · simpa [turns, hctl, hnew, Ctl.idler, Task.idler, hfront] using hrun

/-- Every step keeps the queue and the history together. -/
theorem idleOrder_step (hr : Reachable c) (o : IdleOrder c) (h : c.step a = .ok c') :
    IdleOrder c' := by
  by_cases hg : ∃ env, a = .gather env
  · obtain ⟨env, rfl⟩ := hg
    exact idleOrder_gather hr o h
  have hv := hr.visited
  cases step_edit h (not_exists.mp hg) with
  | idled handle ha hctl hcaller => exact idleOrder_asked o hctl hcaller
  | entered handle cb holder events ha hctl hget hgen hfree hset =>
      refine idleOrder_called o hctl ?_ ?_ rfl rfl rfl rfl
      · rintro rfl
        rfl
      · exact fun hcb => by simp [Obs.turn, hcb]
  | turnedAway handle cb err ha hctl hwhy =>
      refine idleOrder_called o hctl ?_ ?_ rfl rfl rfl rfl
      · rintro rfl
        rcases hwhy with ⟨_, hdead⟩ | ⟨rfl, _⟩
        · simp [hv.callsAlive handle .idle hctl] at hdead
        · rfl
      · exact fun hcb => by simp [Obs.turn, hcb]
  | killed handle resp result holder events deregisters handler ha hctl hresp hget hfree hset =>
      refine idleOrder_killed o hctl rfl rfl ?_ rfl
      simp only [hv.discipline.settling_gen hctl hget]
  | dropped task rest ha hctl hsched hdead =>
      have hother := o.idler_of_dead (by simp [hsched]) hdead
      exact o.popped hctl hsched hother (by simp [hctl, Ctl.idler]) rfl rfl rfl
  | passed task rest holder ha hctl hsched hget hgen hkind hio =>
      cases hidler : task.idler with
      | none => exact o.popped hctl hsched hidler (by rw [Task.idler_call, hidler]) rfl rfl rfl
      | some handle =>
          rw [Task.idler_eq_some] at hidler
          subst hidler
          exact idleOrder_taken o hctl hsched rfl rfl rfl rfl
  | lost task rest id ready source holder ha hctl hsched hparam hget hgen hgone =>
      exact o.popped hctl hsched (by simp [Task.idler, hparam]) rfl rfl rfl rfl
  | fired task rest id left holder events ha hctl hsched hparam hget hgen hleft hset =>
      exact o.popped hctl hsched (by simp [Task.idler, hparam]) rfl rfl rfl rfl
  | notified | arrived | reorderedReleased | reorderedTimeouts | reorderedRecipients =>
      exact ⟨o.sole, o.run⟩
  | sent handle data tp holder ha hctl hget hgen hexp =>
      exact o.answered hctl (.adds (by simp [Task.idler])) nofun
  | refusal op err ha hctl hr =>
      refine o.answered hctl ⟨rfl, id⟩ ?_
      rintro rfl
      exact hr
  | query op v ha hctl hq =>
      refine o.answered hctl ⟨rfl, id⟩ ?_
      rintro rfl
      exact hq
  | timer op handle when holder events ha hctl hcaller hop =>
      refine o.answered hctl ⟨rfl, id⟩ ?_
      intro heq
      cases heq
      cases hop
  | ioRefused _ _ _ _ ha hctl | ioRegistered _ _ _ _ _ _ ha hctl | lent _ _ _ _ _ ha hctl =>
      exact o.contents hctl ⟨rfl, id⟩ nofun
  | stopped ha hctl | signalled _ _ ha hctl | expected _ _ _ _ ha hctl
  | ioRemoved _ _ _ _ _ _ _ ha hctl | submitted _ ha hctl | tracked _ _ _ _ ha hctl
  | poolSet _ ha hctl | enabled _ ha hctl =>
      exact o.answered hctl ⟨rfl, id⟩ nofun
  | beganRunOne ha hctl | beganRun _ ha hctl | beganUntilComplete _ _ ha hctl
  | stored _ _ _ _ ha hctl | posted _ _ _ _ ha hctl | finished _ _ _ _ _ _ _ _ ha hctl
  | kept _ ha hctl | again ha hctl | gaveBack _ _ _ _ ha hctl =>
      exact o.aside (by simp [hctl]) (by simp [hctl, Ctl.idler]) rfl ⟨rfl, id⟩ rfl
  | woke env ha | ready env _ _ _ _ ha => exact absurd ⟨env, ha⟩ hg
  | drained _ ha | pruned ha | received _ _ ha | ignored _ _ ha | wakeupTaken ha | flagCleared _ ha
  | reaped _ _ _ _ _ ha | broadcast _ ha | cleaned _ _ ha | rebuilt _ _ ha | timed ha
  | idleTaken _ _ ha | gatherFailed _ ha =>
      exact absurd ha.env hg

theorem Reachable.idleOrder (h : Reachable c) : IdleOrder c := by
  obtain ⟨now, hreach⟩ := h
  have hboth : Reachable c ∧ IdleOrder c := by
    refine hreach.invariant (Q := fun s => Reachable s ∧ IdleOrder s) ?_ ?_
    · exact ⟨⟨now, .start⟩, .of_noIdle (by simp [NoIdle, init, Loop.new]) .start⟩
    · intro s s' a hq _ hs
      exact ⟨hq.1.step hs, idleOrder_step hq.1 hq.2 hs⟩
  exact hboth.2

/-- Those who wait by the history are those in the queue. -/
theorem awaitsIdle_iff (h : Reachable c) (handle : Handle) :
    AwaitsIdle handle c.log ↔ handle ∈ c.turns := h.idleOrder.run.awaits_iff handle

/-! ## Turns -/

def IdleCall (handle : Handle) (c c' : Config Ev) : Prop :=
  ∃ event, c.step .tick = .ok c' ∧ c'.log = .called handle .idle event :: c.log

theorem IdleCall.ctl {handle : Handle} (h : IdleCall handle c c') :
    c.ctl = .call handle .idle := by
  obtain ⟨event, hstep, hlog⟩ := h
  cases step_edit hstep nofun with
  | entered handle' cb holder events ha hctl =>
      cases hlog
      exact hctl
  | _ => simp_all [giveBack]

theorem IdleCall.turn {handle : Handle} (h : IdleCall handle c c') :
    c'.log.filterMap Obs.turn = .serve handle :: c.log.filterMap Obs.turn := by
  obtain ⟨event, _, hlog⟩ := h
  rw [hlog, List.filterMap_cons, Obs.turn]

/-- Whoever waits while another event is called gets its turn before that event gets another. -/
theorem turn_between_calls {c₁ c₂ c₃ : Config Ev} {g h : Handle} {since : List (Obs Ev)}
    (hr : Reachable c) (hg : g ∈ c.loop.wantIdle) (hfirst : IdleCall h c c₁)
    (hreach : Reach step Anything c₁ c₂) (hlog : c₂.log = since ++ c₁.log)
    (hsecond : IdleCall h c₂ c₃)
    (hasks : ∀ ans, .answered (some g) (.scope .idle) ans ∉ since) :
    (∃ event, .called g .idle event ∈ since) ∨ .refused g .idle .busy ∈ since ∨
      .killed g ∈ since := by
  have hr₃ : Reachable c₃ := (((hr.step hfirst.choose_spec.1).reach hreach).step
    hsecond.choose_spec.1)
  have hturns : c.turns = h :: c.loop.wantIdle.toList := by
    rw [turns_of_noIdle (hr.idleOrder.noIdle (by simp [hfirst.ctl])), hfirst.ctl]
    rfl
  have hne : g ≠ h := by
    have hnodup := hr.idleOrder.run.nodup
    rw [hturns] at hnodup
    rintro rfl
    exact (List.nodup_cons.mp hnodup).1 hg
  have hwaits : AwaitsIdle g c.log := by
    rw [awaitsIdle_iff hr, hturns]
    exact List.mem_cons_of_mem _ hg
  have hrun := hr₃.idleOrder.run
  rw [hsecond.turn, hlog, List.filterMap_append, hfirst.turn] at hrun
  have hjoin : .join g ∉ since.filterMap Obs.turn := by
    intro hmem
    obtain ⟨o, ho, hturn⟩ := List.mem_filterMap.mp hmem
    obtain ⟨ans, rfl⟩ := Obs.turn_eq_join hturn
    exact hasks ans ho
  rcases Rotation.Run.turn_between hne hrun hwaits hjoin with hmem | hmem
  · obtain ⟨o, ho, hturn⟩ := List.mem_filterMap.mp hmem
    rcases Obs.turn_eq_serve hturn with ⟨event, rfl⟩ | rfl
    · exact .inl ⟨event, ho⟩
    · exact .inr (.inl ho)
  · obtain ⟨o, ho, hturn⟩ := List.mem_filterMap.mp hmem
    obtain rfl := Obs.turn_eq_leave hturn
    exact .inr (.inr ho)

/-- An event is called for a request that no earlier call has answered. -/
theorem IdleCall.awaits {handle : Handle} (hr : Reachable c) (h : IdleCall handle c c') :
    AwaitsIdle handle c.log := by
  have hrun := (hr.step h.choose_spec.1).idleOrder.run
  rw [h.turn] at hrun
  exact hrun.served_waits

/-- An event is turned away as busy only inside a callback of its own. -/
theorem running_of_busy {handle : Handle} {cb : Callback} (hr : Reachable c)
    (h : c.step a = .ok c') (hlog : c'.log = .refused handle cb .busy :: c.log) :
    handle ∈ c.running := by
  rcases step_cases h with ⟨env, rfl⟩ | e
  · have hsame := gather_frame Config.log (fun _ _ => Edit.log_of_gather) h
    simp [hsame] at hlog
  cases e with
  | turnedAway handle' cb' err ha hctl hwhy =>
      cases hlog
      rcases hwhy with ⟨herr, _⟩ | ⟨_, holder, hget, hgen, hstolen⟩
      · cases herr
      · rw [hr.visited.discipline.mem_running, Stolen, tag_of_get? hget, hgen, hstolen]
  | _ => simp_all [answer, giveBack]

/-- Only a gather that found no other task schedules an idle one. -/
theorem idle_scheduled_alone {handle : Handle} (hr : Reachable c) (h : c.step a = .ok c')
    (hmem : ⟨handle, .idle⟩ ∈ c'.loop.scheduled) (hnew : ⟨handle, .idle⟩ ∉ c.loop.scheduled) :
    a.IsGather ∧ c'.loop.scheduled = [⟨handle, .idle⟩] := by
  refine ⟨?_, ((hr.step h).idleOrder.sole handle hmem).2.1⟩
  rcases step_cases h with ⟨env, rfl⟩ | e
  · trivial
  · rcases e.origin _ hmem with hold | horigin
    · exact absurd hold hnew
    · generalize htask : (⟨handle, .idle⟩ : Task) = task at horigin
      cases horigin with
      | idle _ ha => exact ha
      | _ => cases htask

/-- Idle callbacks are served in turns: between two of them of one event, every other one that waits
gets its own. -/
theorem idle_round_robin (c : Config Ev) (hr : Reachable c) :
    (∀ g h since c₁ c₂ c₃, g ∈ c.loop.wantIdle → IdleCall h c c₁ → Reach step Anything c₁ c₂ →
      c₂.log = since ++ c₁.log → IdleCall h c₂ c₃ →
      (∀ ans, .answered (some g) (.scope .idle) ans ∉ since) →
        (∃ event, .called g .idle event ∈ since) ∨ .refused g .idle .busy ∈ since ∨
          .killed g ∈ since) ∧
    (∀ a g c', c.step a = .ok c' → c'.log = .refused g .idle .busy :: c.log → g ∈ c.running) ∧
    (∀ h c', IdleCall h c c' → AwaitsIdle h c.log) ∧
    ∀ a h c', c.step a = .ok c' → ⟨h, .idle⟩ ∈ c'.loop.scheduled →
      ⟨h, .idle⟩ ∉ c.loop.scheduled → a.IsGather ∧ c'.loop.scheduled = [⟨h, .idle⟩] :=
  ⟨fun _ _ _ _ _ _ hg hfirst hreach hlog hsecond hasks =>
      turn_between_calls hr hg hfirst hreach hlog hsecond hasks,
    fun _ _ _ hstep hlog => running_of_busy hr hstep hlog,
    fun _ _ hcall => hcall.awaits hr,
    fun _ _ _ hstep hmem hnew => idle_scheduled_alone hr hstep hmem hnew⟩

/-- Two events ask to be idle, and the first one is about to be called. -/
def twoIdlers : List (Action Unit) :=
  [.call (.iface (.insertExact () ⟨3, true⟩)), .tick, .call (.scope .idle), .finish () (.ok true),
    .settle true (.ok ()), .tick, .call (.iface (.insertExact () ⟨3, true⟩)), .tick,
    .call (.scope .idle), .finish () (.ok true), .settle true (.ok ()), .tick,
    .call (.iface .runOne), .gather ⟨0, .ok [], 0, []⟩, .tick]

/-- It asks again at once. -/
def askAgain : List (Action Unit) :=
  [.call (.scope .idle), .finish () (.ok true), .settle true (.ok ()), .tick,
    .call (.iface .runOne), .gather ⟨0, .ok [], 0, []⟩, .tick, .tick, .finish () (.ok true),
    .settle true (.ok ()), .tick, .call (.iface .runOne), .gather ⟨0, .ok [], 0, []⟩, .tick]

def askAgainLog : List (Obs Unit) :=
  [.dispatched ⟨⟨0, 0⟩, .idle⟩, .returned .runOne (.ok .unit), .finished ⟨1, 1⟩ () (.ok true),
    .called ⟨1, 1⟩ .idle (), .dispatched ⟨⟨1, 1⟩, .idle⟩, .returned .runOne (.ok .unit),
    .finished ⟨0, 0⟩ () (.ok true), .answered (some ⟨0, 0⟩) (.scope .idle) (.ok .unit)]

/-- The first event is called twice; in between the second one gets its turn. -/
theorem idle_round_robin_twoIdlers : ∃ since c₁ c₂ c₃,
    ⟨1, 1⟩ ∈ (after 0 twoIdlers).loop.wantIdle ∧ IdleCall ⟨0, 0⟩ (after 0 twoIdlers) c₁ ∧
      Reach step Anything c₁ c₂ ∧ c₂.log = since ++ c₁.log ∧ IdleCall ⟨0, 0⟩ c₂ c₃ ∧
      ((∃ event, .called ⟨1, 1⟩ .idle event ∈ since) ∨
        .refused ⟨1, 1⟩ .idle .busy ∈ since ∨ .killed ⟨1, 1⟩ ∈ since) := by
  obtain ⟨c₁, c₂, c₃, hfirst, hreach, hlog, hsecond⟩ : ∃ c₁ c₂ c₃,
      IdleCall ⟨0, 0⟩ (after 0 twoIdlers) c₁ ∧ Reach step Anything c₁ c₂ ∧
      c₂.log = askAgainLog ++ c₁.log ∧ IdleCall ⟨0, 0⟩ c₂ c₃ :=
    ⟨_, _, _, ⟨(), rfl, rfl⟩, @Reach.of_run _ _ _ step _ _ askAgain rfl, rfl, ⟨(), rfl, rfl⟩⟩
  have hwaits : ⟨1, 1⟩ ∈ (after 0 twoIdlers).loop.wantIdle := by decide
  exact ⟨askAgainLog, c₁, c₂, c₃, hwaits, hfirst, hreach, hlog, hsecond,
    (idle_round_robin _ (reachable_after 0 twoIdlers)).1 ⟨1, 1⟩ ⟨0, 0⟩ askAgainLog c₁ c₂ c₃
      hwaits hfirst hreach hlog hsecond (by simp [askAgainLog])⟩

end Config

end Eveboros
