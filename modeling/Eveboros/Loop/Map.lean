import Eveboros.Loop.Gather
import Eveboros.Loop.Scope
import Eveboros.Recycler.Map

/-!
# Other events in the same loop

The loop moves its events and lends them out, but never looks at them.  With other events in the
place of its own it goes the same way.
-/

namespace Eveboros

variable {Ev Ev' : Type} (f : Ev → Ev')

def StolenCell.map (cell : StolenCell Ev) : StolenCell Ev' := ⟨f cell.data, cell.stolen⟩

def EvHolder.map (holder : EvHolder Ev) : EvHolder Ev' :=
  { holder with event := holder.event.map f }

def Loop.map (l : Loop Ev) : Loop Ev' := { l with events := l.events.map (EvHolder.map f) }

namespace Loop

variable {f} {l : Loop Ev}

theorem get?_map (idx : Nat) :
    (l.map f).events.get? idx = (l.events.get? idx).map (EvHolder.map f) := Recycler.get?_map idx

section Relabel

variable {α β : Type} {φ : α → β}

/-- Looking a holder up goes the same way; so does what follows, if it agrees on the holder. -/
theorem index_relabel {idx : Nat} {g : EvHolder Ev' → Except Panic β}
    {k : EvHolder Ev → Except Panic α} (h : ∀ holder, g (holder.map f) = (k holder).map φ) :
    (((l.map f).events.index idx).mapError Panic.events >>= g) =
      ((l.events.index idx).mapError Panic.events >>= k).map φ := by
  have hindex : (l.map f).events.index idx = (l.events.index idx).map (EvHolder.map f) :=
    Recycler.index_map idx
  rw [hindex, Except.mapError_map]
  exact Except.bind_relabel h

/-- Nothing that follows depends on the event. -/
theorem index_same {idx : Nat} {g : EvHolder Ev' → Except Panic α}
    {k : EvHolder Ev → Except Panic α} (h : ∀ holder, g (holder.map f) = k holder) :
    (((l.map f).events.index idx).mapError Panic.events >>= g) =
      ((l.events.index idx).mapError Panic.events >>= k) := by
  have hindex : (l.map f).events.index idx = (l.events.index idx).map (EvHolder.map f) :=
    Recycler.index_map idx
  rw [hindex]
  cases l.events.index idx with
  | error e => rfl
  | ok holder => exact h holder

theorem modify_relabel {idx : Nat} {u : EvHolder Ev → EvHolder Ev}
    {u' : EvHolder Ev' → EvHolder Ev'} {g : Recycler (EvHolder Ev') → Except Panic β}
    {k : Recycler (EvHolder Ev) → Except Panic α}
    (hu : ∀ holder : EvHolder Ev, u' (holder.map f) = (u holder).map f)
    (h : ∀ events, g (events.map (EvHolder.map f)) = (k events).map φ) :
    (((l.map f).events.modify idx u').mapError Panic.events >>= g) =
      ((l.events.modify idx u).mapError Panic.events >>= k).map φ := by
  have hmodify : (l.map f).events.modify idx u' =
      (l.events.modify idx u).map (Recycler.map (EvHolder.map f)) := Recycler.modify_map hu idx
  rw [hmodify, Except.mapError_map]
  exact Except.bind_relabel h

end Relabel

theorem eventAlive_map (handle : Handle) : (l.map f).eventAlive handle = l.eventAlive handle := by
  unfold eventAlive
  rw [get?_map]
  cases l.events.get? handle.id <;> rfl

/-! ## Events in the loop -/

theorem eventKill_map (idx : Nat) (deregisters : Bool) : (l.map f).eventKill idx deregisters =
    (l.eventKill idx deregisters).map fun out => (f out.1, out.2.map f) := by
  unfold eventKill
  have hrelease : (l.map f).events.release idx = (l.events.release idx).map
      fun out => (out.1.map f, out.2.map (EvHolder.map f)) := Recycler.release_map idx
  rw [hrelease, Except.mapError_map]
  refine Except.bind_relabel fun ⟨holder, events⟩ => ?_
  rcases holder with ⟨⟨event, stolen⟩, generation, timeouts, ios, expected, children⟩
  by_cases hfail : deregisters = false ∧ ios.keys ≠ []
  · simp only [EvHolder.map, hfail, and_self, not_false_eq_true, ne_eq, ↓reduceIte]
    rfl
  · simp only [EvHolder.map, hfail, ↓reduceIte]
    cases stolen <;> rfl

theorem eventCallEnter_map (handle : Handle) : (l.map f).eventCallEnter handle =
    (l.eventCallEnter handle).map fun out => out.map fun (data, event, l) =>
      (data, f event, l.map f) := by
  unfold eventCallEnter
  rw [get?_map]
  cases hget : l.events.get? handle.id with
  | none => rfl
  | some holder =>
      rcases holder with ⟨⟨event, stolen⟩, generation, timeouts, ios, expected, children⟩
      simp only [Option.map_some, EvHolder.map, StolenCell.map]
      split
      · rfl
      · cases stolen with
        | true => rfl
        | false => exact modify_relabel (fun _ => rfl) fun _ => rfl

theorem eventCallLeave_map (handle : Handle) (data : StolenData) (event : Ev) :
    (l.map f).eventCallLeave handle data (f event) =
      (l.eventCallLeave handle data event).map (Loop.map f) := by
  unfold eventCallLeave
  refine index_relabel fun holder => ?_
  have haddr : (l.map f).cellAddr handle.id = l.cellAddr handle.id := rfl
  simp only [StolenCell.unsteal, haddr]
  split
  · exact modify_relabel (fun _ => rfl) fun _ => rfl
  · rfl

theorem storeEvent_map (event : Ev) (growth : Growth) : (l.map f).storeEvent (f event) growth =
    (l.storeEvent event growth).map fun out => (out.1, out.2.map f) := by
  unfold storeEvent
  have hstore : (l.map f).events.store (.new (f event) (l.map f).generation) growth =
      (l.events.store (.new event l.generation) growth).map
        fun stored => (stored.1, stored.2.map (EvHolder.map f)) :=
    Recycler.store_map (f := EvHolder.map f) (EvHolder.new event l.generation) growth
  simp only [hstore, Except.mapError_map]
  exact Except.bind_relabel fun _ => rfl

theorem timeoutAt_map (handle : Handle) (when : Nat) : (l.map f).timeoutAt handle when =
    (l.timeoutAt handle when).map fun out => (out.1, out.2.map f) :=
  modify_relabel (fun _ => rfl) fun _ => rfl

theorem timeoutAfter_map (handle : Handle) (after : Nat) : (l.map f).timeoutAfter handle after =
    (l.timeoutAfter handle after).map fun out => (out.1, out.2.map f) := by
  have hnow : (l.map f).now = l.now := rfl
  unfold timeoutAfter
  rw [hnow]
  split
  · exact timeoutAt_map handle _
  · rfl

theorem msgTypeCheck_map (handle : Handle) (tid : TypeId) :
    (l.map f).msgTypeCheck handle tid = l.msgTypeCheck handle tid := by
  unfold msgTypeCheck
  rw [eventAlive_map]
  split
  · rfl
  · exact index_same fun _ => rfl

theorem sendImplSender_map (sender : Option Handle) (handle : Handle) (data : AnyBox)
    (tp : TypeId) : (l.map f).sendImplSender sender handle data tp =
      (l.sendImplSender sender handle data tp).map fun out => out.map (Loop.map f) := by
  unfold sendImplSender
  rw [msgTypeCheck_map]
  refine Except.bind_relabel_right fun checked => ?_
  cases checked <;> rfl

theorem signalEnable_map (signal : Signal) :
    (l.map f).signalEnable signal = (l.signalEnable signal).map (Loop.map f) := by
  have hon : (l.map f).signalsEnabled = l.signalsEnabled := rfl
  unfold signalEnable
  rw [hon]
  split
  · rfl
  · split <;> rfl

theorem poolThreadCountSet_map (cnt : Nat) :
    (l.map f).poolThreadCountSet cnt = (l.poolThreadCountSet cnt).map (Loop.map f) := by
  have hpool : (l.map f).threadpool = l.threadpool := rfl
  unfold poolThreadCountSet
  rw [hpool]
  split
  · rfl
  · cases l.threadpool <;> rfl

/-! ## The operations of a scope -/

theorem ioIdx_map (handle : Handle) (id : IoId) : (l.map f).ioIdx handle id = l.ioIdx handle id :=
  index_same fun _ => rfl

theorem ioRegisterAny_map (handle : Handle) (object : Nat) (growth : Growth)
    (outcome : Option IoErrorKind) : (l.map f).ioRegisterAny handle object growth outcome =
      (l.ioRegisterAny handle object growth outcome).map fun out => (out.1, out.2.map f) := by
  unfold ioRegisterAny
  refine Except.bind_relabel_right fun ⟨id, ios⟩ => ?_
  cases outcome with
  | none => exact modify_relabel (fun _ => rfl) fun _ => rfl
  | some err => exact Except.bind_relabel_right fun _ => rfl

theorem ioUpdate_map (handle : Handle) (id : IoId) (outcome : Option IoErrorKind) :
    (l.map f).ioUpdate handle id outcome = l.ioUpdate handle id outcome := by
  unfold ioUpdate
  rw [ioIdx_map]

theorem ioRemove_map (handle : Handle) (id : IoId) (outcome : Option IoErrorKind) :
    (l.map f).ioRemove handle id outcome =
      (l.ioRemove handle id outcome).map fun out => (out.1, out.2.map f) := by
  unfold ioRemove
  rw [ioIdx_map]
  refine Except.bind_relabel_right fun owned => ?_
  cases owned with
  | error err => rfl
  | ok idx =>
      refine modify_relabel (fun _ => rfl) fun events => ?_
      exact Except.bind_relabel_right fun _ => rfl

theorem ioMut_map (handle : Handle) (id : IoId) :
    (l.map f).ioMut handle id = l.ioMut handle id :=
  index_same fun _ => rfl

theorem signal_map (handle : Handle) (signal : Signal) :
    (l.map f).signal handle signal = (l.signal handle signal).map (Loop.map f) := by
  unfold Loop.signal
  rw [signalEnable_map]
  exact Except.bind_relabel fun _ => rfl

theorem expectMessage_map (handle : Handle) (tp : TypeId) :
    (l.map f).expectMessage handle tp = (l.expectMessage handle tp).map (Loop.map f) :=
  modify_relabel (fun _ => rfl) fun _ => rfl

theorem child_map (handle : Handle) (pid : Pid) :
    (l.map f).child handle pid = (l.child handle pid).map (Loop.map f) := by
  unfold Loop.child
  rw [signalEnable_map]
  refine Except.bind_relabel fun l => ?_
  have hchildren : (l.map f).children = l.children := rfl
  simp only [hchildren]
  split
  · rfl
  · exact modify_relabel (fun _ => rfl) fun _ => rfl

/-! ## Gathering -/

theorem timeoutMin_map (now : Nat) :
    (l.map f).timeoutMin now = ((l.timeoutMin now).1, (l.timeoutMin now).2.map f) := by
  have hdead : (fun t : TimeoutHolder => !(l.map f).eventAlive t.recipient) =
      fun t => !l.eventAlive t.recipient := funext fun t => by rw [eventAlive_map]
  have hidle : (l.map f).wantIdle = l.wantIdle := rfl
  have htimeouts : (l.map f).timeouts = l.timeouts := rfl
  simp only [timeoutMin, hdead, hidle, htimeouts]
  rfl

theorem timersCleanup_map : (l.map f).timersCleanup = l.timersCleanup.map (Loop.map f) := by
  have hdead : (fun t : TimeoutHolder => (l.map f).eventAlive t.recipient) =
      fun t => l.eventAlive t.recipient := funext fun t => by rw [eventAlive_map]
  have htimeouts : (l.map f).timeouts = l.timeouts := rfl
  have hstats : (l.map f).timerStats = l.timerStats := rfl
  unfold timersCleanup
  rw [hstats]
  refine Except.bind_relabel_right fun ⟨stillDead, stillAlive⟩ => ?_
  simp only [hdead, htimeouts]
  split <;> rfl

theorem childPush_map (pid : Pid) (exit : ChildExit) :
    (l.map f).childPush pid exit = (l.childPush pid exit).map (Loop.map f) := by
  have hchildren : (l.map f).children = l.children := rfl
  unfold childPush
  rw [hchildren]
  cases l.children.lookup pid with
  | none => rfl
  | some handle =>
      refine index_relabel fun holder => ?_
      have hpids : (holder.map f).children = holder.children := rfl
      rw [hpids]
      split
      · rfl
      · exact modify_relabel (fun _ => rfl) fun _ => rfl

/-- The outcome of a part of a gather, with other events. -/
def mapResult (f : Ev → Ev') (out : Except Error Unit × Loop Ev) : Except Error Unit × Loop Ev' :=
  (out.1, out.2.map f)

theorem childrenGather_map (waits : List WaitResult) (l : Loop Ev) :
    childrenGather waits (l.map f) = (childrenGather waits l).map (mapResult f) := by
  induction waits generalizing l with
  | nil => rfl
  | cons answer answers ih =>
      unfold childrenGather
      split
      · rfl
      · rfl
      · rfl
      · rfl
      · rw [childPush_map]
        exact Except.bind_relabel ih
      · rw [childPush_map]
        exact Except.bind_relabel ih
      · rfl
      · exact ih l

theorem scanSignal_map (waits : List WaitResult) (signum : Nat) :
    (l.map f).scanSignal waits signum = (l.scanSignal waits signum).map (mapResult f) := by
  have hflags : (l.map f).signalFlags = l.signalFlags := rfl
  unfold scanSignal
  rw [hflags]
  by_cases hflag : l.signalFlags signum = true
  · simp only [hflag, ↓reduceIte]
    cases Signal.fromCInt signum with
    | none => rfl
    | some signal =>
        by_cases hchld : signal = .SIGCHLD
        · simp only [hchld, ↓reduceIte]
          rw [show childrenGather waits ((l.map f).clearFlag signum) = _ from
            childrenGather_map waits (l.clearFlag signum)]
          refine Except.bind_relabel fun ⟨reaped, l₁⟩ => ?_
          cases reaped <;> rfl
        · simp only [hchld, ↓reduceIte]
          rfl
  · simp only [hflag]
    rfl

theorem scanSignals_map (waits : List WaitResult) (signums : List Nat) (l : Loop Ev) :
    scanSignals waits signums (l.map f) = (scanSignals waits signums l).map (mapResult f) := by
  induction signums generalizing l with
  | nil => rfl
  | cons signum rest ih =>
      unfold scanSignals
      rw [scanSignal_map]
      refine Except.bind_relabel fun ⟨scanned, l₁⟩ => ?_
      cases scanned with
      | error err => rfl
      | ok _ => exact ih l₁

theorem gatherMessage_map (m : RemoteMessage) :
    (l.map f).gatherMessage m = (l.gatherMessage m).map (Loop.map f) := by
  unfold gatherMessage
  simp only [msgTypeCheck_map]
  split
  all_goals
    refine Except.bind_relabel_right fun passed => ?_
    cases passed <;> rfl

theorem gatherMessages_map (ms : List RemoteMessage) (l : Loop Ev) :
    gatherMessages ms (l.map f) = (gatherMessages ms l).map (Loop.map f) := by
  induction ms generalizing l with
  | nil => rfl
  | cons m rest ih =>
      have hmessage : gatherMessage { l.map f with receiver := rest } m =
          (gatherMessage { l with receiver := rest } m).map (Loop.map f) :=
        gatherMessage_map (f := f) (l := { l with receiver := rest }) m
      unfold gatherMessages
      rw [hmessage]
      exact Except.bind_relabel ih

theorem gatherEvent_map (waits : List WaitResult) (ev : PollEvent) :
    (l.map f).gatherEvent waits ev = (l.gatherEvent waits ev).map (mapResult f) := by
  unfold gatherEvent
  split
  · rw [show gatherMessages (l.map f).receiver (l.map f) = _ from gatherMessages_map l.receiver l]
    exact Except.bind_relabel fun _ => rfl
  · split
    · exact scanSignals_map waits (List.range SIG_COUNT) { l with signalWakeup := false }
    · exact Except.bind_relabel_right fun _ => rfl

theorem tasksGatherIo_map (waits : List WaitResult) (evs : List PollEvent) (l : Loop Ev) :
    tasksGatherIo waits evs (l.map f) = (tasksGatherIo waits evs l).map (mapResult f) := by
  induction evs generalizing l with
  | nil => rfl
  | cons ev rest ih =>
      unfold tasksGatherIo
      rw [gatherEvent_map]
      refine Except.bind_relabel fun ⟨gathered, l₁⟩ => ?_
      cases gathered with
      | error err => rfl
      | ok _ => exact ih l₁

theorem gatherIdle_map : (l.map f).gatherIdle = l.gatherIdle.map f := by
  have hsched : (l.map f).scheduled = l.scheduled := rfl
  have hidle : (l.map f).wantIdle = l.wantIdle := rfl
  unfold gatherIdle
  rw [hsched, hidle]
  split
  · cases l.wantIdle.popFront <;> rfl
  · rfl

def mapPolled (f : Ev → Ev') : Polled Ev → Polled Ev'
  | .ended result l => .ended result (l.map f)
  | .woken l => .woken (l.map f)

theorem tasksPoll_map (env : GatherEnv) :
    (l.map f).tasksPoll env = (l.tasksPoll env).map (mapPolled f) := by
  have hsched : (l.map f).scheduled = l.scheduled := rfl
  have hdrain : (l.map f).drainReleased = l.drainReleased.map (Loop.map f) :=
    Except.bind_relabel_right fun _ => rfl
  unfold tasksPoll
  rw [hsched, hdrain]
  split
  · rfl
  · refine Except.bind_relabel fun l₁ => ?_
    have hempty : (l₁.map f).events.isEmpty = l₁.events.isEmpty := Recycler.isEmpty_map
    rw [hempty]
    refine Except.bind_relabel_right fun empty => ?_
    cases empty with
    | true => rfl
    | false =>
        simp only [Bool.false_eq_true, ↓reduceIte, timeoutMin_map]
        split
        · rfl
        · rfl
        · rename_i events _
          have hio : tasksGatherIo env.waits events
              { (l₁.timeoutMin env.now).2.map f with now := env.wake } =
            (tasksGatherIo env.waits events { (l₁.timeoutMin env.now).2 with now := env.wake }).map
              (mapResult f) :=
            tasksGatherIo_map (f := f) env.waits events
              { (l₁.timeoutMin env.now).2 with now := env.wake }
          rw [hio]
          refine Except.bind_relabel fun ⟨gathered, l₂⟩ => ?_
          cases gathered <;> rfl

/-- A gather does the same whatever events the loop holds. -/
theorem tasksGather_map (env : GatherEnv) :
    (l.map f).tasksGather env = (l.tasksGather env).map (mapResult f) := by
  unfold tasksGather
  rw [tasksPoll_map]
  refine Except.bind_relabel fun polled => ?_
  cases polled with
  | ended result l₁ => rfl
  | woken l₁ =>
      simp only [mapPolled, timersCleanup_map]
      refine Except.bind_relabel fun l₂ => ?_
      have htimers : (l₂.map f).tasksGatherTimers = l₂.tasksGatherTimers.map f := rfl
      rw [htimers, gatherIdle_map]
      rfl

end Loop

end Eveboros
