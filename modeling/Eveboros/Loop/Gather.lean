import Eveboros.Loop.Events

/-!
# Gathering tasks

When no task is left, the loop polls and refills the queue: messages of the channel, signals and
children, ready IOs, due timeouts, and an idle callback if there was nothing else.  What the
operating system answers during one gather is a `GatherEnv`.
-/

namespace Eveboros

structure PollEvent where
  token : Nat
  kind : Ready
  /-- Ghost: the object that is ready, for an IO of an event. -/
  source : Nat
  deriving DecidableEq, Repr

structure GatherEnv where
  /-- The clock before the poll. -/
  now : Nat
  poll : Except IoErrorKind (List PollEvent)
  /-- The clock after the poll. -/
  wake : Nat
  /-- The answers of `waitpid`; no more children when they run out. -/
  waits : List WaitResult

namespace Loop

variable {Ev : Type}

/-- A subtraction of counters, which panics below zero. -/
def checkedSub (a b : Nat) : Except Panic Nat :=
  if b ≤ a then .ok (a - b) else .error .underflow

/-! ## Timeouts -/

/-- `timeout_min`: drop dead timeouts from the top of the heap and compute how long the poll may
wait. -/
def timeoutMin (l : Loop Ev) (now : Nat) : Option Nat × Loop Ev :=
  let dead (t : TimeoutHolder) : Bool := !l.eventAlive t.recipient
  let timeouts := (PriorityHeap.popWhile TimeoutHolder.key dead l.timeouts).2
  let wait :=
    if l.wantIdle.toList ≠ [] then some 0
    else (PriorityHeap.peek TimeoutHolder.key timeouts).map fun t =>
      if t.when < now then 0 else t.when - now
  (wait, { l with timeouts := timeouts })

/-- The counts `still_dead` and `still_alive`, reconstructed from the statistics. -/
def timerStats (l : Loop Ev) : Except Panic (Nat × Nat) := do
  let handled ← checkedSub l.timeoutsInserted l.timeouts.length
  let handledDead ← checkedSub handled l.timeoutsFired
  let stillDead ← checkedSub l.timeoutsDead handledDead
  let stillAlive ← checkedSub l.timeouts.length stillDead
  return (stillDead, stillAlive)

/-- `timers_cleanup`: reset the statistics, and rebuild the heap if too much of it is dead. -/
def timersCleanup (l : Loop Ev) : Except Panic (Loop Ev) := do
  let (stillDead, stillAlive) ← l.timerStats
  let reset := { l with
    timeoutsDead := stillDead
    timeoutsFired := 0
    timeoutsInserted := l.timeouts.length }
  if 5 < stillDead ∧ stillAlive * 3 < stillDead then
    let pruned := l.timeouts.filter fun t => l.eventAlive t.recipient
    return { reset with
      timeouts := pruned
      timeoutsDead := 0
      timeoutsInserted := pruned.length }
  else return reset

def timeoutTask (t : TimeoutHolder) : Task := ⟨t.recipient, .timeout t.id⟩

def tasksGatherTimers (l : Loop Ev) : Loop Ev :=
  let due (t : TimeoutHolder) : Bool := t.when ≤ l.now
  let popped := PriorityHeap.popWhile TimeoutHolder.key due l.timeouts
  { l with
    timeouts := popped.2
    scheduled := l.scheduled ++ popped.1.map timeoutTask }

/-! ## Children and signals -/

/-- Schedule the exit of a child for the event that tracks it, and forget the child. -/
def childPush (l : Loop Ev) (pid : Pid) (exit : ChildExit) : Except Panic (Loop Ev) :=
  match l.children.lookup pid with
  | none => .ok l
  | some handle => do
      let holder ← (l.events.index handle.id).mapError .events
      if pid ∉ holder.children then .error .childUnlinked
      else do
        let events ← (l.events.modify handle.id fun h =>
          { h with children := h.children.erase pid }).mapError .events
        return { l with children := l.children.erase pid, events := events }.schedule handle
          (.child pid exit)

def childrenGather : List WaitResult → Loop Ev → Except Panic (Except Error Unit × Loop Ev)
  | [], l => .ok (.ok (), l)
  | answer :: answers, l =>
      match answer with
      | .error (.sys .EAGAIN) => .ok (.ok (), l)
      | .ok .stillAlive => .ok (.ok (), l)
      | .error (.sys .ECHILD) => .ok (.ok (), l)
      | .error err => .ok (.error (.nix err), l)
      | .ok (.exited pid code) => do
          let l ← l.childPush pid (.exited code)
          childrenGather answers l
      | .ok (.signaled pid signal _) => do
          let l ← l.childPush pid (.signaled signal)
          childrenGather answers l
      | .ok (.realTime _ _) => .error .waitpid
      | .ok .other => childrenGather answers l

def clearFlag (l : Loop Ev) (signum : Nat) : Loop Ev :=
  { l with signalFlags := Function.update l.signalFlags signum false }

def scheduleSignal (l : Loop Ev) (signal : Signal) : Loop Ev :=
  { l with scheduled := l.scheduled ++
    (l.signalRecipients signal.num).toList.map fun handle => ⟨handle, .signal signal⟩ }

/-- The round of the signal scan for one signal number. -/
def scanSignal (waits : List WaitResult) (l : Loop Ev) (signum : Nat) :
    Except Panic (Except Error Unit × Loop Ev) :=
  if l.signalFlags signum then
    let l := l.clearFlag signum
    match Signal.fromCInt signum with
    | none => .ok (.error (.nix (.sys .EINVAL)), l)
    | some signal => do
        let (reaped, l) ←
          if signal = .SIGCHLD then childrenGather waits l else .ok (.ok (), l)
        return match reaped with
          | .error err => (.error err, l)
          | .ok () => (.ok (), l.scheduleSignal signal)
  else .ok (.ok (), l)

/-- Go through the signals in order, up to the first error. -/
def scanSignals (waits : List WaitResult) : List Nat → Loop Ev →
    Except Panic (Except Error Unit × Loop Ev)
  | [], l => .ok (.ok (), l)
  | signum :: rest, l => do
      let (scanned, l) ← l.scanSignal waits signum
      match scanned with
      | .error err => return (.error err, l)
      | .ok () => scanSignals waits rest l

/-! ## Events of the poll -/

/-- Take one message off the channel; the loop drops it if the recipient does not expect it.
Results of background jobs are not checked. -/
def gatherMessage (l : Loop Ev) (m : RemoteMessage) : Except Panic (Loop Ev) := do
  let passed ← match m.mode with
    | .background _ => .ok (.ok ())
    | _ => l.msgTypeCheck m.recipient m.realType
  return match passed with
    | .ok () => l.schedule m.recipient (.message ⟨m.data, m.realType, m.mode⟩)
    | .error _ => l

def gatherMessages : List RemoteMessage → Loop Ev → Except Panic (Loop Ev)
  | [], l => .ok l
  | m :: rest, l => do
      let l ← { l with receiver := rest }.gatherMessage m
      gatherMessages rest l

def gatherEvent (waits : List WaitResult) (l : Loop Ev) (ev : PollEvent) :
    Except Panic (Except Error Unit × Loop Ev) :=
  if hchannel : ev.token = CHANNEL_TOK then do
    let l ← gatherMessages l.receiver l
    return (.ok (), l)
  else if hsignal : ev.token = SIGNAL_TOK then
    -- The wake-up is taken before the flags are cleared, so that no signal goes unnoticed.
    scanSignals waits (List.range SIG_COUNT) { l with signalWakeup := false }
  else do
    let id : IoId := ⟨ev.token, shift_le_token hchannel hsignal⟩
    let recipient ← (l.ios.index id.idx).mapError .ios
    return (.ok (), l.schedule recipient (.io id ev.kind ev.source))

def tasksGatherIo (waits : List WaitResult) : List PollEvent → Loop Ev →
    Except Panic (Except Error Unit × Loop Ev)
  | [], l => .ok (.ok (), l)
  | ev :: rest, l => do
      let (gathered, l) ← l.gatherEvent waits ev
      match gathered with
      | .error err => return (.error err, l)
      | .ok () => tasksGatherIo waits rest l

/-! ## The whole gather -/

/-- Release the ids of the removed IOs. -/
def releaseIds : List Nat → Recycler Handle → Except Panic (Recycler Handle)
  | [], ios => .ok ios
  | id :: rest, ios => do
      let (_, ios) ← (ios.release id).mapError .ios
      releaseIds rest ios

def drainReleased (l : Loop Ev) : Except Panic (Loop Ev) := do
  let ios ← releaseIds l.iosReleased.toList l.ios
  return { l with ios := ios, iosReleased := ∅ }

/-- If nothing was scheduled, take the event that waits longest for being idle. -/
def gatherIdle (l : Loop Ev) : Loop Ev :=
  if l.scheduled = [] then
    match l.wantIdle.popFront with
    | some (handle, rest) => { l with wantIdle := rest }.schedule handle .idle
    | none => l
  else l

/-- Where the part of a gather around the poll ends. -/
inductive Polled (Ev : Type)
  /-- The gather is over: interrupted, or failed. -/
  | ended (result : Except Error Unit) (l : Loop Ev)
  /-- The tasks of the poll are in the queue, the timers come next. -/
  | woken (l : Loop Ev)

/-- `tasks_gather` up to the timers. -/
def tasksPoll (env : GatherEnv) (l : Loop Ev) : Except Panic (Polled Ev) :=
  if l.scheduled ≠ [] then .error .tasksScheduled
  else do
    let l ← l.drainReleased
    let empty ← l.events.isEmpty.mapError .events
    if empty then return .ended (.error .empty) l
    else
      let l := (l.timeoutMin env.now).2
      match env.poll with
      | .error .interrupted => return .ended (.ok ()) l
      | .error err => return .ended (.error (.io err)) l
      | .ok events => do
          let (gathered, l) ← tasksGatherIo env.waits events { l with now := env.wake }
          match gathered with
          | .error err => return .ended (.error err) l
          | .ok () => return .woken l

def tasksGather (env : GatherEnv) (l : Loop Ev) : Except Panic (Except Error Unit × Loop Ev) := do
  match ← l.tasksPoll env with
  | .ended result l => return (result, l)
  | .woken l => do
      let l ← l.timersCleanup
      return (.ok (), l.tasksGatherTimers.gatherIdle)

end Loop

end Eveboros
