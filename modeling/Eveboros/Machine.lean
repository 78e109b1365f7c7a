import Eveboros.Lib.Transition
import Eveboros.Loop.Gather
import Eveboros.Loop.Scope

/-!
# The loop with its callbacks

The loop is re-entrant: callbacks run on top of the operation that called them and may start any
operation themselves.  The machine makes the call stack explicit.  User code is not modelled as a
program: whenever it has control, the environment names the operation it calls or the response it
returns, so a statement about all sequences of actions is one about all callbacks.
-/

namespace Eveboros

/-! ## Operations -/

inductive IfaceOp (Ev : Type)
  | insertExact (event : Ev) (growth : Growth)
  | runOne
  | runUntilComplete (handle : Handle)
  | run
  | runUntilEmpty
  | stop
  | eventAlive (handle : Handle)
  | eventCount
  | now
  | sendImpl (handle : Handle) (data : AnyBox) (tp : TypeId)
  | postImpl (handle : Handle) (data : AnyBox) (tp : TypeId)
  | channel (handle : Handle)

/-- The operations of `ScopeObjSafe`, for callbacks only.  `outcome` is mio's answer, and `left` is
what a callback puts in the place of the object it was lent, if it does. -/
inductive ScopeOp
  | handle
  | timeoutAt (when : Nat)
  | timeoutAfter (after : Nat)
  | signal (signal : Signal)
  | idle
  | expectMessage (tp : TypeId)
  | ioRegisterAny (growth : Growth) (outcome : Option IoErrorKind)
  | ioMut (id : IoId) (left : Option Nat)
  | ioUpdate (id : IoId) (outcome : Option IoErrorKind)
  | ioRemove (id : IoId) (outcome : Option IoErrorKind)
  | backgroundSubmit
  | child (pid : Pid)

inductive OwnerOp
  | poolThreadCountSet (cnt : Nat)
  | signalEnable (signal : Signal)

inductive Op (Ev : Type)
  | iface (op : IfaceOp Ev)
  | scope (op : ScopeOp)
  | owner (op : OwnerOp)

inductive Value
  | unit
  | bool (b : Bool)
  | nat (n : Nat)
  | handle (handle : Handle)
  | channel (handle : Handle)
  | timeoutId (id : TimeoutId)
  | ioId (id : IoId)
  | backgroundId (id : BackgroundId)
  deriving DecidableEq, Repr

abbrev Answer := Except Error Value

/-! ## Configurations -/

inductive Frame
  /-- User code runs on an event, which it holds by a raw pointer. -/
  | callback (handle : Handle) (cb : Callback) (data : StolenData)
  /-- `insert_exact` waits for `init`. -/
  | insertExact (handle : Handle)
  /-- `post_impl` waits for `message`. -/
  | postImpl
  | runOne
  | run
  | runUntilEmpty
  | runUntilComplete (handle : Handle)
  deriving DecidableEq, Repr

/-- The event a frame runs a callback of. -/
def Frame.callee : Frame → Option Handle
  | .callback handle _ _ => some handle
  | _ => none

inductive Ctl
  /-- With the user: the callback on top of the stack, or the owner of the loop. -/
  | user
  /-- At the head of the loop of `run_one`, called by the operation on top of the stack. -/
  | runOne
  /-- Before an `event_call`. -/
  | call (handle : Handle) (cb : Callback)
  /-- In `event_call`, with the response of the callback. -/
  | settle (handle : Handle) (resp : Response)
  /-- Back in the operation on top of the stack, with the result of what it called. -/
  | ret (result : Except Error Unit)

/-- What happened, as far as the statements about histories need it. -/
inductive Obs (Ev : Type)
  | stored (handle : Handle) (event : Ev)
  | killed (handle : Handle)
  /-- A callback starts, on an event of this value. -/
  | called (handle : Handle) (cb : Callback) (event : Ev)
  /-- `event_call` returned an error instead of calling. -/
  | refused (handle : Handle) (cb : Callback) (err : Error)
  /-- A callback returned and left the event with this value. -/
  | finished (handle : Handle) (event : Ev) (resp : Response)
  /-- `run_one` took a task of a live event off the queue. -/
  | dispatched (task : Task)
  /-- `run_one` skipped a task of a dead event. -/
  | dropped (task : Task)
  /-- An operation answered its caller at once. -/
  | answered (caller : Option Handle) (op : Op Ev) (answer : Answer)
  /-- An operation that ran callbacks returned to its caller. -/
  | returned (frame : Frame) (answer : Answer)

structure Config (Ev : Type) where
  loop : Loop Ev
  stack : List Frame
  ctl : Ctl
  /-- Ghost: the history, newest first. -/
  log : List (Obs Ev)
  /-- Ghost: the number of IO objects registered so far. -/
  objects : Nat
  /-- The object in each box.  A registration moves the object of its own number in. -/
  boxes : Nat → Nat

inductive Action (Ev : Type)
  /-- User code calls an operation. -/
  | call (op : Op Ev)
  /-- The callback returns and leaves its event with this value. -/
  | finish (event : Ev) (resp : Response)
  /-- `event_call` acts on the response; the arguments say whether mio deregisters the IOs of a
  dying event and what the error handler returns. -/
  | settle (deregisters : Bool) (handler : Except Error Unit)
  | gather (env : GatherEnv)
  /-- The loop goes on by itself. -/
  | tick
  /-- The dispatcher notifies the loop of a signal. -/
  | dispatch (signal : Signal)
  /-- Another thread puts a message on the channel. -/
  | remote (m : RemoteMessage)
  /-- The orders that the standard library leaves open. -/
  | reorderReleased (order : List Nat)
  | reorderTimeouts (order : List TimeoutHolder)
  | reorderRecipients (signum : Nat) (order : List Handle)

inductive Fault
  /-- The action does not apply to the configuration. -/
  | disabled
  | panic (p : Panic)
  deriving DecidableEq, Repr

namespace Config

variable {Ev : Type}

def init (now : Nat) : Config Ev where
  loop := .new now
  stack := []
  ctl := .user
  log := []
  objects := 0
  boxes := id

/-- The event in whose name user code runs; none for the owner of the loop. -/
def caller (c : Config Ev) : Option Handle :=
  match c.stack with
  | .callback handle _ _ :: _ => some handle
  | _ => none

/-- The events inside a callback, innermost first. -/
def running (c : Config Ev) : List Handle := c.stack.filterMap Frame.callee

def answer (c : Config Ev) (l : Loop Ev) (op : Op Ev) (answer : Answer) : Config Ev :=
  { c with loop := l, log := .answered c.caller op answer :: c.log }

/-- The operation on top of the stack returns to the user. -/
def giveBack (c : Config Ev) (frame : Frame) (rest : List Frame) (answer : Answer) : Config Ev :=
  { c with stack := rest, ctl := .user, log := .returned frame answer :: c.log }

/-! ## The steps -/

def callIface (c : Config Ev) (op : IfaceOp Ev) : Except Panic (Config Ev) :=
  match op with
  | .insertExact event growth => do
      let (handle, l) ← c.loop.storeEvent event growth
      return { c with
        loop := l
        stack := .insertExact handle :: c.stack
        ctl := .call handle .init
        log := .stored handle event :: c.log }
  | .runOne => .ok { c with stack := .runOne :: c.stack, ctl := .runOne }
  | .runUntilComplete handle =>
      if c.loop.eventAlive handle = false then .ok (c.answer c.loop (.iface op) (.ok .unit))
      else do
        -- A deadlock is looked for in the first round only.
        let holder ← (c.loop.events.index handle.id).mapError .events
        if holder.event.stolen then return c.answer c.loop (.iface op) (.error .deadLock)
        else return { c with stack := .runUntilComplete handle :: c.stack, ctl := .runOne }
  | .run =>
      .ok { c with
        loop := { c.loop with active := true }
        stack := .run :: c.stack
        ctl := .runOne }
  | .runUntilEmpty =>
      .ok { c with
        loop := { c.loop with active := true }
        stack := .runUntilEmpty :: c.stack
        ctl := .runOne }
  | .stop => .ok (c.answer { c.loop with active := false } (.iface op) (.ok .unit))
  | .eventAlive handle =>
      .ok (c.answer c.loop (.iface op) (.ok (.bool (c.loop.eventAlive handle))))
  | .eventCount => do
      let count ← c.loop.events.len.mapError .events
      return c.answer c.loop (.iface op) (.ok (.nat count))
  | .now => .ok (c.answer c.loop (.iface op) (.ok (.nat c.loop.now)))
  | .sendImpl handle data tp => do
      match ← c.loop.sendImplSender c.caller handle data tp with
      | .error err => return c.answer c.loop (.iface op) (.error err)
      | .ok l => return c.answer l (.iface op) (.ok .unit)
  | .postImpl handle data tp => do
      match ← c.loop.msgTypeCheck handle tp with
      | .error err => return c.answer c.loop (.iface op) (.error err)
      | .ok () =>
          return { c with
            stack := .postImpl :: c.stack
            ctl := .call handle (.message ⟨data, tp, .post c.caller⟩) }
  | .channel handle => .ok (c.answer c.loop (.iface op) (.ok (.channel handle)))

def callScope (c : Config Ev) (handle : Handle) (op : ScopeOp) : Except Panic (Config Ev) :=
  match op with
  | .handle => .ok (c.answer c.loop (.scope op) (.ok (.handle handle)))
  | .timeoutAt when => do
      let (id, l) ← c.loop.timeoutAt handle when
      return c.answer l (.scope op) (.ok (.timeoutId id))
  | .timeoutAfter after => do
      let (id, l) ← c.loop.timeoutAfter handle after
      return c.answer l (.scope op) (.ok (.timeoutId id))
  | .signal signal => do
      let l ← c.loop.signal handle signal
      return c.answer l (.scope op) (.ok .unit)
  | .idle => .ok (c.answer (c.loop.idle handle) (.scope op) (.ok .unit))
  | .expectMessage tp => do
      let l ← c.loop.expectMessage handle tp
      return c.answer l (.scope op) (.ok .unit)
  | .ioRegisterAny growth outcome => do
      let (id, l) ← c.loop.ioRegisterAny handle c.objects growth outcome
      return { c.answer l (.scope op) (id.map .ioId) with objects := c.objects + 1 }
  | .ioMut id left => do
      match ← c.loop.ioMut handle id with
      | .error err => return c.answer c.loop (.scope op) (.error err)
      | .ok io => return { c.answer c.loop (.scope op) (.ok .unit) with
          boxes := left.elim c.boxes (Function.update c.boxes io.io) }
  | .ioUpdate id outcome => do
      let updated ← c.loop.ioUpdate handle id outcome
      return c.answer c.loop (.scope op) (updated.map fun _ => .unit)
  | .ioRemove id outcome => do
      let (removed, l) ← c.loop.ioRemove handle id outcome
      return c.answer l (.scope op) (removed.map fun _ => .unit)
  | .backgroundSubmit =>
      let (id, l) := c.loop.backgroundSubmit handle
      .ok (c.answer l (.scope op) (.ok (.backgroundId id)))
  | .child pid => do
      let l ← c.loop.child handle pid
      return c.answer l (.scope op) (.ok .unit)

def callOwner (c : Config Ev) (op : OwnerOp) : Except Panic (Config Ev) :=
  match op with
  | .poolThreadCountSet cnt => do
      let l ← c.loop.poolThreadCountSet cnt
      return c.answer l (.owner op) (.ok .unit)
  | .signalEnable signal => do
      let l ← c.loop.signalEnable signal
      return c.answer l (.owner op) (.ok .unit)

def enter (c : Config Ev) (handle : Handle) (cb : Callback) : Except Panic (Config Ev) := do
  match ← c.loop.eventCallEnter handle with
  | .error err =>
      return { c with ctl := .ret (.error err), log := .refused handle cb err :: c.log }
  | .ok (data, event, l) =>
      return { c with
        loop := l
        stack := .callback handle cb data :: c.stack
        ctl := .user
        log := .called handle cb event :: c.log }

/-- `event_call` after the callback: keep the event or kill it, and ask the error handler. -/
def settle (c : Config Ev) (handle : Handle) (resp : Response) (deregisters : Bool)
    (handler : Except Error Unit) : Except Panic (Config Ev) :=
  match resp with
  | .ok true => .ok { c with ctl := .ret (.ok ()) }
  | .ok false => do
      let (_, l) ← c.loop.eventKill handle.id deregisters
      return { c with loop := l, ctl := .ret (.ok ()), log := .killed handle :: c.log }
  | .error _ => do
      let (_, l) ← c.loop.eventKill handle.id deregisters
      return { c with loop := l, ctl := .ret handler, log := .killed handle :: c.log }

/-- The `match` of `run_one` on a task for a live event: the bookkeeping, and the callback to
invoke unless the IO got lost in the meantime. -/
def taskCallback (l : Loop Ev) (task : Task) : Except Panic (Loop Ev × Option Callback) :=
  match task.param with
  | .io id ready _ => do
      let holder ← (l.events.index task.recipient.id).mapError .events
      return (l, if id.idx ∈ holder.ios then some (.io id ready) else none)
  | .timeout id => do
      let holder ← (l.events.index task.recipient.id).mapError .events
      let timeouts ← Loop.checkedSub holder.timeouts 1
      let events ← (l.events.modify task.recipient.id fun h =>
        { h with timeouts := timeouts }).mapError .events
      return ({ l with timeoutsFired := l.timeoutsFired + 1, events := events },
        some (.timeout id))
  | .signal signal => .ok (l, some (.signal signal))
  | .idle => .ok (l, some .idle)
  | .message message => .ok (l, some (.message message))
  | .child pid exit => .ok (l, some (.child pid exit))

/-- One round of `run_one` on the task in front of the queue. -/
def popTask (c : Config Ev) (task : Task) (rest : List Task) : Except Panic (Config Ev) :=
  let l := { c.loop with scheduled := rest }
  if l.eventAlive task.recipient then do
    let (l, cb) ← taskCallback l task
    return { c with
      loop := l
      ctl := match cb with
        | some cb => .call task.recipient cb
        | none => .ret (.ok ())
      log := .dispatched task :: c.log }
  else .ok { c with loop := l, log := .dropped task :: c.log }

/-- The operation on top of the stack goes on with the result of what it called. -/
def resume (c : Config Ev) (result : Except Error Unit) : Except Fault (Config Ev) :=
  match c.stack with
  | frame :: rest =>
      match frame with
      | .callback .. => .error .disabled
      | .insertExact handle => .ok (c.giveBack frame rest (result.map fun _ => .handle handle))
      | .postImpl => .ok (c.giveBack frame rest (result.map fun _ => .unit))
      | .runOne => .ok (c.giveBack frame rest (result.map fun _ => .unit))
      | .run =>
          match result with
          | .error err => .ok (c.giveBack frame rest (.error err))
          | .ok () =>
              if c.loop.active then .ok { c with ctl := .runOne }
              else .ok (c.giveBack frame rest (.ok .unit))
      | .runUntilEmpty =>
          match result with
          | .error .empty => .ok (c.giveBack frame rest (.ok .unit))
          | .error err => .ok (c.giveBack frame rest (.error err))
          | .ok () =>
              if c.loop.active then .ok { c with ctl := .runOne }
              else .ok (c.giveBack frame rest (.ok .unit))
      | .runUntilComplete handle =>
          match result with
          | .error err => .ok (c.giveBack frame rest (.error err))
          | .ok () =>
              if c.loop.eventAlive handle then .ok { c with ctl := .runOne }
              else .ok (c.giveBack frame rest (.ok .unit))
  | [] => .error .disabled

/-- Messages that other threads can send: through a channel, or by a submitted job. -/
def mayArrive (l : Loop Ev) (m : RemoteMessage) : Bool :=
  match m.mode with
  | .remote => true
  | .background id =>
      match l.threadpool with
      | some pool => pool.jobs.contains (id, m.recipient)
      | none => false
  | _ => false

/-- What the loop does by itself. -/
def tick (c : Config Ev) : Except Fault (Config Ev) :=
  match c.ctl with
  | .runOne =>
      match c.loop.scheduled with
      | task :: rest => (c.popTask task rest).mapError .panic
      | [] => .error .disabled
  | .call handle cb => (c.enter handle cb).mapError .panic
  | .ret result => c.resume result
  | _ => .error .disabled

def callOp (c : Config Ev) (op : Op Ev) : Except Fault (Config Ev) :=
  match op, c.caller with
  | .iface op, _ => (c.callIface op).mapError .panic
  | .scope op, some handle => (c.callScope handle op).mapError .panic
  | .owner op, none => (c.callOwner op).mapError .panic
  | _, _ => .error .disabled

def step (c : Config Ev) (a : Action Ev) : Except Fault (Config Ev) :=
  match a with
  | .call op =>
      match c.ctl with
      | .user => c.callOp op
      | _ => .error .disabled
  | .finish event resp =>
      match c.ctl, c.stack with
      | .user, .callback handle _ data :: rest => do
          let l ← (c.loop.eventCallLeave handle data event).mapError .panic
          return { c with
            loop := l
            stack := rest
            ctl := .settle handle resp
            log := .finished handle event resp :: c.log }
      | _, _ => .error .disabled
  | .settle deregisters handler =>
      match c.ctl with
      | .settle handle resp => (c.settle handle resp deregisters handler).mapError .panic
      | _ => .error .disabled
  | .gather env =>
      match c.ctl, c.loop.scheduled with
      | .runOne, [] => do
          let (result, l) ← (c.loop.tasksGather env).mapError .panic
          match result with
          | .ok () => return { c with loop := l }
          | .error err => return { c with loop := l, ctl := .ret (.error err) }
      | _, _ => .error .disabled
  | .tick => c.tick
  | .dispatch signal =>
      if c.loop.signalsEnabled signal.num then
        .ok { c with loop := c.loop.dispatchSignal signal.num }
      else .error .disabled
  | .remote m =>
      if mayArrive c.loop m then
        .ok { c with loop := { c.loop with receiver := c.loop.receiver ++ [m] } }
      else .error .disabled
  | .reorderReleased order =>
      if h : order.Perm c.loop.iosReleased.toList then
        .ok { c with loop := { c.loop with iosReleased := c.loop.iosReleased.reorder order h } }
      else .error .disabled
  | .reorderTimeouts order =>
      if order.Perm c.loop.timeouts then
        .ok { c with loop := { c.loop with timeouts := order } }
      else .error .disabled
  | .reorderRecipients signum order =>
      if h : order.Perm (c.loop.signalRecipients signum).toList then
        .ok { c with
          loop := c.loop.setRecipients signum ((c.loop.signalRecipients signum).reorder order h) }
      else .error .disabled

/-- The configurations that some run of a fresh loop reaches. -/
def Reachable (c : Config Ev) : Prop :=
  ∃ now, TransitionSystem.Reach step (fun _ _ => True) (init now) c

end Config

end Eveboros
