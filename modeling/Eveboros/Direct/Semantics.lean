import Mathlib.Logic.Relation
import Eveboros.Machine

/-!
# The operations in direct style

The machine cuts every operation into steps and keeps a stack.  Here the same operations are
written as the source nests them: `run` calls `run_one` in a loop, `run_one` calls `event_call`,
which calls user code, which calls operations again.  The rule for a function lists what its body
does in order; the environment may act between any two things it does.
-/

namespace Eveboros

variable {Ev : Type}

/-- What an action of the environment alone makes of the loop. -/
inductive Outside (l : Loop Ev) : Action Ev → Loop Ev → Prop
  | notified (signal : Signal) (hon : l.signalsEnabled signal.num = true) :
      Outside l (.dispatch signal) (l.dispatchSignal signal.num)
  | arrived (m : RemoteMessage) (hmay : Config.mayArrive l m = true) :
      Outside l (.remote m) { l with receiver := l.receiver ++ [m] }
  | reorderedReleased (order : List Nat) (h : order.Perm l.iosReleased.toList) :
      Outside l (.reorderReleased order) { l with iosReleased := l.iosReleased.reorder order h }
  | reorderedTimeouts (order : List TimeoutHolder) (h : order.Perm l.timeouts) :
      Outside l (.reorderTimeouts order) { l with timeouts := order }
  | reorderedRecipients (signum : Nat) (order : List Handle)
      (h : order.Perm (l.signalRecipients signum).toList) :
      Outside l (.reorderRecipients signum order)
        (l.setRecipients signum ((l.signalRecipients signum).reorder order h))

/-- The condition of the `while` loop in the operation of a frame. -/
def Frame.goesOn (l : Loop Ev) : Frame → Bool
  | .run => l.active
  | .runUntilEmpty => l.active
  | .runUntilComplete handle => l.eventAlive handle
  | _ => false

namespace Direct

/-- What the functions work on: a configuration without its stack and control. -/
structure State (Ev : Type) where
  loop : Loop Ev
  log : List (Obs Ev)
  objects : Nat
  boxes : Nat → Nat

namespace State

def config (s : State Ev) (stack : List Frame) (ctl : Ctl) : Config Ev :=
  ⟨s.loop, stack, ctl, s.log, s.objects, s.boxes⟩

def returned (s : State Ev) (frame : Frame) (answer : Answer) : State Ev :=
  { s with log := .returned frame answer :: s.log }

def activated (s : State Ev) : State Ev := { s with loop := { s.loop with active := true } }

end State

/-- One action of the environment. -/
def Beside (s s' : State Ev) : Prop :=
  ∃ a l, Outside s.loop a l ∧ s' = { s with loop := l }

/-- The `while` loop of `run_one`: gather while nothing is scheduled, skip what is addressed to
dead events. -/
inductive Seek (s : State Ev) : State Ev → Prop
  | start : Seek s s
  | beside {s₁ s₂ : State Ev} (h : Seek s s₁) (hbeside : Beside s₁ s₂) : Seek s s₂
  | gathered {s₁ : State Ev} {env : GatherEnv} {l : Loop Ev} (h : Seek s s₁)
      (hsched : s₁.loop.scheduled = []) (hgather : s₁.loop.tasksGather env = .ok (.ok (), l)) :
      Seek s { s₁ with loop := l }
  | dropped {s₁ : State Ev} {task : Task} {rest : List Task} (h : Seek s s₁)
      (hsched : s₁.loop.scheduled = task :: rest)
      (hdead : ({ s₁.loop with scheduled := rest } : Loop Ev).eventAlive task.recipient = false) :
      Seek s { s₁ with
        loop := { s₁.loop with scheduled := rest }, log := .dropped task :: s₁.log }

/-- A function with its arguments and its result. -/
inductive Activity (Ev : Type)
  /-- User code in the name of an event, or of the owner of the loop. -/
  | code (caller : Option Handle)
  | operation (caller : Option Handle) (op : Op Ev) (answer : Answer)
  | eventCall (handle : Handle) (cb : Callback) (result : Except Error Unit)
  /-- The part of `event_call` up to the response. -/
  | callback (handle : Handle) (cb : Callback) (resp : Response)
  | runOne (result : Except Error Unit)
  /-- The `while` loop of an operation, so far. -/
  | turns (frame : Frame)
  /-- The `while` loop of an operation, to its end. -/
  | rounds (frame : Frame) (result : Except Error Unit)

/-- Only between operations and in the loops of the operations there is nothing to interrupt. -/
def Activity.Interruptible : Activity Ev → Prop
  | .code _ => True
  | .eventCall _ _ _ => True
  | .callback _ _ _ => True
  | .runOne _ => True
  | _ => False

def emptyIsFine : Except Error Unit → Answer
  | .error .empty => .ok .unit
  | result => result.map fun _ => .unit

/-- Called in the first state, the function returns in the second one. -/
inductive Does : Activity Ev → State Ev → State Ev → Prop
  | beside {act : Activity Ev} {s s₁ s₂ : State Ev} (hact : act.Interruptible)
      (h : Does act s s₁) (hbeside : Beside s₁ s₂) : Does act s s₂
  /- User code -/
  | start (caller : Option Handle) (s : State Ev) : Does (.code caller) s s
  | operation {caller : Option Handle} {op : Op Ev} {answer : Answer} {s s₁ s₂ : State Ev}
      (h : Does (.code caller) s s₁) (hop : Does (.operation caller op answer) s₁ s₂) :
      Does (.code caller) s s₂
  /- Operations -/
  | immediate {caller : Option Handle} {op : Op Ev} {answer : Answer} {s s' : State Ev}
      (hlog : s'.log = .answered caller op answer :: s.log)
      (h : ∀ stack, (s.config stack .user).caller = caller →
        (s.config stack .user).callOp op = .ok (s'.config stack .user)) :
      Does (.operation caller op answer) s s'
  | insertExact {caller : Option Handle} {event : Ev} {growth : Growth} {handle : Handle}
      {l : Loop Ev} {result : Except Error Unit} {s s₁ : State Ev}
      (hstore : s.loop.storeEvent event growth = .ok (handle, l))
      (hinit : Does (.eventCall handle .init result)
        { s with loop := l, log := .stored handle event :: s.log } s₁) :
      Does (.operation caller (.iface (.insertExact event growth)) (result.map fun _ =>
        .handle handle)) s (s₁.returned (.insertExact handle) (result.map fun _ => .handle handle))
  | postImpl {caller : Option Handle} {handle : Handle} {data : AnyBox} {tp : TypeId}
      {result : Except Error Unit} {s s₁ : State Ev}
      (hcheck : s.loop.msgTypeCheck handle tp = .ok (.ok ()))
      (hcall : Does (.eventCall handle (.message ⟨data, tp, .post caller⟩) result) s s₁) :
      Does (.operation caller (.iface (.postImpl handle data tp)) (result.map fun _ => .unit)) s
        (s₁.returned .postImpl (result.map fun _ => .unit))
  | runOne {caller : Option Handle} {result : Except Error Unit} {s s₁ : State Ev}
      (hrun : Does (.runOne result) s s₁) :
      Does (.operation caller (.iface .runOne) (result.map fun _ => .unit)) s
        (s₁.returned .runOne (result.map fun _ => .unit))
  | run {caller : Option Handle} {result : Except Error Unit} {s s₁ : State Ev}
      (hrounds : Does (.rounds .run result) s.activated s₁) :
      Does (.operation caller (.iface .run) (result.map fun _ => .unit)) s
        (s₁.returned .run (result.map fun _ => .unit))
  | runUntilEmpty {caller : Option Handle} {result : Except Error Unit} {s s₁ : State Ev}
      (hrounds : Does (.rounds .runUntilEmpty result) s.activated s₁) :
      Does (.operation caller (.iface .runUntilEmpty) (emptyIsFine result)) s
        (s₁.returned .runUntilEmpty (emptyIsFine result))
  | runUntilComplete {caller : Option Handle} {handle : Handle} {holder : EvHolder Ev}
      {result : Except Error Unit} {s s₁ : State Ev} (halive : s.loop.eventAlive handle = true)
      (hindex : s.loop.events.index handle.id = .ok holder) (hfree : holder.event.stolen = false)
      (hrounds : Does (.rounds (.runUntilComplete handle) result) s s₁) :
      Does (.operation caller (.iface (.runUntilComplete handle)) (result.map fun _ => .unit)) s
        (s₁.returned (.runUntilComplete handle) (result.map fun _ => .unit))
  /- `event_call` -/
  | refused {handle : Handle} {cb : Callback} {err : Error} {s s₁ : State Ev}
      (hbeside : Relation.ReflTransGen Beside s s₁)
      (henter : s₁.loop.eventCallEnter handle = .ok (.error err)) :
      Does (.eventCall handle cb (.error err)) s
        { s₁ with log := .refused handle cb err :: s₁.log }
  | called {handle : Handle} {cb : Callback} {data : StolenData} {event event' : Ev}
      {l l' : Loop Ev} {resp : Response} {s s₁ s₂ : State Ev}
      (hbeside : Relation.ReflTransGen Beside s s₁)
      (henter : s₁.loop.eventCallEnter handle = .ok (.ok (data, event, l)))
      (hcode : Does (.code (some handle))
        { s₁ with loop := l, log := .called handle cb event :: s₁.log } s₂)
      (hleave : s₂.loop.eventCallLeave handle data event' = .ok l') :
      Does (.callback handle cb resp) s
        { s₂ with loop := l', log := .finished handle event' resp :: s₂.log }
  | kept {handle : Handle} {cb : Callback} {s s₁ : State Ev}
      (h : Does (.callback handle cb (.ok true)) s s₁) : Does (.eventCall handle cb (.ok ())) s s₁
  | killed {handle : Handle} {cb : Callback} {deregisters : Bool} {event : Ev} {l : Loop Ev}
      {s s₁ : State Ev} (h : Does (.callback handle cb (.ok false)) s s₁)
      (hkill : s₁.loop.eventKill handle.id deregisters = .ok (event, l)) :
      Does (.eventCall handle cb (.ok ())) s
        { s₁ with loop := l, log := .killed handle :: s₁.log }
  | failed {handle : Handle} {cb : Callback} {err : Error} {handler : Except Error Unit}
      {deregisters : Bool} {event : Ev} {l : Loop Ev} {s s₁ : State Ev}
      (h : Does (.callback handle cb (.error err)) s s₁)
      (hkill : s₁.loop.eventKill handle.id deregisters = .ok (event, l)) :
      Does (.eventCall handle cb handler) s
        { s₁ with loop := l, log := .killed handle :: s₁.log }
  /- `run_one` -/
  | gatherFailed {err : Error} {env : GatherEnv} {l : Loop Ev} {s s₁ : State Ev} (h : Seek s s₁)
      (hsched : s₁.loop.scheduled = [])
      (hgather : s₁.loop.tasksGather env = .ok (.error err, l)) :
      Does (.runOne (.error err)) s { s₁ with loop := l }
  | lost {task : Task} {rest : List Task} {l : Loop Ev} {s s₁ : State Ev} (h : Seek s s₁)
      (hsched : s₁.loop.scheduled = task :: rest)
      (halive : ({ s₁.loop with scheduled := rest } : Loop Ev).eventAlive task.recipient = true)
      (htask : Config.taskCallback { s₁.loop with scheduled := rest } task = .ok (l, none)) :
      Does (.runOne (.ok ())) s { s₁ with loop := l, log := .dispatched task :: s₁.log }
  | fired {task : Task} {rest : List Task} {cb : Callback} {l : Loop Ev}
      {result : Except Error Unit} {s s₁ s₂ : State Ev} (h : Seek s s₁)
      (hsched : s₁.loop.scheduled = task :: rest)
      (halive : ({ s₁.loop with scheduled := rest } : Loop Ev).eventAlive task.recipient = true)
      (htask : Config.taskCallback { s₁.loop with scheduled := rest } task = .ok (l, some cb))
      (hcall : Does (.eventCall task.recipient cb result)
        { s₁ with loop := l, log := .dispatched task :: s₁.log } s₂) :
      Does (.runOne result) s s₂
  /- `while` loops -/
  | firstTurn (frame : Frame) (s : State Ev) : Does (.turns frame) s s
  | turn {frame : Frame} {s s₁ s₂ : State Ev} (h : Does (.turns frame) s s₁)
      (hrun : Does (.runOne (.ok ())) s₁ s₂) (hgoes : frame.goesOn s₂.loop = true) :
      Does (.turns frame) s s₂
  | roundsDone {frame : Frame} {s s₁ s₂ : State Ev} (h : Does (.turns frame) s s₁)
      (hrun : Does (.runOne (.ok ())) s₁ s₂) (hends : frame.goesOn s₂.loop = false) :
      Does (.rounds frame (.ok ())) s s₂
  | roundsFailed {frame : Frame} {err : Error} {s s₁ s₂ : State Ev} (h : Does (.turns frame) s s₁)
      (hrun : Does (.runOne (.error err)) s₁ s₂) : Does (.rounds frame (.error err)) s s₂

end Direct

end Eveboros
