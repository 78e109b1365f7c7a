import Mathlib.Logic.Relation
import Eveboros.Machine

/-!
# Elementary changes

`Edit a c c'` lists what a step by the action `a` can do to a configuration, one constructor for
each elementary change, with everything the code has checked when it makes it.  A gather performs
a sequence of them, every other step a single one.  `Fail a c p` lists what can make the loop
panic.  Invariants are proved over these two relations and never unfold the code again.
-/

namespace Eveboros

open Loop

variable {Ev : Type}

/-- Operations whose success leaves the loop as it is. -/
def Op.IsQuery : Op Ev → Prop
  | .iface (.runUntilComplete _) => True
  | .iface (.eventAlive _) => True
  | .iface .eventCount => True
  | .iface .now => True
  | .iface (.channel _) => True
  | .scope .handle => True
  | .scope (.ioUpdate _ _) => True
  | _ => False

/-- Operations that may answer with an error at once and do nothing. -/
def Op.CanRefuse : Op Ev → Prop
  | .iface (.runUntilComplete _) => True
  | .iface (.sendImpl _ _ _) => True
  | .iface (.postImpl _ _ _) => True
  | .scope (.ioMut _ _) => True
  | .scope (.ioUpdate _ _) => True
  | .scope (.ioRemove _ _) => True
  | _ => False

def TaskParam.callback : TaskParam → Callback
  | .io id ready _ => .io id ready
  | .timeout id => .timeout id
  | .signal sig => .signal sig
  | .message msg => .message msg
  | .child pid exit => .child pid exit
  | .idle => .idle

def TaskParam.IsTimeout : TaskParam → Prop
  | .timeout _ => True
  | _ => False

def Loop.NoTimeouts (l : Loop Ev) : Prop := ∀ task ∈ l.scheduled, ¬task.param.IsTimeout

def ScopeOp.deadline (now : Nat) : ScopeOp → Option Nat
  | .timeoutAt when => some when
  | .timeoutAfter after => some (now + after)
  | _ => none

def Action.IsGather : Action Ev → Prop
  | .gather _ => True
  | _ => False

theorem Action.IsGather.env {a : Action Ev} (h : a.IsGather) : ∃ env, a = .gather env := by
  cases a with
  | gather env => exact ⟨env, rfl⟩
  | _ => exact h.elim

def Action.IsSettle : Action Ev → Prop
  | .settle _ _ => True
  | _ => False

namespace Config

inductive Edit (a : Action Ev) (c : Config Ev) : Config Ev → Prop
  /- Operations -/
  | refusal (op : Op Ev) (err : Error) (ha : a = .call op) (hctl : c.ctl = .user)
      (hr : op.CanRefuse) :
      Edit a c (c.answer c.loop op (.error err))
  | query (op : Op Ev) (v : Value) (ha : a = .call op) (hctl : c.ctl = .user) (hq : op.IsQuery) :
      Edit a c (c.answer c.loop op (.ok v))
  | stopped (ha : a = .call (.iface .stop)) (hctl : c.ctl = .user) :
      Edit a c (c.answer { c.loop with active := false } (.iface .stop) (.ok .unit))
  | beganRunOne (ha : a = .call (.iface .runOne)) (hctl : c.ctl = .user) :
      Edit a c { c with stack := .runOne :: c.stack, ctl := .runOne }
  | beganRun (frame : Frame)
      (ha : (a = .call (.iface .run) ∧ frame = .run) ∨
        (a = .call (.iface .runUntilEmpty) ∧ frame = .runUntilEmpty))
      (hctl : c.ctl = .user) :
      Edit a c { c with
        loop := { c.loop with active := true }, stack := frame :: c.stack, ctl := .runOne }
  | beganUntilComplete (handle : Handle) (holder : EvHolder Ev)
      (ha : a = .call (.iface (.runUntilComplete handle))) (hctl : c.ctl = .user)
      (hget : c.loop.events.get? handle.id = some holder)
      (hgen : holder.generation = handle.generation) (hfree : holder.event.stolen = false) :
      Edit a c { c with stack := .runUntilComplete handle :: c.stack, ctl := .runOne }
  | stored (event : Ev) (growth : Growth) (idx : Nat) (events : Recycler (EvHolder Ev))
      (ha : a = .call (.iface (.insertExact event growth))) (hctl : c.ctl = .user)
      (hstore : c.loop.events.Stores (.new event c.loop.generation) growth idx events) :
      Edit a c { c with
        loop := { c.loop with generation := wrappingSucc c.loop.generation, events := events }
        stack := .insertExact ⟨idx, c.loop.generation⟩ :: c.stack
        ctl := .call ⟨idx, c.loop.generation⟩ .init
        log := .stored ⟨idx, c.loop.generation⟩ event :: c.log }
  | posted (handle : Handle) (data : AnyBox) (tp : TypeId) (holder : EvHolder Ev)
      (ha : a = .call (.iface (.postImpl handle data tp))) (hctl : c.ctl = .user)
      (hget : c.loop.events.get? handle.id = some holder)
      (hgen : holder.generation = handle.generation) (hexp : tp ∈ holder.expectedMessages) :
      Edit a c { c with
        stack := .postImpl :: c.stack
        ctl := .call handle (.message ⟨data, tp, .post c.caller⟩) }
  | sent (handle : Handle) (data : AnyBox) (tp : TypeId) (holder : EvHolder Ev)
      (ha : a = .call (.iface (.sendImpl handle data tp))) (hctl : c.ctl = .user)
      (hget : c.loop.events.get? handle.id = some holder)
      (hgen : holder.generation = handle.generation) (hexp : tp ∈ holder.expectedMessages) :
      Edit a c (c.answer (c.loop.schedule handle (.message ⟨data, tp, .send c.caller⟩))
        (.iface (.sendImpl handle data tp)) (.ok .unit))
  | timer (op : ScopeOp) (handle : Handle) (when : Nat) (holder : EvHolder Ev)
      (events : Recycler (EvHolder Ev))
      (ha : a = .call (.scope op)) (hctl : c.ctl = .user) (hcaller : c.caller = some handle)
      (hop : op.deadline c.loop.now = some when)
      (hget : c.loop.events.get? handle.id = some holder)
      (hset : c.loop.events.Sets handle.id
        (some { holder with timeouts := holder.timeouts + 1 }) events) :
      Edit a c (c.answer
        { c.loop with
          timeoutGeneration := wrappingSucc c.loop.timeoutGeneration
          events := events
          timeoutsInserted := c.loop.timeoutsInserted + 1
          timeouts := ⟨⟨c.loop.timeoutGeneration⟩, handle, when⟩ :: c.loop.timeouts }
        (.scope op) (.ok (.timeoutId ⟨c.loop.timeoutGeneration⟩)))
  | signalled (signal : Signal) (handle : Handle) (ha : a = .call (.scope (.signal signal)))
      (hctl : c.ctl = .user) (hcaller : c.caller = some handle)
      (hon : c.loop.signalsEnabled signal.num = true ∨ signal.uncatchable = false) :
      Edit a c (c.answer
        { c.loop with
          signalsEnabled := Function.update c.loop.signalsEnabled signal.num true
          signalRecipients := Function.update c.loop.signalRecipients signal.num
            ((c.loop.signalRecipients signal.num).insert handle) }
        (.scope (.signal signal)) (.ok .unit))
  | idled (handle : Handle) (ha : a = .call (.scope .idle)) (hctl : c.ctl = .user)
      (hcaller : c.caller = some handle) :
      Edit a c (c.answer (c.loop.idle handle) (.scope .idle) (.ok .unit))
  | expected (tp : TypeId) (handle : Handle) (holder : EvHolder Ev)
      (events : Recycler (EvHolder Ev))
      (ha : a = .call (.scope (.expectMessage tp))) (hctl : c.ctl = .user)
      (hcaller : c.caller = some handle) (hget : c.loop.events.get? handle.id = some holder)
      (hset : c.loop.events.Sets handle.id
        (some { holder with expectedMessages := holder.expectedMessages.insert tp }) events) :
      Edit a c (c.answer { c.loop with events := events } (.scope (.expectMessage tp)) (.ok .unit))
  | ioRefused (growth : Growth) (err : IoErrorKind) (handle : Handle) (ios : Recycler Handle)
      (ha : a = .call (.scope (.ioRegisterAny growth (some err)))) (hctl : c.ctl = .user)
      (hcaller : c.caller = some handle) (hios : ∀ idx, ios.get? idx = c.loop.ios.get? idx) :
      Edit a c { c.answer { c.loop with ios := ios } (.scope (.ioRegisterAny growth (some err)))
        (.error (.io err)) with objects := c.objects + 1 }
  | ioRegistered (growth : Growth) (handle : Handle) (holder : EvHolder Ev) (idx : Nat)
      (ios : Recycler Handle) (events : Recycler (EvHolder Ev))
      (ha : a = .call (.scope (.ioRegisterAny growth none))) (hctl : c.ctl = .user)
      (hcaller : c.caller = some handle) (hget : c.loop.events.get? handle.id = some holder)
      (hstore : c.loop.ios.store handle growth = .ok (idx, ios))
      (hset : c.loop.events.Sets handle.id
        (some { holder with ios := holder.ios.insert idx ⟨handle, c.objects⟩ }) events) :
      Edit a c { c.answer { c.loop with ios := ios, events := events }
        (.scope (.ioRegisterAny growth none)) (.ok (.ioId (.ofIdx idx))) with
        objects := c.objects + 1 }
  | lent (id : IoId) (left : Option Nat) (handle : Handle) (holder : EvHolder Ev) (io : IoHolder)
      (ha : a = .call (.scope (.ioMut id left))) (hctl : c.ctl = .user)
      (hcaller : c.caller = some handle) (hget : c.loop.events.get? handle.id = some holder)
      (hheld : holder.ios.lookup id.idx = some io) :
      Edit a c { c.answer c.loop (.scope (.ioMut id left)) (.ok .unit) with
        boxes := left.elim c.boxes (Function.update c.boxes io.io) }
  | ioRemoved (id : IoId) (outcome : Option IoErrorKind) (handle : Handle) (holder : EvHolder Ev)
      (ios : Recycler Handle) (events : Recycler (EvHolder Ev)) (ans : Answer)
      (ha : a = .call (.scope (.ioRemove id outcome))) (hctl : c.ctl = .user)
      (hcaller : c.caller = some handle) (hget : c.loop.events.get? handle.id = some holder)
      (hmem : id.idx ∈ holder.ios)
      (hset : c.loop.events.Sets handle.id
        (some { holder with ios := holder.ios.erase id.idx }) events)
      (hios : c.loop.ios.Sets id.idx none ios) :
      Edit a c (c.answer
        { c.loop with
          events := events, ios := ios, iosReleased := c.loop.iosReleased.insert id.idx }
        (.scope (.ioRemove id outcome)) ans)
  | submitted (handle : Handle) (ha : a = .call (.scope .backgroundSubmit)) (hctl : c.ctl = .user)
      (hcaller : c.caller = some handle) :
      Edit a c (c.answer (c.loop.backgroundSubmit handle).2 (.scope .backgroundSubmit)
        (.ok (.backgroundId (c.loop.backgroundSubmit handle).1)))
  | tracked (pid : Pid) (handle : Handle) (holder : EvHolder Ev) (events : Recycler (EvHolder Ev))
      (ha : a = .call (.scope (.child pid))) (hctl : c.ctl = .user)
      (hcaller : c.caller = some handle) (hget : c.loop.events.get? handle.id = some holder)
      (hfresh : pid ∉ c.loop.children)
      (hset : c.loop.events.Sets handle.id
        (some { holder with children := holder.children.insert pid }) events) :
      Edit a c (c.answer
        { c.loop with
          signalsEnabled := Function.update c.loop.signalsEnabled Signal.SIGCHLD.num true
          children := c.loop.children.insert pid handle
          events := events }
        (.scope (.child pid)) (.ok .unit))
  | poolSet (cnt : Nat) (ha : a = .call (.owner (.poolThreadCountSet cnt)))
      (hctl : c.ctl = .user) :
      Edit a c (c.answer
        { c.loop with threadpool := some { c.loop.threadpool.getD ⟨cnt, []⟩ with threads := cnt } }
        (.owner (.poolThreadCountSet cnt)) (.ok .unit))
  | enabled (signal : Signal) (ha : a = .call (.owner (.signalEnable signal)))
      (hctl : c.ctl = .user)
      (hon : c.loop.signalsEnabled signal.num = true ∨ signal.uncatchable = false) :
      Edit a c (c.answer
        { c.loop with signalsEnabled := Function.update c.loop.signalsEnabled signal.num true }
        (.owner (.signalEnable signal)) (.ok .unit))
  /- Calls of events -/
  | entered (handle : Handle) (cb : Callback) (holder : EvHolder Ev)
      (events : Recycler (EvHolder Ev)) (ha : a = .tick) (hctl : c.ctl = .call handle cb)
      (hget : c.loop.events.get? handle.id = some holder)
      (hgen : holder.generation = handle.generation) (hfree : holder.event.stolen = false)
      (hset : c.loop.events.Sets handle.id
        (some { holder with event := { holder.event with stolen := true } }) events) :
      Edit a c { c with
        loop := { c.loop with events := events }
        stack := .callback handle cb ⟨c.loop.cellAddr handle.id⟩ :: c.stack
        ctl := .user
        log := .called handle cb holder.event.data :: c.log }
  | turnedAway (handle : Handle) (cb : Callback) (err : Error) (ha : a = .tick)
      (hctl : c.ctl = .call handle cb)
      (hwhy : (err = .missing ∧ c.loop.eventAlive handle = false) ∨
        (err = .busy ∧ ∃ holder, c.loop.events.get? handle.id = some holder ∧
          holder.generation = handle.generation ∧ holder.event.stolen = true)) :
      Edit a c { c with ctl := .ret (.error err), log := .refused handle cb err :: c.log }
  | finished (handle : Handle) (cb : Callback) (data : StolenData) (rest : List Frame) (event : Ev)
      (resp : Response) (holder : EvHolder Ev) (events : Recycler (EvHolder Ev))
      (ha : a = .finish event resp) (hctl : c.ctl = .user)
      (hstack : c.stack = .callback handle cb data :: rest)
      (hget : c.loop.events.get? handle.id = some holder)
      (haddr : data.ptr = c.loop.cellAddr handle.id)
      (hset : c.loop.events.Sets handle.id (some { holder with event := ⟨event, false⟩ }) events) :
      Edit a c { c with
        loop := { c.loop with events := events }
        stack := rest
        ctl := .settle handle resp
        log := .finished handle event resp :: c.log }
  | kept (handle : Handle) (ha : a.IsSettle) (hctl : c.ctl = .settle handle (.ok true)) :
      Edit a c { c with ctl := .ret (.ok ()) }
  | killed (handle : Handle) (resp : Response) (result : Except Error Unit)
      (holder : EvHolder Ev) (events : Recycler (EvHolder Ev)) (deregisters : Bool)
      (handler : Except Error Unit) (ha : a = .settle deregisters handler)
      (hctl : c.ctl = .settle handle resp)
      (hresp : (resp = .ok false ∧ result = .ok ()) ∨ ∃ err, resp = .error err ∧ result = handler)
      (hget : c.loop.events.get? handle.id = some holder) (hfree : holder.event.stolen = false)
      (hset : c.loop.events.Sets handle.id none events) :
      Edit a c { c with
        loop := { c.loop with
          events := events
          timeoutsDead := c.loop.timeoutsDead + holder.timeouts
          iosReleased := c.loop.iosReleased.insertAll holder.ios.keys
          wantIdle := c.loop.wantIdle.erase ⟨handle.id, holder.generation⟩
          signalRecipients := fun signum =>
            (c.loop.signalRecipients signum).erase ⟨handle.id, holder.generation⟩
          children := holder.children.toList.foldl (fun map pid => map.erase pid)
            c.loop.children }
        ctl := .ret result
        log := .killed handle :: c.log }
  /- Tasks of the queue -/
  | dropped (task : Task) (rest : List Task) (ha : a = .tick) (hctl : c.ctl = .runOne)
      (hsched : c.loop.scheduled = task :: rest)
      (hdead : c.loop.eventAlive task.recipient = false) :
      Edit a c { c with
        loop := { c.loop with scheduled := rest }, log := .dropped task :: c.log }
  | passed (task : Task) (rest : List Task) (holder : EvHolder Ev) (ha : a = .tick)
      (hctl : c.ctl = .runOne) (hsched : c.loop.scheduled = task :: rest)
      (hget : c.loop.events.get? task.recipient.id = some holder)
      (hgen : holder.generation = task.recipient.generation) (hkind : ¬task.param.IsTimeout)
      (hio : ∀ id ready source, task.param = .io id ready source → id.idx ∈ holder.ios) :
      Edit a c { c with
        loop := { c.loop with scheduled := rest }
        ctl := .call task.recipient task.param.callback
        log := .dispatched task :: c.log }
  | lost (task : Task) (rest : List Task) (id : IoId) (ready : Ready) (source : Nat)
      (holder : EvHolder Ev) (ha : a = .tick) (hctl : c.ctl = .runOne)
      (hsched : c.loop.scheduled = task :: rest) (hparam : task.param = .io id ready source)
      (hget : c.loop.events.get? task.recipient.id = some holder)
      (hgen : holder.generation = task.recipient.generation) (hgone : id.idx ∉ holder.ios) :
      Edit a c { c with
        loop := { c.loop with scheduled := rest }
        ctl := .ret (.ok ())
        log := .dispatched task :: c.log }
  | fired (task : Task) (rest : List Task) (id : TimeoutId) (left : Nat) (holder : EvHolder Ev)
      (events : Recycler (EvHolder Ev)) (ha : a = .tick) (hctl : c.ctl = .runOne)
      (hsched : c.loop.scheduled = task :: rest) (hparam : task.param = .timeout id)
      (hget : c.loop.events.get? task.recipient.id = some holder)
      (hgen : holder.generation = task.recipient.generation) (hleft : holder.timeouts = left + 1)
      (hset : c.loop.events.Sets task.recipient.id (some { holder with timeouts := left }) events) :
      Edit a c { c with
        loop := { c.loop with
          scheduled := rest, timeoutsFired := c.loop.timeoutsFired + 1, events := events }
        ctl := .call task.recipient (.timeout id)
        log := .dispatched task :: c.log }
  /- Returns of operations -/
  | again (ha : a = .tick) (hctl : c.ctl = .ret (.ok ())) : Edit a c { c with ctl := .runOne }
  | gaveBack (frame : Frame) (rest : List Frame) (result : Except Error Unit) (ans : Answer)
      (ha : a = .tick) (hctl : c.ctl = .ret result) (hstack : c.stack = frame :: rest)
      (hframe : frame.callee = none) : Edit a c (c.giveBack frame rest ans)
  /- The environment -/
  | notified (signal : Signal) (ha : a = .dispatch signal)
      (hon : c.loop.signalsEnabled signal.num = true) :
      Edit a c { c with loop := c.loop.dispatchSignal signal.num }
  | arrived (m : RemoteMessage) (ha : a = .remote m) (hmay : mayArrive c.loop m = true) :
      Edit a c { c with loop := { c.loop with receiver := c.loop.receiver ++ [m] } }
  | reorderedReleased (order : List Nat) (ha : a = .reorderReleased order)
      (h : order.Perm c.loop.iosReleased.toList) :
      Edit a c { c with
        loop := { c.loop with iosReleased := c.loop.iosReleased.reorder order h } }
  | reorderedTimeouts (order : List TimeoutHolder) (ha : a = .reorderTimeouts order)
      (h : order.Perm c.loop.timeouts) :
      Edit a c { c with loop := { c.loop with timeouts := order } }
  | reorderedRecipients (signum : Nat) (order : List Handle)
      (ha : a = .reorderRecipients signum order)
      (h : order.Perm (c.loop.signalRecipients signum).toList) :
      Edit a c { c with
        loop := c.loop.setRecipients signum ((c.loop.signalRecipients signum).reorder order h) }
  /- Parts of a gather -/
  | drained (ios : Recycler Handle) (ha : a.IsGather) (hctl : c.ctl = .runOne)
      (hsched : c.loop.scheduled = [])
      (hheld : ∀ idx ∈ c.loop.iosReleased, c.loop.ios.get? idx ≠ none)
      (hios : ∀ idx,
        ios.get? idx = if idx ∈ c.loop.iosReleased then none else c.loop.ios.get? idx) :
      Edit a c { c with loop := { c.loop with ios := ios, iosReleased := ∅ } }
  | pruned (ha : a.IsGather) (hctl : c.ctl = .runOne) :
      Edit a c { c with
        loop := { c.loop with
          timeouts := (PriorityHeap.popWhile TimeoutHolder.key
            (fun t => !c.loop.eventAlive t.recipient) c.loop.timeouts).2 } }
  | woke (env : GatherEnv) (ha : a = .gather env) (hctl : c.ctl = .runOne) :
      Edit a c { c with loop := { c.loop with now := env.wake } }
  | received (m : RemoteMessage) (rest : List RemoteMessage) (ha : a.IsGather)
      (hctl : c.ctl = .runOne) (hrecv : c.loop.receiver = m :: rest)
      (hpass : (∃ id, m.mode = .background id) ∨
        ∃ holder, c.loop.events.get? m.recipient.id = some holder ∧
          holder.generation = m.recipient.generation ∧ m.realType ∈ holder.expectedMessages) :
      Edit a c { c with
        loop := { c.loop with receiver := rest }.schedule m.recipient
          (.message ⟨m.data, m.realType, m.mode⟩) }
  | ignored (m : RemoteMessage) (rest : List RemoteMessage) (ha : a.IsGather)
      (hctl : c.ctl = .runOne) (hrecv : c.loop.receiver = m :: rest)
      (haway : ∃ err, c.loop.TurnsAway m.recipient m.realType err) :
      Edit a c { c with loop := { c.loop with receiver := rest } }
  | wakeupTaken (ha : a.IsGather) (hctl : c.ctl = .runOne) :
      Edit a c { c with loop := { c.loop with signalWakeup := false } }
  | flagCleared (signum : Nat) (ha : a.IsGather) (hctl : c.ctl = .runOne) :
      Edit a c { c with loop := c.loop.clearFlag signum }
  | reaped (pid : Pid) (exit : ChildExit) (handle : Handle) (holder : EvHolder Ev)
      (events : Recycler (EvHolder Ev)) (ha : a.IsGather) (hctl : c.ctl = .runOne)
      (hlookup : c.loop.children.lookup pid = some handle)
      (hget : c.loop.events.get? handle.id = some holder) (hmem : pid ∈ holder.children)
      (hset : c.loop.events.Sets handle.id
        (some { holder with children := holder.children.erase pid }) events) :
      Edit a c { c with
        loop := { c.loop with children := c.loop.children.erase pid, events := events }.schedule
          handle (.child pid exit) }
  | broadcast (signal : Signal) (ha : a.IsGather) (hctl : c.ctl = .runOne) :
      Edit a c { c with loop := c.loop.scheduleSignal signal }
  | ready (env : GatherEnv) (ev : PollEvent) (polled : List PollEvent) (id : IoId)
      (handle : Handle) (ha : a = .gather env) (hctl : c.ctl = .runOne)
      (hpoll : env.poll = .ok polled) (hev : ev ∈ polled) (hid : id.token = ev.token)
      (hget : c.loop.ios.get? id.idx = some handle) :
      Edit a c { c with loop := c.loop.schedule handle (.io id ev.kind ev.source) }
  | cleaned (dead alive : Nat) (ha : a.IsGather) (hctl : c.ctl = .runOne)
      (hqueue : c.loop.NoTimeouts) (hstats : c.loop.timerStats = .ok (dead, alive))
      (hfew : ¬(5 < dead ∧ alive * 3 < dead)) :
      Edit a c { c with
        loop := { c.loop with
          timeoutsDead := dead, timeoutsFired := 0, timeoutsInserted := c.loop.timeouts.length } }
  | rebuilt (dead alive : Nat) (ha : a.IsGather) (hctl : c.ctl = .runOne)
      (hqueue : c.loop.NoTimeouts) (hstats : c.loop.timerStats = .ok (dead, alive))
      (hmany : 5 < dead ∧ alive * 3 < dead) :
      Edit a c { c with
        loop := { c.loop with
          timeouts := c.loop.timeouts.filter fun t => c.loop.eventAlive t.recipient
          timeoutsDead := 0
          timeoutsFired := 0
          timeoutsInserted :=
            (c.loop.timeouts.filter fun t => c.loop.eventAlive t.recipient).length } }
  | timed (ha : a.IsGather) (hctl : c.ctl = .runOne) :
      Edit a c { c with loop := c.loop.tasksGatherTimers }
  | idleTaken (handle : Handle) (rest : ListSet Handle) (ha : a.IsGather) (hctl : c.ctl = .runOne)
      (hsched : c.loop.scheduled = []) (hpop : c.loop.wantIdle.popFront = some (handle, rest)) :
      Edit a c { c with loop := { c.loop with wantIdle := rest }.schedule handle .idle }
  | gatherFailed (err : Error) (ha : a.IsGather) (hctl : c.ctl = .runOne) :
      Edit a c { c with ctl := .ret (.error err) }

/-- What a step does: a sequence of elementary changes. -/
abbrev Edits (a : Action Ev) : Config Ev → Config Ev → Prop := Relation.ReflTransGen (Edit a)

inductive Fail (a : Action Ev) (c : Config Ev) : Panic → Prop
  | scopeVacant (handle : Handle) (fault : RecyclerFault) (hctl : c.ctl = .user)
      (hcaller : c.caller = some handle) (hnone : c.loop.events.get? handle.id = none) :
      Fail a c (.events fault)
  | finishVacant (handle : Handle) (cb : Callback) (data : StolenData) (rest : List Frame)
      (fault : RecyclerFault) (hctl : c.ctl = .user)
      (hstack : c.stack = .callback handle cb data :: rest)
      (hnone : c.loop.events.get? handle.id = none) : Fail a c (.events fault)
  | moved (handle : Handle) (cb : Callback) (data : StolenData) (rest : List Frame)
      (hctl : c.ctl = .user) (hstack : c.stack = .callback handle cb data :: rest)
      (hne : data.ptr ≠ c.loop.cellAddr handle.id) : Fail a c (.cell .moved)
  | settleVacant (handle : Handle) (resp : Response) (fault : RecyclerFault)
      (hctl : c.ctl = .settle handle resp) (hnone : c.loop.events.get? handle.id = none) :
      Fail a c (.events fault)
  | settleStolen (handle : Handle) (resp : Response) (holder : EvHolder Ev)
      (hctl : c.ctl = .settle handle resp) (hget : c.loop.events.get? handle.id = some holder)
      (hstolen : holder.event.stolen = true) : Fail a c (.cell .alreadyStolen)
  | deregister (handler : Except Error Unit) (ha : a = .settle false handler) :
      Fail a c .deregister
  | removeVacant (id : IoId) (outcome : Option IoErrorKind) (handle : Handle)
      (holder : EvHolder Ev) (fault : RecyclerFault)
      (ha : a = .call (.scope (.ioRemove id outcome))) (hctl : c.ctl = .user)
      (hcaller : c.caller = some handle) (hget : c.loop.events.get? handle.id = some holder)
      (hmem : id.idx ∈ holder.ios) (hnone : c.loop.ios.get? id.idx = none) :
      Fail a c (.ios fault)
  | drainVacant (idx : Nat) (fault : RecyclerFault) (hctl : c.ctl = .runOne)
      (hmem : idx ∈ c.loop.iosReleased) (hnone : c.loop.ios.get? idx = none) :
      Fail a c (.ios fault)
  | tokenVacant (env : GatherEnv) (ev : PollEvent) (polled : List PollEvent) (id : IoId)
      (fault : RecyclerFault) (ha : a = .gather env) (hctl : c.ctl = .runOne)
      (hpoll : env.poll = .ok polled) (hev : ev ∈ polled) (hid : id.token = ev.token)
      (hnone : c.loop.ios.get? id.idx = none) : Fail a c (.ios fault)
  | childTracked (pid : Pid) (ha : a = .call (.scope (.child pid)))
      (hmem : pid ∈ c.loop.children) : Fail a c .childTracked
  | childVacant (pid : Pid) (handle : Handle) (fault : RecyclerFault)
      (hlookup : c.loop.children.lookup pid = some handle)
      (hnone : c.loop.events.get? handle.id = none) : Fail a c (.events fault)
  | childUnlinked (pid : Pid) (handle : Handle) (holder : EvHolder Ev)
      (hlookup : c.loop.children.lookup pid = some handle)
      (hget : c.loop.events.get? handle.id = some holder) (hnot : pid ∉ holder.children) :
      Fail a c .childUnlinked
  | fireUnderflow (task : Task) (rest : List Task) (id : TimeoutId) (holder : EvHolder Ev)
      (hctl : c.ctl = .runOne) (hsched : c.loop.scheduled = task :: rest)
      (hparam : task.param = .timeout id)
      (hget : c.loop.events.get? task.recipient.id = some holder)
      (hgen : holder.generation = task.recipient.generation) (hzero : holder.timeouts = 0) :
      Fail a c .underflow
  | overflow (after : Nat) (ha : a = .call (.scope (.timeoutAfter after)))
      (hpast : INSTANT_END ≤ c.loop.now + after) : Fail a c .instantOverflow
  | uncatchable (signal : Signal)
      (ha : a = .call (.scope (.signal signal)) ∨ a = .call (.owner (.signalEnable signal)))
      (hoff : c.loop.signalsEnabled signal.num = false) (hsignal : signal.uncatchable = true) :
      Fail a c .sigaction
  | poolEmpty (ha : a = .call (.owner (.poolThreadCountSet 0))) : Fail a c .noThreads
  | undecodable (env : GatherEnv) (pid : Pid) (signum : Nat) (ha : a = .gather env)
      (hmem : .ok (.realTime pid signum) ∈ env.waits) : Fail a c .waitpid
  | statsUnderflow (hctl : c.ctl = .runOne) (hqueue : c.loop.NoTimeouts)
      (hstats : c.loop.timerStats = .error .underflow) : Fail a c .underflow

end Config

end Eveboros
