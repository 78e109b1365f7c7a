import Eveboros.Lib.Outcome
import Eveboros.Loop.State

/-!
# Events in the loop

Killing an event and calling one.  A call is cut at the callback: `eventCallEnter` is what
`event_call` does before it runs the user's code, `eventCallLeave` what it does when that code
returns.
-/

namespace Eveboros.Loop

variable {Ev : Type}

/-- `event_kill`: take the event out of its slot and forget everything registered for it.  The
timeouts stay in the heap; the ids of the IOs stay occupied until the next gather.  `deregisters`
says whether mio deregisters the IOs without an error. -/
def eventKill (l : Loop Ev) (idx : Nat) (deregisters : Bool) : Except Panic (Ev × Loop Ev) := do
  let (holder, events) ← (l.events.release idx).mapError .events
  let handle : Handle := ⟨idx, holder.generation⟩
  if deregisters = false ∧ holder.ios.keys ≠ [] then .error .deregister
  else do
    let event ← holder.event.intoInner.mapError .cell
    return (event, { l with
      events := events
      timeoutsDead := l.timeoutsDead + holder.timeouts
      iosReleased := l.iosReleased.insertAll holder.ios.keys
      wantIdle := l.wantIdle.erase handle
      signalRecipients := fun signum => (l.signalRecipients signum).erase handle
      children := holder.children.toList.foldl (fun map pid => map.erase pid) l.children })

/-- `event_call` up to the callback: the pointer to the event and its value, or the error that is
returned without a call. -/
def eventCallEnter (l : Loop Ev) (handle : Handle) :
    Except Panic (Except Error (StolenData × Ev × Loop Ev)) :=
  match l.events.get? handle.id with
  | none => .ok (.error .missing)
  | some holder =>
      if holder.generation ≠ handle.generation then .ok (.error .missing)
      else if holder.event.stolen then .ok (.error .busy)
      else do
        let (data, cell) ← (holder.event.steal (l.cellAddr handle.id)).mapError .cell
        let events ← (l.events.modify handle.id fun h => { h with event := cell }).mapError .events
        return .ok (data, holder.event.data, { l with events := events })

/-- `event_call` after the callback, which left the event with the value `event`. -/
def eventCallLeave (l : Loop Ev) (handle : Handle) (data : StolenData) (event : Ev) :
    Except Panic (Loop Ev) := do
  let holder ← (l.events.index handle.id).mapError .events
  let cell ← (holder.event.unsteal (l.cellAddr handle.id) data).mapError .cell
  let events ← (l.events.modify handle.id fun h =>
    { h with event := { cell with data := event } }).mapError .events
  return { l with events := events }

/-- Assign a generation and store the event: `insert_exact` up to the call of `init`. -/
def storeEvent (l : Loop Ev) (event : Ev) (growth : Growth) :
    Except Panic (Handle × Loop Ev) := do
  let generation := l.generation
  let (idx, events) ← (l.events.store (.new event generation) growth).mapError .events
  return (⟨idx, generation⟩,
    { l with generation := wrappingSucc generation, events := events })

def timeoutAt (l : Loop Ev) (handle : Handle) (when : Nat) :
    Except Panic (TimeoutId × Loop Ev) := do
  let id : TimeoutId := ⟨l.timeoutGeneration⟩
  let events ← (l.events.modify handle.id fun h =>
    { h with timeouts := h.timeouts + 1 }).mapError .events
  return (id, { l with
    timeoutGeneration := wrappingSucc l.timeoutGeneration
    events := events
    timeoutsInserted := l.timeoutsInserted + 1
    timeouts := ⟨id, handle, when⟩ :: l.timeouts })

def timeoutAfter (l : Loop Ev) (handle : Handle) (after : Nat) :
    Except Panic (TimeoutId × Loop Ev) :=
  if l.now + after < INSTANT_END then l.timeoutAt handle (l.now + after)
  else .error .instantOverflow

/-! ## Messages -/

def msgTypeCheck (l : Loop Ev) (handle : Handle) (tid : TypeId) :
    Except Panic (Except Error Unit) :=
  if l.eventAlive handle = false then .ok (.error .missing)
  else do
    let holder ← (l.events.index handle.id).mapError .events
    return if tid ∈ holder.expectedMessages then .ok () else .error .msgUnexpected

/-- The three answers of the check. -/
theorem msgTypeCheck_cases (l : Loop Ev) (handle : Handle) (tp : TypeId) :
    (l.eventAlive handle = false ∧ l.msgTypeCheck handle tp = .ok (.error .missing)) ∨
      ∃ holder, l.events.get? handle.id = some holder ∧
        holder.generation = handle.generation ∧
        ((tp ∉ holder.expectedMessages ∧
            l.msgTypeCheck handle tp = .ok (.error .msgUnexpected)) ∨
          (tp ∈ holder.expectedMessages ∧ l.msgTypeCheck handle tp = .ok (.ok ()))) := by
  cases halive : l.eventAlive handle with
  | false => exact .inl ⟨rfl, by simp [msgTypeCheck, halive]⟩
  | true =>
      obtain ⟨holder, hget, hgen⟩ := eventAlive_iff.mp halive
      refine .inr ⟨holder, hget, hgen, ?_⟩
      have hcheck : l.msgTypeCheck handle tp =
          .ok (if tp ∈ holder.expectedMessages then .ok () else .error .msgUnexpected) := by
        simp [msgTypeCheck, halive, Recycler.index_eq_ok.mpr hget, Except.ok_bind,
          Except.pure_eq_ok, Except.mapError_ok]
      by_cases hmem : tp ∈ holder.expectedMessages
      · exact .inr ⟨hmem, by simp [hcheck, hmem]⟩
      · exact .inl ⟨hmem, by simp [hcheck, hmem]⟩

/-- A message of this type for the event is turned away. -/
inductive TurnsAway (l : Loop Ev) (handle : Handle) (tp : TypeId) : Error → Prop
  | missing (hdead : l.eventAlive handle = false) : TurnsAway l handle tp .missing
  | unexpected (holder : EvHolder Ev) (hget : l.events.get? handle.id = some holder)
      (hgen : holder.generation = handle.generation) (hnot : tp ∉ holder.expectedMessages) :
      TurnsAway l handle tp .msgUnexpected

theorem turnsAway_iff {l : Loop Ev} {handle : Handle} {tp : TypeId} {err : Error} :
    l.TurnsAway handle tp err ↔ l.msgTypeCheck handle tp = .ok (.error err) := by
  rcases l.msgTypeCheck_cases handle tp with
    ⟨hdead, hres⟩ | ⟨holder, hget, hgen, ⟨hnot, hres⟩ | ⟨hmem, hres⟩⟩
  · rw [hres]
    constructor
    · intro h
      cases h with
      | missing => rfl
      | unexpected holder hget hgen =>
          rw [Loop.eventAlive_iff.mpr ⟨holder, hget, hgen⟩] at hdead
          cases hdead
    · rintro ⟨⟩
      exact .missing hdead
  · rw [hres]
    constructor
    · intro h
      cases h with
      | missing hdead =>
          rw [Loop.eventAlive_iff.mpr ⟨holder, hget, hgen⟩] at hdead
          cases hdead
      | unexpected => rfl
    · rintro ⟨⟩
      exact .unexpected holder hget hgen hnot
  · rw [hres]
    constructor
    · intro h
      cases h with
      | missing hdead =>
          rw [Loop.eventAlive_iff.mpr ⟨holder, hget, hgen⟩] at hdead
          cases hdead
      | unexpected holder' hget' _ hnot =>
          cases hget.symm.trans hget'
          exact absurd hmem hnot
    · rintro ⟨⟩

def schedule (l : Loop Ev) (recipient : Handle) (param : TaskParam) : Loop Ev :=
  { l with scheduled := l.scheduled ++ [⟨recipient, param⟩] }

def sendImplSender (l : Loop Ev) (sender : Option Handle) (handle : Handle) (data : AnyBox)
    (tp : TypeId) : Except Panic (Except Error (Loop Ev)) := do
  let checked ← l.msgTypeCheck handle tp
  return checked.map fun _ => l.schedule handle (.message ⟨data, tp, .send sender⟩)

/-! ## Signals -/

/-- `signal_enable`: from now on the process-wide dispatcher notifies this loop.  The dispatcher
unwraps what `sigaction` answers. -/
def signalEnable (l : Loop Ev) (signal : Signal) : Except Panic (Loop Ev) :=
  if l.signalsEnabled signal.num then .ok l
  else if signal.uncatchable then .error .sigaction
  else .ok { l with signalsEnabled := Function.update l.signalsEnabled signal.num true }

def setRecipients (l : Loop Ev) (signum : Nat) (recipients : ListSet Handle) : Loop Ev :=
  { l with signalRecipients := Function.update l.signalRecipients signum recipients }

/-- What a dispatch of the signal does to this loop's notifier: set the flag, then `try_send`,
where a full channel already holds a token. -/
def dispatchSignal (l : Loop Ev) (signum : Nat) : Loop Ev :=
  { l with
    signalFlags := Function.update l.signalFlags signum true
    signalWakeup := true }

/-! ## The pool -/

/-- Both `ThreadPool::new` and `set_num_threads` want a positive number. -/
def poolThreadCountSet (l : Loop Ev) (cnt : Nat) : Except Panic (Loop Ev) :=
  if cnt = 0 then .error .noThreads
  else match l.threadpool with
    | none => .ok { l with threadpool := some ⟨cnt, []⟩ }
    | some pool => .ok { l with threadpool := some { pool with threads := cnt } }

end Eveboros.Loop
