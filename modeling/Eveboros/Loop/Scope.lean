import Mathlib.Logic.Function.Basic
import Eveboros.Loop.Events

/-!
# The operations of a scope

What a callback may ask of the loop in the name of the event it runs on.  An operation answers
with an error of the library or with a value; where it talks to mio, the argument `outcome` is
mio's answer.
-/

namespace Eveboros.Loop

variable {Ev : Type}

/-- `io_idx`: the key of an IO that belongs to the event. -/
def ioIdx (l : Loop Ev) (handle : Handle) (id : IoId) : Except Panic (Except Error Nat) := do
  let holder ← (l.events.index handle.id).mapError .events
  return if id.idx ∈ holder.ios then .ok id.idx else .error .missingIo

/-- `io_register_any`; `object` is the identity of the registered object. -/
def ioRegisterAny (l : Loop Ev) (handle : Handle) (object : Nat) (growth : Growth)
    (outcome : Option IoErrorKind) : Except Panic (Except Error IoId × Loop Ev) := do
  let (id, ios) ← (l.ios.store handle growth).mapError .ios
  match outcome with
  | some err =>
      -- The stored id goes away again before the error is returned.
      let (_, ios) ← (ios.release id).mapError .ios
      return (.error (.io err), { l with ios := ios })
  | none =>
      let events ← (l.events.modify handle.id fun h =>
        { h with ios := h.ios.insert id ⟨handle, object⟩ }).mapError .events
      return (.ok (.ofIdx id), { l with ios := ios, events := events })

/-- `io_update` asks mio to watch for something else. -/
def ioUpdate (l : Loop Ev) (handle : Handle) (id : IoId) (outcome : Option IoErrorKind) :
    Except Panic (Except Error Unit) := do
  let idx ← l.ioIdx handle id
  return match idx, outcome with
    | .error err, _ => .error err
    | .ok _, some err => .error (.io err)
    | .ok _, none => .ok ()

/-- `io_remove`: the id is released and also kept for release before the next gather. -/
def ioRemove (l : Loop Ev) (handle : Handle) (id : IoId) (outcome : Option IoErrorKind) :
    Except Panic (Except Error Unit × Loop Ev) := do
  match ← l.ioIdx handle id with
  | .error err => return (.error err, l)
  | .ok idx =>
      let events ← (l.events.modify handle.id fun h =>
        { h with ios := h.ios.erase idx }).mapError .events
      let (_, ios) ← (l.ios.release idx).mapError .ios
      return (match outcome with | some err => .error (.io err) | none => .ok (),
        { l with events := events, ios := ios, iosReleased := l.iosReleased.insert idx })

/-- `io_mut` lends the box with the IO. -/
def ioMut (l : Loop Ev) (handle : Handle) (id : IoId) : Except Panic (Except Error IoHolder) := do
  let holder ← (l.events.index handle.id).mapError .events
  return match holder.ios.lookup id.idx with
    | some io => .ok io
    | none => .error .missingIo

def idle (l : Loop Ev) (handle : Handle) : Loop Ev :=
  { l with wantIdle := l.wantIdle.pushBack handle }

def signal (l : Loop Ev) (handle : Handle) (signal : Signal) : Except Panic (Loop Ev) := do
  let l ← l.signalEnable signal
  return l.setRecipients signal.num ((l.signalRecipients signal.num).insert handle)

def expectMessage (l : Loop Ev) (handle : Handle) (tp : TypeId) : Except Panic (Loop Ev) := do
  let events ← (l.events.modify handle.id fun h =>
    { h with expectedMessages := h.expectedMessages.insert tp }).mapError .events
  return { l with events := events }

/-- `background_submit`: the pool is started with one thread if need be. -/
def backgroundSubmit (l : Loop Ev) (handle : Handle) : BackgroundId × Loop Ev :=
  let id : BackgroundId := ⟨l.backgroundGeneration⟩
  let pool := l.threadpool.getD ⟨1, []⟩
  (id, { l with
    threadpool := some { pool with jobs := (id, handle) :: pool.jobs }
    backgroundGeneration := wrappingSucc l.backgroundGeneration })

/-- `child`: it panics if the process is already tracked by this loop. -/
def child (l : Loop Ev) (handle : Handle) (pid : Pid) : Except Panic (Loop Ev) := do
  let l ← l.signalEnable .SIGCHLD
  if pid ∈ l.children then .error .childTracked
  else do
    let events ← (l.events.modify handle.id fun h =>
      { h with children := h.children.insert pid }).mapError .events
    return { l with children := l.children.insert pid handle, events := events }

end Eveboros.Loop
