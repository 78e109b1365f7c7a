import Mathlib.Data.List.Count
import Eveboros.Background.Messages
import Eveboros.Machine.Visited

/-!
# A process with many loops

Loops share nothing but the dispatcher of signals.  The owner of a loop may create and destroy
loops at any time, several threads may run one each, and anybody may hold channels into them.  The
dispatcher sits behind a mutex: while it goes through the notifiers of a signal nobody registers.
-/

namespace Eveboros

open TransitionSystem

variable {Ev : Type}

structure Dispatching where
  signal : Signal
  /-- The notifiers that have not had their turn. -/
  tmp : List Nat
  /-- Those that stay, newest first. -/
  kept : List Nat

/-- A call of `Channel::send`. -/
structure Sent where
  /-- The loop that the sender belongs to. -/
  loop : Nat
  message : RemoteMessage
  result : Except Error Unit
  /-- Has the message got into the channel? -/
  reached : Bool

structure World (Ev : Type) where
  loops : Nat → Option (Config Ev)
  /-- How many loops have been created? -/
  created : Nat
  /-- The notifiers of the dispatcher by signal number; a loop has one notifier. -/
  registered : Nat → List Nat
  dispatching : Option Dispatching
  /-- Ghost: when a loop was created, and what it has done since, newest first. -/
  birth : Nat → Nat
  history : Nat → List (Action Ev)
  /-- Ghost: what was sent, newest first. -/
  sends : List Sent

inductive WorldAction (Ev : Type)
  | create (now : Nat)
  /-- Something happens in one loop that concerns no other. -/
  | act (id : Nat) (a : Action Ev)
  | destroy (id : Nat)
  /-- A signal arrives, and the handler locks the dispatcher. -/
  | raise (signal : Signal)
  /-- The next notifier has its turn. -/
  | notify
  /-- The dispatch is over. -/
  | unlock
  /-- `Channel::send`; the sender of the channel belongs to the loop `id`.  In mio the IO may fail,
  before or after the message has got into the channel. -/
  | send (id : Nat) (channel : Channel) (data : AnyBox) (failure : Option (IoErrorKind × Bool))

/-- Actions that come to a loop through the dispatcher and through channels. -/
def Action.isForeign : Action Ev → Bool
  | .dispatch _ => true
  | .remote m => decide (m.mode = .remote)
  | _ => false

namespace World

def init : World Ev where
  loops := fun _ => none
  created := 0
  registered := fun _ => []
  dispatching := none
  birth := fun _ => 0
  history := fun _ => []
  sends := []

/-- The signal that an action enables. -/
def enables : Action Ev → Option Signal
  | .call (.scope (.signal signal)) => some signal
  | .call (.scope (.child _)) => some .SIGCHLD
  | .call (.owner (.signalEnable signal)) => some signal
  | _ => none

/-- The signal that an action registers the loop for. -/
def registers (c : Config Ev) (a : Action Ev) : Option Signal :=
  (enables a).filter fun signal => !c.loop.signalsEnabled signal.num

def stepLoop (w : World Ev) (id : Nat) (c : Config Ev) (a : Action Ev) :
    Except Fault (World Ev) := do
  let c ← c.step a
  return { w with
    loops := Function.update w.loops id (some c)
    history := Function.update w.history id (a :: w.history id) }

def register (w : World Ev) (id : Nat) : Option Signal → World Ev
  | some signal => { w with
      registered := Function.update w.registered signal.num (w.registered signal.num ++ [id]) }
  | none => w

def act (w : World Ev) (id : Nat) (a : Action Ev) : Except Fault (World Ev) :=
  match w.loops id with
  | none => .error .disabled
  | some c =>
      if a.isForeign then .error .disabled
      else if (registers c a).isSome && w.dispatching.isSome then .error .disabled
      else (w.register id (registers c a)).stepLoop id c a

/-- Only a loop at rest can be dropped. -/
def destroy (w : World Ev) (id : Nat) : Except Fault (World Ev) :=
  match w.loops id with
  | some c =>
      match c.ctl, c.stack with
      | .user, [] => .ok { w with loops := Function.update w.loops id none }
      | _, _ => .error .disabled
  | none => .error .disabled

/-- The beginning of `SignalDispatch::dispatch`: swap the notifiers of the signal out. -/
def raise (w : World Ev) (signal : Signal) : Except Fault (World Ev) :=
  match w.dispatching with
  | some _ => .error .disabled
  | none =>
      if w.registered signal.num = [] then .ok w
      else .ok { w with
        dispatching := some ⟨signal, w.registered signal.num, []⟩
        registered := Function.update w.registered signal.num [] }

/-- Notify a loop, or forget it if it is gone. -/
def notify (w : World Ev) : Except Fault (World Ev) :=
  match w.dispatching with
  | some ⟨signal, id :: tmp, kept⟩ =>
      match w.loops id with
      | some c =>
          { w with dispatching := some ⟨signal, tmp, id :: kept⟩ }.stepLoop id c (.dispatch signal)
      | none => .ok { w with dispatching := some ⟨signal, tmp, kept⟩ }
  | _ => .error .disabled

/-- Swap back what is left. -/
def unlock (w : World Ev) : Except Fault (World Ev) :=
  match w.dispatching with
  | some ⟨signal, [], kept⟩ => .ok { w with
      dispatching := none
      registered := Function.update w.registered signal.num kept.reverse }
  | _ => .error .disabled

/-- `Channel::send`: the receiver of the channel is gone if the loop is. -/
def send (w : World Ev) (id : Nat) (channel : Channel) (data : AnyBox)
    (failure : Option (IoErrorKind × Bool)) : Except Fault (World Ev) :=
  let m := channel.send (⟨data, rfl⟩ : Typed data.typeId)
  let sent (result : Except Error Unit) (reached : Bool) : World Ev :=
    { w with sends := ⟨id, m, result, reached⟩ :: w.sends }
  match w.loops id with
  | some c =>
      match failure with
      | none => (sent (.ok ()) true).stepLoop id c (.remote m)
      | some (err, true) => (sent (.error (.io err)) true).stepLoop id c (.remote m)
      | some (err, false) => .ok (sent (.error (.io err)) false)
  | none => if id < w.created then .ok (sent (.error .loopGone) false) else .error .disabled

def step (w : World Ev) : WorldAction Ev → Except Fault (World Ev)
  | .create now => .ok { w with
      loops := Function.update w.loops w.created (some (.init now))
      created := w.created + 1
      birth := Function.update w.birth w.created now }
  | .act id a => w.act id a
  | .destroy id => w.destroy id
  | .raise signal => w.raise signal
  | .notify => w.notify
  | .unlock => w.unlock
  | .send id channel data failure => w.send id channel data failure

end World

end Eveboros
