import Eveboros.Runs.Readiness

/-!
# The loop over mio

mio is not part of this repository.  It is a parameter here: whatever answers the calls of the loop,
and obeys the laws that the loop relies on.
-/

namespace Eveboros

open Config Loop

inductive MioCall
  | register (object token : Nat) (outcome : Option IoErrorKind)
  | reregister (object token : Nat) (outcome : Option IoErrorKind)
  | deregister (object : Nat) (outcome : Option IoErrorKind)
  | poll (outcome : Except IoErrorKind (List PollEvent))

def MioCall.failed : MioCall → Bool
  | .register _ _ outcome | .reregister _ _ outcome | .deregister _ outcome => outcome.isSome
  | .poll (.error _) => true
  | .poll (.ok _) => false

/-- Something to poll.  How it comes to its answers is its own business. -/
structure Mio where
  State : Type
  start : State
  Answers : State → MioCall → State → Prop
  /-- The token under which an object is watched. -/
  watched : State → Nat → Option Nat

namespace Mio

structure Lawful (m : Mio) : Prop where
  start (object : Nat) : m.watched m.start object = none
  register {s s' : m.State} {object token : Nat} :
    m.Answers s (.register object token none) s' →
      m.watched s' = Function.update (m.watched s) object (some token)
  reregister {s s' : m.State} {object token : Nat} :
    m.Answers s (.reregister object token none) s' →
      m.watched s' = Function.update (m.watched s) object (some token)
  deregister {s s' : m.State} {object : Nat} :
    m.Answers s (.deregister object none) s' →
      m.watched s' = Function.update (m.watched s) object none
  /-- Deregistering what is watched does not fail. -/
  lets_go {s s' : m.State} {object : Nat} {err : IoErrorKind} :
    m.Answers s (.deregister object (some err)) s' → m.watched s object = none
  /-- It can always be done. -/
  can_let_go {s : m.State} {object : Nat} : m.watched s object ≠ none →
    ∃ s', m.Answers s (.deregister object none) s'
  /-- A call that fails changes nothing. -/
  failed {s s' : m.State} {call : MioCall} : m.Answers s call s' → call.failed = true →
    m.watched s' = m.watched s
  poll {s s' : m.State} {polled : List PollEvent} :
    m.Answers s (.poll (.ok polled)) s' → m.watched s' = m.watched s
  /-- A poll reports what is watched, under its token.  The tokens below belong to the channels of
  the loop. -/
  reports {s s' : m.State} {polled : List PollEvent} :
    m.Answers s (.poll (.ok polled)) s' → ∀ ev ∈ polled,
      ev.token < TOKEN_SHIFT ∨ m.watched s ev.source = some ev.token

/-- mio answers the calls one after another. -/
inductive Serves (m : Mio) : m.State → List MioCall → m.State → Prop
  | nil (s : m.State) : Serves m s [] s
  | cons {s s' s'' : m.State} {call : MioCall} {calls : List MioCall} :
      m.Answers s call s' → Serves m s' calls s'' → Serves m s (call :: calls) s''

/-! ## What the loop asks -/

section Calls

variable {Ev : Type}

/-- What is in the boxes of the event in a slot. -/
def objectsOf (c : Config Ev) (idx : Nat) : List Nat :=
  match c.loop.events.get? idx with
  | some holder => holder.ios.entries.map fun entry => c.boxes entry.2.io
  | none => []

/-- The IO that the event whose callback runs has under an id. -/
def callerIo (c : Config Ev) (id : IoId) : Option IoHolder :=
  c.caller.bind fun handle => c.loop.registration handle id.idx

/-- The calls for a dying event, in any order, up to the first that fails. -/
def Forgets (objects : List Nat) (calls : List MioCall) : Bool → Prop
  | true => ∃ order : List Nat, order.Perm objects ∧ calls = order.map (.deregister · none)
  | false => ∃ (before after : List Nat) (object : Nat) (err : IoErrorKind),
      (before ++ object :: after).Perm objects ∧
        calls = before.map (.deregister · none) ++ [.deregister object (some err)]

/-- The loop makes these calls in the action, whose outcomes are part of it. -/
def Asks (c : Config Ev) (calls : List MioCall) : Action Ev → Prop
  | .call (.scope (.ioRegisterAny _ outcome)) =>
      calls = [.register c.objects (IoId.ofIdx c.loop.ios.next).token outcome]
  | .call (.scope (.ioUpdate id outcome)) =>
      calls = (callerIo c id).toList.map fun io => .reregister (c.boxes io.io) id.token outcome
  | .call (.scope (.ioRemove id outcome)) =>
      calls = (callerIo c id).toList.map fun io => .deregister (c.boxes io.io) outcome
  | .settle deregisters _ =>
      match c.ctl with
      | .settle handle (.ok false) | .settle handle (.error _) =>
          Forgets (objectsOf c handle.id) calls deregisters
      | _ => calls = []
  | .gather env =>
      -- An empty loop does not get to the poll.
      calls = if c.loop.events.isEmpty = .ok false then [.poll env.poll] else []
  | _ => calls = []

/-- The configurations and the states of mio that a run meets if all its actions are in `P`. -/
inductive Runs (m : Mio) (P : Config Ev → Action Ev → Prop) (now : Nat) :
    Config Ev → m.State → Prop
  | start : Runs m P now (init now) m.start
  | step {c c' : Config Ev} {a : Action Ev} {calls : List MioCall} {s s' : m.State} :
      Runs m P now c s → P c a → Asks c calls a → m.Serves s calls s' → c.step a = .ok c' →
      Runs m P now c' s'

end Calls

end Mio

end Eveboros
