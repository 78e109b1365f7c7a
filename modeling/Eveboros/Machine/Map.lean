import Eveboros.Loop.Map
import Eveboros.Machine

/-!
# Other events in the same machine

Everything that mentions an event can be relabelled: operations, actions, the history.  A step of
the relabelled machine is the relabelled step, failures included.
-/

namespace Eveboros

variable {Ev Ev' : Type} (f : Ev → Ev')

def IfaceOp.map : IfaceOp Ev → IfaceOp Ev'
  | .insertExact event growth => .insertExact (f event) growth
  | .runOne => .runOne
  | .runUntilComplete handle => .runUntilComplete handle
  | .run => .run
  | .runUntilEmpty => .runUntilEmpty
  | .stop => .stop
  | .eventAlive handle => .eventAlive handle
  | .eventCount => .eventCount
  | .now => .now
  | .sendImpl handle data tp => .sendImpl handle data tp
  | .postImpl handle data tp => .postImpl handle data tp
  | .channel handle => .channel handle

def Op.map : Op Ev → Op Ev'
  | .iface op => .iface (op.map f)
  | .scope op => .scope op
  | .owner op => .owner op

def Obs.map : Obs Ev → Obs Ev'
  | .stored handle event => .stored handle (f event)
  | .killed handle => .killed handle
  | .called handle cb event => .called handle cb (f event)
  | .refused handle cb err => .refused handle cb err
  | .finished handle event resp => .finished handle (f event) resp
  | .dispatched task => .dispatched task
  | .dropped task => .dropped task
  | .answered caller op answer => .answered caller (op.map f) answer
  | .returned frame answer => .returned frame answer

def Action.map : Action Ev → Action Ev'
  | .call op => .call (op.map f)
  | .finish event resp => .finish (f event) resp
  | .settle deregisters handler => .settle deregisters handler
  | .gather env => .gather env
  | .tick => .tick
  | .dispatch signal => .dispatch signal
  | .remote m => .remote m
  | .reorderReleased order => .reorderReleased order
  | .reorderTimeouts order => .reorderTimeouts order
  | .reorderRecipients signum order => .reorderRecipients signum order

def Config.map (c : Config Ev) : Config Ev' :=
  { c with loop := c.loop.map f, log := c.log.map (Obs.map f) }

namespace Config

open Loop

variable {f} {c : Config Ev}

theorem caller_map : (c.map f).caller = c.caller := rfl

theorem alive_map (handle : Handle) :
    (c.map f).loop.eventAlive handle = c.loop.eventAlive handle := eventAlive_map handle

theorem callIface_map (op : IfaceOp Ev) :
    (c.map f).callIface (op.map f) = (c.callIface op).map (Config.map f) := by
  cases op with
  | insertExact event growth =>
      show ((c.loop.map f).storeEvent (f event) growth >>= _) = _
      rw [storeEvent_map]
      exact Except.bind_relabel fun _ => rfl
  | runUntilComplete handle =>
      simp only [callIface, IfaceOp.map, alive_map]
      split
      · rfl
      · refine index_relabel fun holder => ?_
        have hstolen : (holder.map f).event.stolen = holder.event.stolen := rfl
        rw [hstolen]
        split <;> rfl
  | eventAlive handle =>
      simp only [callIface, IfaceOp.map, alive_map]
      rfl
  | eventCount =>
      have hlen : (c.map f).loop.events.len = c.loop.events.len := Recycler.len_map
      simp only [callIface, IfaceOp.map, hlen]
      exact Except.bind_relabel_right fun _ => rfl
  | sendImpl handle data tp =>
      show ((c.loop.map f).sendImplSender c.caller handle data tp >>= _) = _
      rw [sendImplSender_map]
      refine Except.bind_relabel fun sent => ?_
      cases sent <;> rfl
  | postImpl handle data tp =>
      show ((c.loop.map f).msgTypeCheck handle tp >>= _) = _
      rw [msgTypeCheck_map]
      refine Except.bind_relabel_right fun checked => ?_
      cases checked <;> rfl
  | _ => rfl

theorem callScope_map (handle : Handle) (op : ScopeOp) :
    (c.map f).callScope handle op = (c.callScope handle op).map (Config.map f) := by
  cases op with
  | timeoutAt when =>
      show ((c.loop.map f).timeoutAt handle when >>= _) = _
      rw [timeoutAt_map]
      exact Except.bind_relabel fun _ => rfl
  | timeoutAfter after =>
      show ((c.loop.map f).timeoutAfter handle after >>= _) = _
      rw [timeoutAfter_map]
      exact Except.bind_relabel fun _ => rfl
  | signal signal =>
      show ((c.loop.map f).signal handle signal >>= _) = _
      rw [signal_map]
      exact Except.bind_relabel fun _ => rfl
  | expectMessage tp =>
      show ((c.loop.map f).expectMessage handle tp >>= _) = _
      rw [expectMessage_map]
      exact Except.bind_relabel fun _ => rfl
  | ioRegisterAny growth outcome =>
      show ((c.loop.map f).ioRegisterAny handle c.objects growth outcome >>= _) = _
      rw [ioRegisterAny_map]
      exact Except.bind_relabel fun _ => rfl
  | ioMut id left =>
      show ((c.loop.map f).ioMut handle id >>= _) = _
      rw [ioMut_map]
      refine Except.bind_relabel_right fun lent => ?_
      cases lent <;> rfl
  | ioUpdate id outcome =>
      show ((c.loop.map f).ioUpdate handle id outcome >>= _) = _
      rw [ioUpdate_map]
      exact Except.bind_relabel_right fun _ => rfl
  | ioRemove id outcome =>
      show ((c.loop.map f).ioRemove handle id outcome >>= _) = _
      rw [ioRemove_map]
      exact Except.bind_relabel fun _ => rfl
  | child pid =>
      show ((c.loop.map f).child handle pid >>= _) = _
      rw [child_map]
      exact Except.bind_relabel fun _ => rfl
  | _ => rfl

theorem callOwner_map (op : OwnerOp) :
    (c.map f).callOwner op = (c.callOwner op).map (Config.map f) := by
  cases op with
  | poolThreadCountSet cnt =>
      show ((c.loop.map f).poolThreadCountSet cnt >>= _) = _
      rw [poolThreadCountSet_map]
      exact Except.bind_relabel fun _ => rfl
  | signalEnable signal =>
      show ((c.loop.map f).signalEnable signal >>= _) = _
      rw [signalEnable_map]
      exact Except.bind_relabel fun _ => rfl

theorem callOp_map (op : Op Ev) :
    (c.map f).callOp (op.map f) = (c.callOp op).map (Config.map f) := by
  cases op with
  | iface op =>
      show ((c.map f).callIface (op.map f)).mapError Fault.panic = _
      rw [callIface_map, Except.mapError_map]
      rfl
  | scope op =>
      simp only [callOp, Op.map, caller_map]
      cases c.caller with
      | none => rfl
      | some handle =>
          simp only [callScope_map, Except.mapError_map]
  | owner op =>
      simp only [callOp, Op.map, caller_map]
      cases c.caller with
      | none =>
          simp only [callOwner_map, Except.mapError_map]
      | some handle => rfl

theorem enter_map (handle : Handle) (cb : Callback) :
    (c.map f).enter handle cb = (c.enter handle cb).map (Config.map f) := by
  show ((c.loop.map f).eventCallEnter handle >>= _) = _
  rw [eventCallEnter_map]
  refine Except.bind_relabel fun entered => ?_
  cases entered <;> rfl

theorem settle_map (handle : Handle) (resp : Response) (deregisters : Bool)
    (handler : Except Error Unit) : (c.map f).settle handle resp deregisters handler =
      (c.settle handle resp deregisters handler).map (Config.map f) := by
  have hkill : (c.map f).loop.eventKill handle.id deregisters =
      (c.loop.eventKill handle.id deregisters).map fun out => (f out.1, out.2.map f) :=
    eventKill_map handle.id deregisters
  unfold settle
  split
  · rfl
  · rw [hkill]
    exact Except.bind_relabel fun _ => rfl
  · rw [hkill]
    exact Except.bind_relabel fun _ => rfl

theorem taskCallback_map (l : Loop Ev) (task : Task) : taskCallback (l.map f) task =
    (taskCallback l task).map fun out => (out.1.map f, out.2) := by
  rcases task with ⟨recipient, param⟩
  cases param with
  | io id ready source => exact index_relabel fun _ => rfl
  | timeout id =>
      refine index_relabel fun holder => ?_
      refine Except.bind_relabel_right fun timeouts => ?_
      exact modify_relabel (fun _ => rfl) fun _ => rfl
  | _ => rfl

theorem popTask_map (task : Task) (rest : List Task) :
    (c.map f).popTask task rest = (c.popTask task rest).map (Config.map f) := by
  let l : Loop Ev := { c.loop with scheduled := rest }
  have hl : { (c.map f).loop with scheduled := rest } = l.map f := rfl
  have hl' : { c.loop with scheduled := rest } = l := rfl
  unfold popTask
  simp only [hl, hl', eventAlive_map, taskCallback_map]
  split
  · exact Except.bind_relabel fun _ => rfl
  · rfl

theorem resume_map (result : Except Error Unit) :
    (c.map f).resume result = (c.resume result).map (Config.map f) := by
  have hstack : (c.map f).stack = c.stack := rfl
  unfold resume
  rw [hstack]
  cases c.stack with
  | nil => rfl
  | cons frame rest =>
      have hactive : (c.map f).loop.active = c.loop.active := rfl
      cases frame with
      | run =>
          cases result with
          | error err => rfl
          | ok _ =>
              simp only [hactive]
              split <;> rfl
      | runUntilEmpty =>
          rcases result with err | _
          · cases err <;> rfl
          · simp only [hactive]
            split <;> rfl
      | runUntilComplete handle =>
          cases result with
          | error err => rfl
          | ok _ =>
              simp only [alive_map]
              split <;> rfl
      | _ => rfl

theorem tick_map : (c.map f).tick = c.tick.map (Config.map f) := by
  have hctl : (c.map f).ctl = c.ctl := rfl
  unfold tick
  rw [hctl]
  cases c.ctl with
  | runOne =>
      have hsched : (c.map f).loop.scheduled = c.loop.scheduled := rfl
      simp only [hsched]
      cases c.loop.scheduled with
      | nil => rfl
      | cons task rest => simp only [popTask_map, Except.mapError_map]
  | call handle cb => simp only [enter_map, Except.mapError_map]
  | ret result => exact resume_map result
  | _ => rfl

/-- The machine does not look at its events. -/
theorem step_map (a : Action Ev) : (c.map f).step (a.map f) = (c.step a).map (Config.map f) := by
  cases a with
  | call op =>
      have hctl : (c.map f).ctl = c.ctl := rfl
      simp only [step, Action.map, hctl, callOp_map]
      cases c.ctl <;> rfl
  | finish event resp =>
      have hctl : (c.map f).ctl = c.ctl := rfl
      have hstack : (c.map f).stack = c.stack := rfl
      simp only [step, Action.map, hctl, hstack]
      split
      · rename_i handle cb data rest _ _
        rw [show (c.map f).loop.eventCallLeave handle data (f event) = _ from
          eventCallLeave_map handle data event, Except.mapError_map]
        exact Except.bind_relabel fun _ => rfl
      · rfl
  | settle deregisters handler =>
      have hctl : (c.map f).ctl = c.ctl := rfl
      simp only [step, Action.map, hctl]
      split
      · rw [settle_map, Except.mapError_map]
      · rfl
  | gather env =>
      have hctl : (c.map f).ctl = c.ctl := rfl
      have hsched : (c.map f).loop.scheduled = c.loop.scheduled := rfl
      simp only [step, Action.map, hctl, hsched]
      split
      · rw [show (c.map f).loop.tasksGather env = _ from tasksGather_map env, Except.mapError_map]
        refine Except.bind_relabel ?_
        rintro ⟨_ | _, l⟩ <;> rfl
      · rfl
  | tick => exact tick_map
  | dispatch signal =>
      have hon : (c.map f).loop.signalsEnabled = c.loop.signalsEnabled := rfl
      simp only [step, Action.map, hon]
      split <;> rfl
  | remote m =>
      have hmay : mayArrive (c.map f).loop m = mayArrive c.loop m := rfl
      simp only [step, Action.map, hmay]
      split <;> rfl
  | reorderReleased order =>
      have hreleased : (c.map f).loop.iosReleased = c.loop.iosReleased := rfl
      simp only [step, Action.map, hreleased]
      split <;> rfl
  | reorderTimeouts order =>
      have htimeouts : (c.map f).loop.timeouts = c.loop.timeouts := rfl
      simp only [step, Action.map, htimeouts]
      split <;> rfl
  | reorderRecipients signum order =>
      have hrecipients : (c.map f).loop.signalRecipients = c.loop.signalRecipients := rfl
      simp only [step, Action.map, hrecipients]
      split <;> rfl

end Config

end Eveboros
