import Eveboros.Runs.Completion
import Eveboros.Runs.Identity

/-!
# Handles of events that are gone

Four operations take the handle of an event that they are to reach.  All but one look first whether
the event is alive.
-/

namespace Eveboros

variable {Ev : Type}

/-- The operations that reach for the event of a handle. -/
inductive HandleOp
  | send (data : AnyBox) (tp : TypeId)
  | post (data : AnyBox) (tp : TypeId)
  | channel
  | runUntilComplete

def HandleOp.op (handle : Handle) : HandleOp → Op Ev
  | .send data tp => .iface (.sendImpl handle data tp)
  | .post data tp => .iface (.postImpl handle data tp)
  | .channel => .iface (.channel handle)
  | .runUntilComplete => .iface (.runUntilComplete handle)

/-- What the operation is to answer when the event is gone. -/
def HandleOp.Refusal : HandleOp → Answer → Prop
  | .send _ _, ans => ans = .error .missing
  | .post _ _, ans => ans = .error .missing
  | .channel, ans => ∃ err, ans = .error err
  | .runUntilComplete, ans => ans = .ok .unit

namespace Config

open Loop

variable {c : Config Ev} {handle : Handle}

/-- The handle was issued, and whatever event it was issued for has died. -/
def Stale (c : Config Ev) (handle : Handle) : Prop :=
  handle ∈ c.issued ∧ c.slain.count handle = c.issued.count handle

/-- The operation answers at once, and nothing else happens. -/
def Refuses (c : Config Ev) (handle : Handle) (hop : HandleOp) : Prop :=
  ∃ ans, hop.Refusal ans ∧
    c.step (.call (hop.op handle)) = .ok (c.answer c.loop (hop.op handle) ans)

/-- In runs of few insertions, the death of the event is enough. -/
theorem Reachable.stale (h : Reachable c) (hfew : c.issued.length ≤ 2 ^ 64)
    (hslain : handle ∈ c.slain) : Stale c handle := by
  have i := h.visited.identity
  have hcount := i.alive handle
  have hpos := List.count_pos_iff.mpr hslain
  have hone := List.nodup_iff_count_le_one.mp (i.issued_nodup hfew) handle
  exact ⟨List.count_pos_iff.mp (by omega), by omega⟩

theorem Stale.dead (s : Stale c handle) (h : Reachable c) : c.loop.eventAlive handle = false := by
  have hcount := h.visited.identity.alive handle
  rw [s.2] at hcount
  cases halive : c.loop.eventAlive handle with
  | false => rfl
  | true => simp [halive] at hcount

theorem msgTypeCheck_dead (hdead : c.loop.eventAlive handle = false) (tp : TypeId) :
    c.loop.msgTypeCheck handle tp = .ok (.error .missing) := by
  simp [msgTypeCheck, hdead]

theorem sendImpl_dead (hctl : c.ctl = .user) (hdead : c.loop.eventAlive handle = false)
    (data : AnyBox) (tp : TypeId) : Refuses c handle (.send data tp) := by
  refine ⟨_, rfl, ?_⟩
  simp [HandleOp.op, step, hctl, callOp, callIface, sendImplSender, msgTypeCheck_dead hdead tp,
    Except.ok_bind, Except.pure_eq_ok, Except.mapError_ok, Except.map]

theorem postImpl_dead (hctl : c.ctl = .user) (hdead : c.loop.eventAlive handle = false)
    (data : AnyBox) (tp : TypeId) : Refuses c handle (.post data tp) := by
  refine ⟨_, rfl, ?_⟩
  simp [HandleOp.op, step, hctl, callOp, callIface, msgTypeCheck_dead hdead tp, Except.ok_bind,
    Except.pure_eq_ok, Except.mapError_ok]

theorem runUntilComplete_dead (hctl : c.ctl = .user) (hdead : c.loop.eventAlive handle = false) :
    Refuses c handle .runUntilComplete := by
  refine ⟨_, rfl, ?_⟩
  rcases runUntilComplete_cases handle hctl with ⟨_, hstep⟩ | ⟨hstolen, _⟩ | ⟨halive, _⟩
  · exact hstep
  · rw [eventAlive_of_tag hstolen] at hdead
    cases hdead
  · rw [halive] at hdead
    cases hdead

/-- A channel is made for any handle. -/
theorem channel_answers (hctl : c.ctl = .user) (handle : Handle) :
    c.step (.call (.iface (.channel handle))) =
      .ok (c.answer c.loop (.iface (.channel handle)) (.ok (.channel handle))) := by
  simp [step, hctl, callOp, callIface, Except.mapError_ok]

theorem channel_not_refused (hctl : c.ctl = .user) (handle : Handle) :
    ¬Refuses c handle .channel := by
  rintro ⟨ans, ⟨err, rfl⟩, hstep⟩
  have hanswer := channel_answers hctl handle
  rw [show c.step (.call (.iface (.channel handle))) = _ from hstep] at hanswer
  have hlog := congrArg Config.log (Except.ok.inj hanswer)
  simp [answer, HandleOp.op] at hlog

/-- Every operation but `channel` refuses a stale handle. -/
theorem stale_refused_iff_not_channel (c : Config Ev) (h : Reachable c) (hctl : c.ctl = .user)
    (handle : Handle) (hstale : Stale c handle) (hop : HandleOp) :
    Refuses c handle hop ↔ hop ≠ .channel := by
  have hdead := hstale.dead h
  cases hop with
  | send data tp => exact iff_of_true (sendImpl_dead hctl hdead data tp) nofun
  | post data tp => exact iff_of_true (postImpl_dead hctl hdead data tp) nofun
  | runUntilComplete => exact iff_of_true (runUntilComplete_dead hctl hdead) nofun
  | channel => exact iff_of_false (channel_not_refused hctl handle) fun hne => hne rfl

/-- The slot belongs to another event by now, which is inside a callback. -/
theorem stale_refused_iff_not_channel_reusedSlot :
    Refuses (after 0 reusedSlot) ⟨0, 0⟩ .runUntilComplete :=
  (stale_refused_iff_not_channel _ (reachable_after 0 reusedSlot) rfl ⟨0, 0⟩
    ((reachable_after 0 reusedSlot).stale (by decide) (by decide)) .runUntilComplete).mpr nofun

/-- Somebody gets a channel to an event that is dead. -/
theorem channel_to_dead_event :
    ∃ c' : Config Nat, Reachable (after 0 reusedSlot) ∧ ⟨0, 0⟩ ∈ (after 0 reusedSlot).slain ∧
      (after 0 reusedSlot).loop.eventAlive ⟨0, 0⟩ = false ∧
      (after 0 reusedSlot).step (.call (.iface (.channel ⟨0, 0⟩))) = .ok c' ∧
      c'.log = .answered (some ⟨0, 1⟩) (.iface (.channel ⟨0, 0⟩)) (.ok (.channel ⟨0, 0⟩)) ::
        (after 0 reusedSlot).log ∧
      ¬Refuses (after 0 reusedSlot) ⟨0, 0⟩ .channel :=
  ⟨_, reachable_after 0 reusedSlot, by decide, rfl, rfl, rfl, channel_not_refused rfl _⟩

end Config

end Eveboros
