import Mathlib.Data.List.Count
import Eveboros.Lib.Transition
import Eveboros.Machine.Visited
import Eveboros.Signals.Frame

/-!
# Waking up the loop

The dispatcher and the loop share the flags of the notifier and the wake-up channel.  Here a
dispatch and a scan of the flags are cut into their atomic steps, which interleave freely; between
scans the loop may do anything that is not its business with the two.  A flag that is set never
goes unnoticed.
-/

namespace Eveboros

variable {Ev : Type}

namespace Loop

/-- `notifier.flags[snum].store(true)` -/
def storeFlag (l : Loop Ev) (signum : Nat) : Loop Ev :=
  { l with signalFlags := Function.update l.signalFlags signum true }

/-- `notifier.sender.try_send(())`: a channel that is full stays full. -/
def trySend (l : Loop Ev) : Loop Ev := { l with signalWakeup := true }

/-- `signal_receiver.try_recv()`, whose result is ignored. -/
def tryRecv (l : Loop Ev) : Loop Ev := { l with signalWakeup := false }

/-- Other business of the loop: whatever it does, it leaves flags and wake-up alone. -/
def withBusiness (l l' : Loop Ev) : Loop Ev :=
  { l' with signalFlags := l.signalFlags, signalWakeup := l.signalWakeup }

theorem dispatchSignal_eq (l : Loop Ev) (signum : Nat) :
    l.dispatchSignal signum = (l.storeFlag signum).trySend := rfl

end Loop

/-- A dispatch that has set its flag and not tried to send yet. -/
structure PendingDispatch where
  id : Nat
  signum : Nat

/-- The loop together with the dispatches and the scan under way. -/
structure Watch (Ev : Type) where
  loop : Loop Ev
  dispatches : List PendingDispatch
  /-- How many dispatches have there been? -/
  begun : Nat
  /-- Ghost: the dispatches that have set the flag since it was last swapped. -/
  setBy : Nat → List Nat
  /-- What the scan of the flags looks at next, if one is going on. -/
  scan : Option Nat

inductive WatchAction (Ev : Type)
  /-- A dispatch stores the flag. -/
  | store (signal : Signal)
  /-- A dispatch sends the wake-up. -/
  | trySend (id : Nat)
  /-- The loop takes the wake-up and starts to scan. -/
  | tryRecv
  /-- The loop swaps the next flag; `waits` is what `waitpid` answers should it come to that. -/
  | swap (waits : List WaitResult)
  | work (l : Loop Ev)

/-- `waitpid` reports no other failures than the two that mean there is nothing to wait for. -/
def Expected (waits : List WaitResult) : Prop :=
  ∀ err, .error err ∈ waits → err = .sys .EAGAIN ∨ err = .sys .ECHILD

theorem expected_nil : Expected [] := fun _ hmem => absurd hmem List.not_mem_nil

def WatchAction.Expected : WatchAction Ev → Prop
  | .swap waits => Eveboros.Expected waits
  | _ => True

namespace Watch

def start (now : Nat) : Watch Ev := ⟨.new now, [], 0, fun _ => [], none⟩

def nextScan (signum : Nat) : Option Nat :=
  if signum + 1 < SIG_COUNT then some (signum + 1) else none

def step (w : Watch Ev) (a : WatchAction Ev) : Except Fault (Watch Ev) :=
  match a with
  | .store signal =>
      .ok { w with
        loop := w.loop.storeFlag signal.num
        dispatches := ⟨w.begun, signal.num⟩ :: w.dispatches
        begun := w.begun + 1
        setBy := Function.update w.setBy signal.num (w.begun :: w.setBy signal.num) }
  | .trySend id =>
      if w.dispatches.any (·.id == id) then
        .ok { w with
          loop := w.loop.trySend, dispatches := w.dispatches.filter (·.id != id) }
      else .error .disabled
  | .tryRecv =>
      match w.scan with
      | none => .ok { w with loop := w.loop.tryRecv, scan := some 0 }
      | some _ => .error .disabled
  | .swap waits =>
      match w.scan with
      | none => .error .disabled
      | some signum => do
          let (scanned, l) ← (w.loop.scanSignal waits signum).mapError .panic
          -- An error leaves the scan; the flags that come later wait for another wake-up.
          let next := match scanned with
            | .error _ => none
            | .ok () => nextScan signum
          return { w with
            loop := l, setBy := Function.update w.setBy signum [], scan := next }
  | .work l =>
      match w.scan with
      | none => .ok { w with loop := w.loop.withBusiness l }
      | some _ => .error .disabled

/-! ## What a swap does -/

section Swap

open Loop

variable {l l' : Loop Ev} {waits : List WaitResult} {signum : Nat}

/-- What reaping children may change: it schedules their exits. -/
structure Reaps (l l' : Loop Ev) : Prop where
  flags : l'.signalFlags = l.signalFlags
  wakeup : l'.signalWakeup = l.signalWakeup
  recipients : l'.signalRecipients = l.signalRecipients
  scheduled : ∃ exits, l'.scheduled = l.scheduled ++ exits ∧
    ∀ task ∈ exits, ∃ pid exit, task.param = .child pid exit

theorem Reaps.refl (l : Loop Ev) : Reaps l l := ⟨rfl, rfl, rfl, [], by simp, by simp⟩

theorem Reaps.trans {l₁ l₂ l₃ : Loop Ev} (h : Reaps l₁ l₂) (h' : Reaps l₂ l₃) : Reaps l₁ l₃ := by
  rcases h.scheduled with ⟨exits, hsched, hexits⟩
  rcases h'.scheduled with ⟨exits', hsched', hexits'⟩
  refine ⟨h'.flags.trans h.flags, h'.wakeup.trans h.wakeup, h'.recipients.trans h.recipients,
    exits ++ exits', by rw [hsched', hsched, List.append_assoc], fun task hmem => ?_⟩
  exact (List.mem_append.mp hmem).elim (hexits task) (hexits' task)

theorem childPush_reaps {pid : Pid} {exit : ChildExit} (h : l.childPush pid exit = .ok l') :
    Reaps l l' := by
  rcases childPush_ok h with rfl | ⟨_, _, _, _, _, rfl⟩
  · exact .refl _
  · exact ⟨rfl, rfl, rfl, _, rfl, by simp⟩

theorem allowsReaping_reaps : AllowsReaping (Reaps : Loop Ev → Loop Ev → Prop) where
  refl := .refl
  trans := .trans
  reaps := childPush_reaps

/-- Nothing unexpected happens to the reaping. -/
theorem childrenGather_expected {out : Except Error Unit} (hwaits : Expected waits)
    (h : childrenGather waits l = .ok (out, l')) : out = .ok () := by
  induction waits generalizing l with
  | nil =>
      cases h
      rfl
  | cons answer answers ih =>
      have hrest : Expected answers := fun err hmem => hwaits err (List.mem_cons_of_mem _ hmem)
      unfold childrenGather at h
      split at h
      · cases h; rfl
      · cases h; rfl
      · cases h; rfl
      · rename_i err hagain hchild
        rcases hwaits err List.mem_cons_self with rfl | rfl
        · exact absurd rfl hagain
        · exact absurd rfl hchild
      · obtain ⟨l₁, _, h⟩ := Except.bind_eq_ok.mp h
        exact ih hrest h
      · obtain ⟨l₁, _, h⟩ := Except.bind_eq_ok.mp h
        exact ih hrest h
      · cases h
      · exact ih hrest h

/-- Passing a signal on adds one task for each recipient. -/
theorem count_scheduleSignal (l : Loop Ev) (signal : Signal) (handle : Handle) :
    (l.scheduleSignal signal).scheduled.count ⟨handle, .signal signal⟩ =
      l.scheduled.count ⟨handle, .signal signal⟩ +
        if handle ∈ l.signalRecipients signal.num then 1 else 0 := by
  have hone : ((l.signalRecipients signal.num).toList.map
      fun handle => (⟨handle, .signal signal⟩ : Task)).count ⟨handle, .signal signal⟩ =
        (l.signalRecipients signal.num).toList.count handle :=
    List.count_map_of_injective _ (fun h => (⟨h, .signal signal⟩ : Task))
      (fun _ _ heq => (Task.mk.inj heq).1) handle
  rw [scheduleSignal, List.count_append, hone,
    List.Nodup.count (l.signalRecipients signal.num).nodup]
  rfl

/-- The swap of a flag that is not set. -/
theorem scanSignal_unset {out : Except Error Unit} (hflag : l.signalFlags signum = false)
    (h : l.scanSignal waits signum = .ok (out, l')) : out = .ok () ∧ l' = l := by
  simp only [scanSignal, hflag, Bool.false_eq_true, ↓reduceIte] at h
  cases h
  exact ⟨rfl, rfl⟩

/-- The swap of a flag that is set: one task for each recipient, after the exits of children. -/
theorem scanSignal_set {signal : Signal} {out : Except Error Unit} (hwaits : Expected waits)
    (hflag : l.signalFlags signal.num = true)
    (h : l.scanSignal waits signal.num = .ok (out, l')) :
    out = .ok () ∧ ∃ l₁, Reaps (l.clearFlag signal.num) l₁ ∧ l' = l₁.scheduleSignal signal := by
  simp only [scanSignal, hflag, ↓reduceIte, Signal.fromCInt_num] at h
  split at h
  · obtain ⟨⟨reaped, l₁⟩, hreap, h⟩ := Except.bind_eq_ok.mp h
    obtain rfl := childrenGather_expected hwaits hreap
    cases h
    exact ⟨rfl, l₁, allowsReaping_reaps.childrenGather hreap, rfl⟩
  · cases h
    exact ⟨rfl, _, .refl _, rfl⟩

/-- In both cases the flag is clear afterwards, and the others and the wake-up are as before. -/
theorem scanSignal_notifier {out : Except Error Unit} (hwaits : Expected waits)
    (hvalid : l.signalFlags signum = true → ∃ signal : Signal, signal.num = signum)
    (h : l.scanSignal waits signum = .ok (out, l')) :
    out = .ok () ∧ l'.signalFlags = Function.update l.signalFlags signum false ∧
      l'.signalWakeup = l.signalWakeup := by
  cases hflag : l.signalFlags signum with
  | false =>
      obtain ⟨rfl, rfl⟩ := scanSignal_unset hflag h
      exact ⟨rfl, (Function.update_eq_self_iff.mpr hflag.symm).symm, rfl⟩
  | true =>
      obtain ⟨signal, rfl⟩ := hvalid hflag
      obtain ⟨rfl, l₁, hreaps, rfl⟩ := scanSignal_set hwaits hflag h
      exact ⟨rfl, hreaps.flags, hreaps.wakeup⟩

end Swap

/-! ## No signal is lost -/

structure Noticed (w : Watch Ev) : Prop where
  valid (signum id : Nat) : id ∈ w.setBy signum → ∃ signal : Signal, signal.num = signum
  /-- Some dispatch has set the flag. -/
  set (signum : Nat) : w.loop.signalFlags signum = true → w.setBy signum ≠ []
  /-- Someone still has to see what the dispatch has done: the loop will wake up, be woken up by it,
  or get there. -/
  noticed (signum id : Nat) : id ∈ w.setBy signum → w.loop.signalWakeup = true ∨
    ⟨id, signum⟩ ∈ w.dispatches ∨ ∃ next, w.scan = some next ∧ next ≤ signum

variable {w w' : Watch Ev} {a : WatchAction Ev}

theorem Noticed.valid_flag (n : Noticed w) {signum : Nat}
    (hflag : w.loop.signalFlags signum = true) : ∃ signal : Signal, signal.num = signum := by
  obtain ⟨id, hid⟩ := List.exists_mem_of_ne_nil _ (n.set signum hflag)
  exact n.valid signum id hid

theorem noticed_store (n : Noticed w) (signal : Signal) (h : w.step (.store signal) = .ok w') :
    Noticed w' := by
  cases h
  have hset (signum id : Nat)
      (hid : id ∈ Function.update w.setBy signal.num (w.begun :: w.setBy signal.num) signum) :
      id = w.begun ∧ signum = signal.num ∨ id ∈ w.setBy signum := by
    by_cases heq : signum = signal.num
    · subst heq
      rw [Function.update_self] at hid
      exact (List.mem_cons.mp hid).imp_left fun h => ⟨h, rfl⟩
    · rw [Function.update_of_ne heq] at hid
      exact .inr hid
  refine ⟨fun signum id hid => ?_, fun signum hflag => ?_, fun signum id hid => ?_⟩
  · rcases hset signum id hid with ⟨_, rfl⟩ | hold
    · exact ⟨signal, rfl⟩
    · exact n.valid signum id hold
  · by_cases heq : signum = signal.num
    · subst heq
      simp
    · have hold : w.loop.signalFlags signum = true := by
        simpa [Loop.storeFlag, heq] using hflag
      simpa [heq] using n.set signum hold
  · rcases hset signum id hid with ⟨rfl, rfl⟩ | hold
    · exact .inr (.inl List.mem_cons_self)
    · rcases n.noticed signum id hold with h | h | h
      · exact .inl h
      · exact .inr (.inl (List.mem_cons_of_mem _ h))
      · exact .inr (.inr h)

theorem noticed_swap (n : Noticed w) {waits : List WaitResult} {signum : Nat}
    {out : Except Error Unit} {l : Loop Ev} (hwaits : Expected waits)
    (hscan : w.scan = some signum) (h : w.loop.scanSignal waits signum = .ok (out, l)) :
    out = .ok () ∧ Noticed { w with
      loop := l, setBy := Function.update w.setBy signum [], scan := nextScan signum } := by
  obtain ⟨hout, hflags, hwakeup⟩ := scanSignal_notifier hwaits n.valid_flag h
  have hother (other id : Nat) (hid : id ∈ Function.update w.setBy signum [] other) :
      other ≠ signum ∧ id ∈ w.setBy other := by
    rw [Function.update_apply] at hid
    split at hid
    · cases hid
    · exact ⟨‹_›, hid⟩
  refine ⟨hout, ⟨fun other id hid => n.valid other id (hother other id hid).2,
    fun other hflag => ?_, fun other id hid => ?_⟩⟩
  · rw [hflags, Function.update_apply] at hflag
    split at hflag
    · cases hflag
    · rename_i hne
      simpa [hne] using n.set other hflag
  obtain ⟨hne, hold⟩ := hother other id hid
  rcases n.noticed other id hold with h | h | ⟨next, hnext, hle⟩
  · exact .inl (hwakeup.trans h)
  · exact .inr (.inl h)
  · -- The scan has not been there yet, and every valid number lies below its end.
    rw [hscan, Option.some.injEq] at hnext
    obtain ⟨signal, rfl⟩ := n.valid other id hold
    have hlt := signal.lt
    refine .inr (.inr ⟨signum + 1, ?_, by omega⟩)
    rw [nextScan, if_pos (by omega)]

theorem noticed_step (n : Noticed w) (ha : a.Expected) (h : w.step a = .ok w') : Noticed w' := by
  cases a with
  | store signal => exact noticed_store n signal h
  | trySend id =>
      simp only [step] at h
      split at h
      · cases h
        exact ⟨n.valid, n.set, fun _ _ _ => .inl rfl⟩
      · cases h
  | tryRecv =>
      simp only [step] at h
      split at h
      · cases h
        exact ⟨n.valid, n.set, fun signum _ _ => .inr (.inr ⟨0, rfl, Nat.zero_le signum⟩)⟩
      · cases h
  | swap waits =>
      simp only [step] at h
      split at h
      · cases h
      · rename_i signum hscan
        obtain ⟨⟨out, l⟩, hswap, h⟩ := Except.bind_eq_ok.mp h
        obtain ⟨rfl, hnoticed⟩ := noticed_swap n ha hscan (Except.mapError_eq_ok.mp hswap)
        cases h
        exact hnoticed
  | work l =>
      simp only [step] at h
      split at h
      · cases h
        exact ⟨n.valid, n.set, n.noticed⟩
      · cases h

/-- Reached from a fresh loop by steps in which `waitpid` does not fail unexpectedly. -/
def Seen (w : Watch Ev) : Prop :=
  ∃ now, TransitionSystem.Reach step (fun _ a => a.Expected) (start now) w

theorem Seen.step (h : Seen w) (ha : a.Expected) (hs : w.step a = .ok w') : Seen w' :=
  let ⟨now, h⟩ := h
  ⟨now, h.next ha hs⟩

theorem Seen.noticed (h : Seen w) : Noticed w := by
  rcases h with ⟨now, h⟩
  refine h.invariant ⟨?_, ?_, ?_⟩ fun _ _ _ n ha hs => noticed_step n ha hs
  · intro signum id hid
    cases hid
  · intro signum hflag
    cases hflag
  · intro signum id hid
    cases hid

/-- A swap that finds the flag set schedules one task for each recipient, and no other event gets
the signal. -/
theorem swap_schedules {signal : Signal} {waits : List WaitResult} (hwaits : Expected waits)
    (hscan : w.scan = some signal.num) (hflag : w.loop.signalFlags signal.num = true)
    (h : w.step (.swap waits) = .ok w') (handle : Handle) :
    w'.loop.scheduled.count ⟨handle, .signal signal⟩ =
      w.loop.scheduled.count ⟨handle, .signal signal⟩ +
        if handle ∈ w.loop.signalRecipients signal.num then 1 else 0 := by
  simp only [step, hscan] at h
  obtain ⟨⟨out, l⟩, hswap, h⟩ := Except.bind_eq_ok.mp h
  obtain ⟨rfl, l₁, hreaps, rfl⟩ := scanSignal_set hwaits hflag (Except.mapError_eq_ok.mp hswap)
  cases h
  rcases hreaps.scheduled with ⟨exits, hsched, hexits⟩
  have hnone : exits.count ⟨handle, .signal signal⟩ = 0 := by
    apply List.count_eq_zero.mpr
    intro hmem
    obtain ⟨pid, exit, ⟨⟩⟩ := hexits _ hmem
  have hrecipients : l₁.signalRecipients signal.num = w.loop.signalRecipients signal.num :=
    congrFun hreaps.recipients signal.num
  rw [count_scheduleSignal, hsched, List.count_append, hnone, hrecipients, Nat.add_zero]
  rfl

/-- What sets a flag never goes unnoticed: there is a wake-up, or the very dispatch that has set the
flag will send one, or a scan will get to the flag.  Whoever swaps it tells each recipient once. -/
theorem no_signal_lost (w : Watch Ev) (h : Seen w) :
    (∀ signum, w.loop.signalFlags signum = true → w.setBy signum ≠ [] ∧
      ∀ id ∈ w.setBy signum, w.loop.signalWakeup = true ∨
        ⟨id, signum⟩ ∈ w.dispatches ∨ ∃ next, w.scan = some next ∧ next ≤ signum) ∧
    ∀ signal waits w', w.scan = some signal.num → w.loop.signalFlags signal.num = true →
      Expected waits → w.step (.swap waits) = .ok w' → ∀ handle,
        w'.loop.scheduled.count ⟨handle, .signal signal⟩ =
          w.loop.scheduled.count ⟨handle, .signal signal⟩ +
            if handle ∈ w.loop.signalRecipients signal.num then 1 else 0 :=
  ⟨fun signum hflag => ⟨h.noticed.set signum hflag, h.noticed.noticed signum⟩,
    fun _ _ _ hscan hflag hwaits hstep => swap_schedules hwaits hscan hflag hstep⟩

theorem Seen.run (h : Seen w) (as : List (WatchAction Ev)) (hall : ∀ a ∈ as, a.Expected)
    (hrun : TransitionSystem.run Watch.step w as = .ok w') : Seen w' :=
  (TransitionSystem.Reach.of_run_forall (P := fun _ a => a.Expected)
    (fun a ha _ => hall a ha) hrun).invariant h fun _ _ _ hseen ha hs => hseen.step ha hs

/-- A signal that one event waits for arrives, and the scan gets to its flag. -/
def userSignal : List (WatchAction Unit) :=
  [.work { (Loop.new 0 : Loop Unit) with
      signalRecipients := Function.update (fun _ => ∅) 10 ((∅ : ListSet Handle).insert ⟨0, 0⟩) },
    .store ⟨10, by decide, by decide⟩, .trySend 0, .tryRecv] ++ List.replicate 10 (.swap [])

theorem no_signal_lost_userSignal :
    ∃ w w' : Watch Unit, TransitionSystem.run Watch.step (start 0) userSignal = .ok w ∧
      w.step (.swap []) = .ok w' ∧
      w'.loop.scheduled.count ⟨⟨0, 0⟩, .signal ⟨10, by decide, by decide⟩⟩ = 1 := by
  obtain ⟨w, w', hrun, hstep, hscan, hflag, hempty, hmem⟩ : ∃ w w' : Watch Unit,
      TransitionSystem.run Watch.step (start 0) userSignal = .ok w ∧
      w.step (.swap []) = .ok w' ∧ w.scan = some 10 ∧ w.loop.signalFlags 10 = true ∧
      w.loop.scheduled = [] ∧ ⟨0, 0⟩ ∈ w.loop.signalRecipients 10 :=
    ⟨_, _, rfl, rfl, rfl, rfl, rfl, by decide⟩
  have hseen : Seen w := Seen.run ⟨0, .start⟩ userSignal
    (by simp [userSignal, WatchAction.Expected, Expected]) hrun
  have hcount := (no_signal_lost w hseen).2 ⟨10, by decide, by decide⟩ [] w' hscan hflag
    expected_nil hstep ⟨0, 0⟩
  rw [hempty, if_pos hmem] at hcount
  exact ⟨w, w', hrun, hstep, hcount⟩

/-! ## The gathers of the loop

A dispatch and a gather of the whole loop are runs of the atomic steps in which nobody
interferes. -/

/-- The part of the loop that the dispatcher shares. -/
def notifier (l : Loop Ev) : (Nat → Bool) × Bool := (l.signalFlags, l.signalWakeup)

/-- The loop at a moment when no dispatch is under way. -/
def Undisturbed (l : Loop Ev) (scan : Option Nat) : Prop :=
  ∃ begun setBy, Seen ⟨l, [], begun, setBy, scan⟩

theorem Undisturbed.work {l l' : Loop Ev} (h : Undisturbed l none)
    (hsame : notifier l' = notifier l) : Undisturbed l' none := by
  obtain ⟨begun, setBy, h⟩ := h
  obtain ⟨hflags, hwakeup⟩ := Prod.mk.inj hsame
  have heq : l.withBusiness l' = l' := by
    rw [Loop.withBusiness, ← hflags, ← hwakeup]
  exact ⟨begun, setBy, heq ▸ h.step (a := .work l') trivial rfl⟩

theorem Undisturbed.dispatch {l : Loop Ev} (h : Undisturbed l none) (signal : Signal) :
    Undisturbed (l.dispatchSignal signal.num) none := by
  obtain ⟨begun, setBy, h⟩ := h
  have hstore := h.step (a := .store signal) trivial rfl
  refine ⟨begun + 1, Function.update setBy signal.num (begun :: setBy signal.num),
    hstore.step (a := .trySend begun) trivial ?_⟩
  simp [Watch.step, Loop.dispatchSignal_eq]

theorem Undisturbed.tryRecv {l : Loop Ev} (h : Undisturbed l none) :
    Undisturbed l.tryRecv (some 0) := by
  obtain ⟨begun, setBy, h⟩ := h
  exact ⟨begun, setBy, h.step (a := .tryRecv) trivial rfl⟩

/-- One swap. -/
theorem Undisturbed.swap {waits : List WaitResult} (hwaits : Expected waits) {signum : Nat}
    {l l' : Loop Ev} {out : Except Error Unit} (h : Undisturbed l (some signum))
    (hswap : l.scanSignal waits signum = .ok (out, l')) :
    out = .ok () ∧ Undisturbed l' (nextScan signum) := by
  obtain ⟨begun, setBy, h⟩ := h
  obtain ⟨rfl, _⟩ := noticed_swap h.noticed hwaits rfl hswap
  refine ⟨rfl, begun, Function.update setBy signum [], h.step (a := .swap waits) hwaits ?_⟩
  simp only [Watch.step, hswap, Except.ok_bind, Except.pure_eq_ok, Except.mapError_ok]

/-- The rest of a scan without interference. -/
theorem Undisturbed.scan {waits : List WaitResult} (hwaits : Expected waits) (left signum : Nat)
    (hlast : signum + (left + 1) = SIG_COUNT) {l l' : Loop Ev} {out : Except Error Unit}
    (h : Undisturbed l (some signum))
    (hscan : Loop.scanSignals waits (List.range' signum (left + 1)) l = .ok (out, l')) :
    out = .ok () ∧ Undisturbed l' none := by
  induction left generalizing signum l with
  | zero =>
      obtain ⟨⟨out₁, l₁⟩, hswap, hrest⟩ := Except.bind_eq_ok.mp hscan
      obtain ⟨rfl, h₁⟩ := h.swap hwaits hswap
      cases hrest
      have hend : nextScan signum = none := if_neg (by omega)
      exact ⟨rfl, hend ▸ h₁⟩
  | succ left ih =>
      obtain ⟨⟨out₁, l₁⟩, hswap, hrest⟩ := Except.bind_eq_ok.mp hscan
      obtain ⟨rfl, h₁⟩ := h.swap hwaits hswap
      have hnext : nextScan signum = some (signum + 1) := if_pos (by omega)
      exact ih (signum + 1) (by omega) (hnext ▸ h₁) hrest

theorem notifier_aside {l l' : Loop Ev} (h : Aside l l') : notifier l' = notifier l :=
  Prod.ext h.flags h.wakeup

/-- One event of the poll. -/
theorem Undisturbed.gatherEvent {waits : List WaitResult} (hwaits : Expected waits) {l l' : Loop Ev}
    {ev : PollEvent} {out : Except Error Unit} (h : Undisturbed l none)
    (hev : l.gatherEvent waits ev = .ok (out, l')) : out = .ok () ∧ Undisturbed l' none := by
  unfold Loop.gatherEvent at hev
  split at hev
  · obtain ⟨l₁, hmessages, hev⟩ := Except.bind_eq_ok.mp hev
    cases hev
    exact ⟨rfl, h.work (notifier_aside (Aside.allowsMessages.gatherMessages hmessages))⟩
  · split at hev
    · rw [List.range_eq_range'] at hev
      exact h.tryRecv.scan hwaits 31 0 rfl hev
    · obtain ⟨recipient, _, hev⟩ := Except.bind_eq_ok.mp hev
      cases hev
      exact ⟨rfl, h.work rfl⟩

theorem Undisturbed.tasksGatherIo {waits : List WaitResult} (hwaits : Expected waits)
    {evs : List PollEvent} {l l' : Loop Ev} {out : Except Error Unit} (h : Undisturbed l none)
    (hio : Loop.tasksGatherIo waits evs l = .ok (out, l')) :
    out = .ok () ∧ Undisturbed l' none := by
  induction evs generalizing l with
  | nil =>
      cases hio
      exact ⟨rfl, h⟩
  | cons ev rest ih =>
      obtain ⟨⟨gathered, l₁⟩, hev, hio⟩ := Except.bind_eq_ok.mp hio
      obtain ⟨rfl, h₁⟩ := h.gatherEvent hwaits hev
      exact ih h₁ hio

/-- A whole gather. -/
theorem Undisturbed.tasksGather {env : GatherEnv} (hwaits : Expected env.waits) {l l' : Loop Ev}
    {result : Except Error Unit} (h : Undisturbed l none)
    (hgather : l.tasksGather env = .ok (result, l')) : Undisturbed l' none := by
  obtain ⟨polled, hpoll, hgather⟩ := Except.bind_eq_ok.mp hgather
  unfold Loop.tasksPoll at hpoll
  split at hpoll
  · cases hpoll
  obtain ⟨l₁, hdrain, hpoll⟩ := Except.bind_eq_ok.mp hpoll
  have h₁ : Undisturbed l₁ none := h.work (notifier_aside (.drainReleased hdrain))
  obtain ⟨empty, _, hpoll⟩ := Except.bind_eq_ok.mp hpoll
  split at hpoll
  · cases hpoll
    cases hgather
    exact h₁
  simp only at hpoll
  split at hpoll
  · cases hpoll
    cases hgather
    exact h₁.work rfl
  · cases hpoll
    cases hgather
    exact h₁.work rfl
  · rename_i events _
    obtain ⟨⟨gathered, l₂⟩, hio, hpoll⟩ := Except.bind_eq_ok.mp hpoll
    have hwoken : Undisturbed { (l₁.timeoutMin env.now).2 with now := env.wake } none :=
      h₁.work rfl
    obtain ⟨rfl, h₂⟩ := hwoken.tasksGatherIo hwaits hio
    cases hpoll
    obtain ⟨l₃, hclean, hgather⟩ := Except.bind_eq_ok.mp hgather
    cases hgather
    exact h₂.work (notifier_aside (.finish hclean))

/-- Steps outside of gathers and dispatches do not touch what the dispatcher shares. -/
theorem notifier_step {c c' : Config Ev} {a : Action Ev} (h : c.step a = .ok c')
    (hg : ¬a.IsGather) (hd : ∀ signal, a ≠ .dispatch signal) :
    notifier c'.loop = notifier c.loop := by
  have e := Config.step_edit h (by rintro env rfl; exact hg trivial)
  cases e with
  | notified signal ha => exact absurd ha (hd signal)
  | wakeupTaken ha => exact absurd ha hg
  | flagCleared signum ha => exact absurd ha hg
  | _ => rfl

/-- `waitpid` behaves during the gathers. -/
def Waits (_ : Config Ev) : Action Ev → Prop
  | .gather env => Expected env.waits
  | _ => True

/-- The loop as a whole is one of the watches: between its steps a signal that is flagged has a
wake-up in the channel. -/
theorem seen_loop {now : Nat} {c : Config Ev}
    (h : TransitionSystem.Reach Config.step Waits (.init now) c) : Undisturbed c.loop none := by
  refine h.invariant (Q := fun c => Undisturbed c.loop none) ⟨0, _, now, .start⟩
    fun c c' a hseen ha hs => ?_
  by_cases hg : ∃ env, a = .gather env
  · rcases hg with ⟨env, rfl⟩
    obtain ⟨result, hgather⟩ := Config.gather_result hs
    exact hseen.tasksGather ha hgather
  · by_cases hd : ∃ signal, a = .dispatch signal
    · rcases hd with ⟨signal, rfl⟩
      simp only [Config.step] at hs
      split at hs
      · cases hs
        exact hseen.dispatch signal
      · cases hs
    · refine hseen.work (notifier_step hs ?_ (not_exists.mp hd))
      intro hgather
      cases a <;> first | exact hgather.elim | exact hg ⟨_, rfl⟩

theorem flagged_has_wakeup {now : Nat} {c : Config Ev}
    (h : TransitionSystem.Reach Config.step Waits (.init now) c) {signum : Nat}
    (hflag : c.loop.signalFlags signum = true) : c.loop.signalWakeup = true := by
  obtain ⟨begun, setBy, hseen⟩ := seen_loop h
  obtain ⟨id, hid⟩ := List.exists_mem_of_ne_nil _ (hseen.noticed.set signum hflag)
  rcases hseen.noticed.noticed signum id hid with hw | hd | ⟨_, hs, _⟩
  · exact hw
  · cases hd
  · cases hs

end Watch

end Eveboros
