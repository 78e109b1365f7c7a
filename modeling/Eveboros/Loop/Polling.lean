import Eveboros.Lib.Outcome
import Eveboros.Loop.Gather

/-!
# What the events of a poll do to the loop

`tasks_gather_io` changes the loop in a few ways only.  A relation that allows them, and that can be
chained, holds between the loop before it and the loop after it.
-/

namespace Eveboros

/-- The events of a poll lead to these tasks. -/
def TaskParam.FromPoll : TaskParam → Prop
  | .timeout _ => False
  | .idle => False
  | _ => True

namespace Loop

variable {Ev : Type}

/-! ## Messages -/

/-- A relation that allows what reading the channel does. -/
structure AllowsMessages (R : Loop Ev → Loop Ev → Prop) : Prop where
  refl : ∀ l, R l l
  trans : ∀ {l l' l''}, R l l' → R l' l'' → R l l''
  reads : ∀ (l : Loop Ev) rest, R l { l with receiver := rest }
  hands : ∀ (l : Loop Ev) recipient message, R l (l.schedule recipient (.message message))

namespace AllowsMessages

variable {R : Loop Ev → Loop Ev → Prop} {l l' : Loop Ev}

theorem gatherMessage (r : AllowsMessages R) {m : RemoteMessage}
    (h : l.gatherMessage m = .ok l') : R l l' := by
  unfold Loop.gatherMessage at h
  split at h
  all_goals
    obtain ⟨passed, _, hl⟩ := Except.bind_eq_ok.mp h
    cases passed with
    | ok _ =>
        cases hl
        exact r.hands _ _ _
    | error _ =>
        cases hl
        exact r.refl _

theorem gatherMessages (r : AllowsMessages R) {ms : List RemoteMessage}
    (h : Loop.gatherMessages ms l = .ok l') : R l l' := by
  induction ms generalizing l with
  | nil =>
      cases h
      exact r.refl _
  | cons m rest ih =>
      obtain ⟨l₁, hm, h⟩ := Except.bind_eq_ok.mp h
      exact r.trans (r.trans (r.reads l rest) (r.gatherMessage hm)) (ih h)

end AllowsMessages

/-! ## Children -/

/-- An exit is thrown away if nobody waits for it; else it becomes a task of the event that does,
and both sides forget the child. -/
theorem childPush_ok {l l' : Loop Ev} {pid : Pid} {exit : ChildExit}
    (h : l.childPush pid exit = .ok l') :
    l' = l ∨ ∃ handle holder events, l.events.get? handle.id = some holder ∧
      l.events.Sets handle.id
        (some { holder with children := holder.children.erase pid }) events ∧
      l' = { l with children := l.children.erase pid, events := events }.schedule handle
        (.child pid exit) := by
  unfold childPush at h
  split at h
  · cases h
    exact .inl rfl
  · rename_i handle _
    obtain ⟨_, _, h⟩ := Except.bind_eq_ok.mp h
    split at h
    · cases h
    · obtain ⟨events, hmodify, h⟩ := Except.bind_eq_ok.mp h
      obtain ⟨holder, hget, hset⟩ := Recycler.modify_ok (Except.mapError_eq_ok.mp hmodify)
      cases h
      exact .inr ⟨handle, holder, events, hget, hset, rfl⟩

/-- A relation that allows what reaping children does. -/
structure AllowsReaping (R : Loop Ev → Loop Ev → Prop) : Prop where
  refl : ∀ l, R l l
  trans : ∀ {l l' l''}, R l l' → R l' l'' → R l l''
  reaps : ∀ {l l' : Loop Ev} {pid exit}, l.childPush pid exit = .ok l' → R l l'

theorem AllowsReaping.childrenGather {R : Loop Ev → Loop Ev → Prop} {l l' : Loop Ev}
    {result : Except Error Unit} (r : AllowsReaping R) {waits : List WaitResult}
    (h : Loop.childrenGather waits l = .ok (result, l')) : R l l' := by
  induction waits generalizing l with
  | nil =>
      cases h
      exact r.refl _
  | cons answer answers ih =>
      unfold Loop.childrenGather at h
      split at h
      · cases h
        exact r.refl _
      · cases h
        exact r.refl _
      · cases h
        exact r.refl _
      · cases h
        exact r.refl _
      · obtain ⟨l₁, hpush, h⟩ := Except.bind_eq_ok.mp h
        exact r.trans (r.reaps hpush) (ih h)
      · obtain ⟨l₁, hpush, h⟩ := Except.bind_eq_ok.mp h
        exact r.trans (r.reaps hpush) (ih h)
      · cases h
      · exact ih h

/-! ## The whole poll -/

/-- A relation that allows everything that `tasks_gather_io` does. -/
structure AllowsPoll (R : Loop Ev → Loop Ev → Prop) : Prop where
  refl : ∀ l, R l l
  trans : ∀ {l l' l''}, R l l' → R l' l'' → R l l''
  adds : ∀ (l : Loop Ev) tasks, (∀ task ∈ tasks, task.param.FromPoll) →
    R l { l with scheduled := l.scheduled ++ tasks }
  reads : ∀ (l : Loop Ev) rest, R l { l with receiver := rest }
  wakes : ∀ l : Loop Ev, R l { l with signalWakeup := false }
  clears : ∀ (l : Loop Ev) signum, R l (l.clearFlag signum)
  reaps : ∀ {l l' : Loop Ev} {pid exit}, l.childPush pid exit = .ok l' → R l l'

namespace AllowsPoll

variable {R : Loop Ev → Loop Ev → Prop} {l l' : Loop Ev} {result : Except Error Unit}

theorem schedules (r : AllowsPoll R) (l : Loop Ev) (recipient : Handle) {param : TaskParam}
    (h : param.FromPoll) : R l (l.schedule recipient param) :=
  r.adds l [⟨recipient, param⟩] (by simpa using h)

theorem schedulesSignal (r : AllowsPoll R) (l : Loop Ev) (signal : Signal) :
    R l (l.scheduleSignal signal) := by
  refine r.adds l _ fun task hmem => ?_
  obtain ⟨handle, _, rfl⟩ := List.mem_map.mp hmem
  trivial

theorem messages (r : AllowsPoll R) : AllowsMessages R where
  refl := r.refl
  trans := r.trans
  reads := r.reads
  hands l recipient _ := r.schedules l recipient trivial

theorem reaping (r : AllowsPoll R) : AllowsReaping R where
  refl := r.refl
  trans := r.trans
  reaps := r.reaps

theorem scanSignal (r : AllowsPoll R) {waits : List WaitResult} {signum : Nat}
    (h : l.scanSignal waits signum = .ok (result, l')) : R l l' := by
  unfold Loop.scanSignal at h
  split at h
  · have hclear := r.clears l signum
    cases hsig : Signal.fromCInt signum with
    | none =>
        simp only [hsig, Except.ok.injEq, Prod.mk.injEq] at h
        obtain ⟨_, rfl⟩ := h
        exact hclear
    | some signal =>
        simp only [hsig] at h
        split at h
        · obtain ⟨⟨reaped, l₁⟩, hreap, h⟩ := Except.bind_eq_ok.mp h
          have hreaped := r.trans hclear (r.reaping.childrenGather hreap)
          cases reaped with
          | error err =>
              cases h
              exact hreaped
          | ok _ =>
              cases h
              exact r.trans hreaped (r.schedulesSignal l₁ _)
        · cases h
          exact r.trans hclear (r.schedulesSignal _ _)
  · cases h
    exact r.refl _

theorem scanSignals (r : AllowsPoll R) {waits : List WaitResult} {signums : List Nat}
    (h : Loop.scanSignals waits signums l = .ok (result, l')) : R l l' := by
  induction signums generalizing l with
  | nil =>
      cases h
      exact r.refl _
  | cons signum rest ih =>
      obtain ⟨⟨scanned, l₁⟩, hscan, h⟩ := Except.bind_eq_ok.mp h
      cases scanned with
      | error err =>
          cases h
          exact r.scanSignal hscan
      | ok _ => exact r.trans (r.scanSignal hscan) (ih h)

theorem gatherEvent (r : AllowsPoll R) {waits : List WaitResult} {ev : PollEvent}
    (h : l.gatherEvent waits ev = .ok (result, l')) : R l l' := by
  unfold Loop.gatherEvent at h
  split at h
  · obtain ⟨l₁, hread, h⟩ := Except.bind_eq_ok.mp h
    cases h
    exact r.messages.gatherMessages hread
  · split at h
    · exact r.trans (r.wakes l) (r.scanSignals h)
    · obtain ⟨recipient, _, h⟩ := Except.bind_eq_ok.mp h
      cases h
      exact r.schedules _ _ trivial

theorem tasksGatherIo (r : AllowsPoll R) {waits : List WaitResult} {evs : List PollEvent}
    (h : Loop.tasksGatherIo waits evs l = .ok (result, l')) : R l l' := by
  induction evs generalizing l with
  | nil =>
      cases h
      exact r.refl _
  | cons ev rest ih =>
      obtain ⟨⟨gathered, l₁⟩, hev, h⟩ := Except.bind_eq_ok.mp h
      cases gathered with
      | error err =>
          cases h
          exact r.gatherEvent hev
      | ok _ => exact r.trans (r.gatherEvent hev) (ih h)

end AllowsPoll

end Loop

end Eveboros
