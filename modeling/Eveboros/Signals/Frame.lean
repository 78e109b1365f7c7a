import Eveboros.Loop.Polling

/-!
# What a gather leaves alone

Most parts of a gather have nothing to do with signals and children.  They neither look at the
flags and the wake-up nor touch events and registries, but for the idle queue.
-/

namespace Eveboros

variable {Ev : Type}

def Task.isChild (task : Task) : Bool :=
  match task.param with
  | .child _ _ => true
  | _ => false

/-- Children and registries are left alone. -/
structure Calm (l l' : Loop Ev) : Prop where
  events : l'.events = l.events
  children : l'.children = l.children
  recipients : l'.signalRecipients = l.signalRecipients
  enabled : l'.signalsEnabled = l.signalsEnabled
  idle : ∀ h ∈ l'.wantIdle, h ∈ l.wantIdle
  exits : l'.scheduled.filter Task.isChild = l.scheduled.filter Task.isChild

/-- So is what the dispatcher shares. -/
structure Aside (l l' : Loop Ev) : Prop extends Calm l l' where
  flags : l'.signalFlags = l.signalFlags
  wakeup : l'.signalWakeup = l.signalWakeup

variable {l l' l'' : Loop Ev}

theorem Calm.refl (l : Loop Ev) : Calm l l := ⟨rfl, rfl, rfl, rfl, fun _ h => h, rfl⟩

theorem Calm.trans (h : Calm l l') (h' : Calm l' l'') : Calm l l'' where
  events := h'.events.trans h.events
  children := h'.children.trans h.children
  recipients := h'.recipients.trans h.recipients
  enabled := h'.enabled.trans h.enabled
  idle handle hm := h.idle handle (h'.idle handle hm)
  exits := h'.exits.trans h.exits

theorem Calm.clearFlag (l : Loop Ev) (signum : Nat) : Calm l (l.clearFlag signum) :=
  ⟨rfl, rfl, rfl, rfl, fun _ h => h, rfl⟩

namespace Aside

open Loop

theorem refl (l : Loop Ev) : Aside l l := ⟨.refl l, rfl, rfl⟩

theorem trans (h : Aside l l') (h' : Aside l' l'') : Aside l l'' where
  toCalm := h.toCalm.trans h'.toCalm
  flags := h'.flags.trans h.flags
  wakeup := h'.wakeup.trans h.wakeup

/-- Tasks other than exits are added to the queue. -/
theorem adds (l : Loop Ev) {tasks : List Task} (hnone : ∀ task ∈ tasks, task.isChild = false) :
    Aside l { l with scheduled := l.scheduled ++ tasks } := by
  refine ⟨⟨rfl, rfl, rfl, rfl, fun _ h => h, ?_⟩, rfl, rfl⟩
  have hfilter : tasks.filter Task.isChild = [] := by
    apply List.filter_eq_nil_iff.mpr
    intro task hmem
    simp [hnone task hmem]
  rw [List.filter_append, hfilter, List.append_nil]

theorem schedule (l : Loop Ev) (recipient : Handle) {param : TaskParam}
    (h : Task.isChild ⟨recipient, param⟩ = false) : Aside l (l.schedule recipient param) :=
  adds l (by simpa using h)

theorem scheduleSignal (l : Loop Ev) (signal : Signal) : Aside l (l.scheduleSignal signal) := by
  apply adds l
  intro task hmem
  obtain ⟨handle, _, rfl⟩ := List.mem_map.mp hmem
  rfl

theorem allowsMessages : AllowsMessages (Aside : Loop Ev → Loop Ev → Prop) where
  refl := refl
  trans := trans
  reads _ _ := ⟨⟨rfl, rfl, rfl, rfl, fun _ h => h, rfl⟩, rfl, rfl⟩
  hands l recipient _ := schedule l recipient rfl

theorem drainReleased (h : l.drainReleased = .ok l') : Aside l l' := by
  obtain ⟨ios, _, h⟩ := Except.bind_eq_ok.mp h
  cases h
  exact ⟨⟨rfl, rfl, rfl, rfl, fun _ h => h, rfl⟩, rfl, rfl⟩

theorem timeoutMin (l : Loop Ev) (now : Nat) : Aside l (l.timeoutMin now).2 :=
  ⟨⟨rfl, rfl, rfl, rfl, fun _ h => h, rfl⟩, rfl, rfl⟩

theorem wake (l : Loop Ev) (now : Nat) : Aside l { l with now := now } :=
  ⟨⟨rfl, rfl, rfl, rfl, fun _ h => h, rfl⟩, rfl, rfl⟩

theorem timersCleanup (h : l.timersCleanup = .ok l') : Aside l l' := by
  obtain ⟨⟨dead, alive⟩, _, h⟩ := Except.bind_eq_ok.mp h
  simp only at h
  split at h <;> cases h <;> exact ⟨⟨rfl, rfl, rfl, rfl, fun _ h => h, rfl⟩, rfl, rfl⟩

theorem tasksGatherTimers (l : Loop Ev) : Aside l l.tasksGatherTimers := by
  have hadded : Aside l { l with scheduled := l.tasksGatherTimers.scheduled } := by
    apply adds l
    intro task hmem
    obtain ⟨t, _, rfl⟩ := List.mem_map.mp hmem
    rfl
  exact hadded.trans ⟨⟨rfl, rfl, rfl, rfl, fun _ h => h, rfl⟩, rfl, rfl⟩

theorem gatherIdle (l : Loop Ev) : Aside l l.gatherIdle := by
  unfold Loop.gatherIdle
  split
  · split
    · rename_i handle rest hpop
      have htaken : Aside l { l with wantIdle := rest } :=
        ⟨⟨rfl, rfl, rfl, rfl, fun h hm => (ListSet.mem_of_popFront hpop).mpr (.inr hm), rfl⟩, rfl,
          rfl⟩
      exact htaken.trans (schedule _ handle rfl)
    · exact refl l
  · exact refl l

/-- The end of a gather. -/
theorem finish (h : l.timersCleanup = .ok l') : Aside l l'.tasksGatherTimers.gatherIdle :=
  ((timersCleanup h).trans (tasksGatherTimers l')).trans (gatherIdle _)

end Aside

end Eveboros
