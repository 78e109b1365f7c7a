import Mathlib.Algebra.Order.Group.Multiset
import Mathlib.Tactic.Abel
import Eveboros.Runs.Registries

/-!
# The exits that events are still to hear of

A child is tracked until it is reaped; then its exit waits in the queue until it is dispatched.  A
step of the loop passes an exit on, and it gets lost only with the event, or because that is busy.
-/

namespace Eveboros

variable {Ev : Type}

/-- Whose child has exited, if the task is about that. -/
def Task.exit (task : Task) : Option (Handle × Pid) :=
  match task.param with
  | .child pid _ => some (task.recipient, pid)
  | _ => none

def Ctl.exit : Ctl → Option (Handle × Pid)
  | .call handle (.child pid _) => some (handle, pid)
  | _ => none

namespace Loop

variable {l l' : Loop Ev}

/-- Who tracks which children. -/
def tracked (l : Loop Ev) : Multiset (Handle × Pid) :=
  ↑(l.children.entries.map fun entry => (entry.2, entry.1))

theorem mem_tracked {handle : Handle} {pid : Pid} :
    (handle, pid) ∈ l.tracked ↔ l.children.lookup pid = some handle := by
  rw [← Option.mem_def, AList.mem_lookup_iff, tracked, Multiset.mem_coe, List.mem_map]
  constructor
  · rintro ⟨⟨pid', handle'⟩, hmem, heq⟩
    obtain ⟨rfl, rfl⟩ := Prod.mk.inj heq
    exact hmem
  · intro hmem
    exact ⟨⟨pid, handle⟩, hmem, rfl⟩

theorem tracked_insert {handle : Handle} {pid : Pid} (hnew : pid ∉ l.children)
    (hchildren : l'.children = l.children.insert pid handle) :
    l'.tracked = (handle, pid) ::ₘ l.tracked := by
  rw [tracked, hchildren, AList.entries_insert_of_notMem hnew]
  rfl

theorem tracked_erase {handle : Handle} {pid : Pid}
    (hlookup : l.children.lookup pid = some handle)
    (hchildren : l'.children = l.children.erase pid) :
    l.tracked = (handle, pid) ::ₘ l'.tracked := by
  have hmem : pid ∈ l.children.entries.keys :=
    List.dlookup_isSome.mp (Option.isSome_iff_exists.mpr ⟨handle, hlookup⟩)
  obtain ⟨handle', front, back, hfront, hentries, herased⟩ := List.exists_of_kerase hmem
  have hheld : (⟨pid, handle'⟩ : (_ : Pid) × Handle) ∈ l.children.entries := by
    rw [hentries]
    simp
  obtain rfl : handle' = handle :=
    Option.some.inj ((AList.mem_lookup_iff.mpr hheld : _).symm.trans hlookup)
  have hrest : l'.children.entries = front ++ back := by rw [hchildren, ← herased]; rfl
  rw [tracked, tracked, hentries, hrest, Multiset.cons_coe, Multiset.coe_eq_coe, List.map_append,
    List.map_cons, List.map_append]
  exact List.perm_middle

end Loop

namespace Config

open Loop

variable {c c' : Config Ev} {a : Action Ev}

/-- The exits that are still to come, wait in the queue or are just being passed on. -/
def awaited (c : Config Ev) : Multiset (Handle × Pid) :=
  c.loop.tracked + ↑(c.loop.scheduled.filterMap Task.exit) + ↑c.ctl.exit.toList

/-- What an elementary change makes of the awaited exits. -/
inductive Awaits (a : Action Ev) (c c' : Config Ev) : Prop
  | same (h : c'.awaited = c.awaited)
  /-- An event asks for one more. -/
  | asked (handle : Handle) (pid : Pid) (ha : a = .call (.scope (.child pid)))
      (hcaller : c.caller = some handle) (h : c'.awaited = (handle, pid) ::ₘ c.awaited)
  /-- An event is called, or misses its call. -/
  | heard (handle : Handle) (cb : Callback) (ha : a = .tick) (hctl : c.ctl = .call handle cb)
      (h : c.awaited = ↑c.ctl.exit.toList + c'.awaited)
  /-- The event of a task is dead. -/
  | dropped (task : Task) (ha : a = .tick) (hmem : task ∈ c.loop.scheduled)
      (hdead : c.loop.eventAlive task.recipient = false)
      (h : c.awaited = ↑task.exit.toList + c'.awaited)
  /-- An event dies. -/
  | died (handle : Handle) (resp : Response) (ha : a.IsSettle)
      (hctl : c.ctl = .settle handle resp) (hresp : resp ≠ .ok true)
      (h : (∀ pid, c.loop.children.lookup pid ≠ some handle) → c'.awaited = c.awaited)

theorem awaited_congr (htracked : c'.loop.tracked = c.loop.tracked)
    (hsched : c'.loop.scheduled.filterMap Task.exit = c.loop.scheduled.filterMap Task.exit)
    (hctl : c'.ctl.exit = c.ctl.exit) : c'.awaited = c.awaited := by
  rw [awaited, awaited, htracked, hsched, hctl]

/-- Tasks of other kinds join the queue. -/
theorem awaited_scheduled {tasks : List Task} (h : ∀ task ∈ tasks, task.exit = none)
    (htracked : c'.loop.tracked = c.loop.tracked)
    (hsched : c'.loop.scheduled = c.loop.scheduled ++ tasks) (hctl : c'.ctl.exit = c.ctl.exit) :
    c'.awaited = c.awaited := by
  refine awaited_congr htracked ?_ hctl
  rw [hsched, List.filterMap_append, List.filterMap_eq_nil_iff.mpr h, List.append_nil]

theorem exits_cons {task : Task} {rest : List Task} (hsched : c.loop.scheduled = task :: rest) :
    c.loop.scheduled.filterMap Task.exit = task.exit.toList ++ rest.filterMap Task.exit := by
  rw [hsched, List.filterMap_cons]
  cases task.exit <;> rfl

/-- A task leaves the queue, and nobody is called. -/
theorem awaited_taken {task : Task} {rest : List Task} (hsched : c.loop.scheduled = task :: rest)
    (htracked : c'.loop.tracked = c.loop.tracked) (hsched' : c'.loop.scheduled = rest)
    (hctl : c.ctl.exit = none) (hctl' : c'.ctl.exit = none) :
    c.awaited = ↑task.exit.toList + c'.awaited := by
  rw [awaited, awaited, htracked, hsched', exits_cons hsched, hctl, hctl', ← Multiset.coe_add]
  abel

/-- A task leaves the queue, and what it says is passed on. -/
theorem awaited_passed {task : Task} {rest : List Task} (hsched : c.loop.scheduled = task :: rest)
    (htracked : c'.loop.tracked = c.loop.tracked) (hsched' : c'.loop.scheduled = rest)
    (hctl : c.ctl.exit = none) (hctl' : c'.ctl.exit = task.exit) : c'.awaited = c.awaited := by
  rw [awaited, awaited, htracked, hsched', exits_cons hsched, hctl, hctl', ← Multiset.coe_add,
    Option.toList_none, Multiset.coe_nil]
  abel

/-- The exit that was being passed on is not any more. -/
theorem awaited_heard (htracked : c'.loop.tracked = c.loop.tracked)
    (hsched : c'.loop.scheduled = c.loop.scheduled) (hctl : c'.ctl.exit = none) :
    c.awaited = ↑c.ctl.exit.toList + c'.awaited := by
  rw [awaited, awaited, htracked, hsched, hctl, Option.toList_none, Multiset.coe_nil, add_zero,
    add_comm]

/-- An event asks for the exit of one more child. -/
theorem awaited_asked {pid : Pid} {handle : Handle} (hnew : pid ∉ c.loop.children)
    (hchildren : c'.loop.children = c.loop.children.insert pid handle)
    (hsched : c'.loop.scheduled = c.loop.scheduled) (hctl : c'.ctl = c.ctl) :
    c'.awaited = (handle, pid) ::ₘ c.awaited := by
  rw [awaited, awaited, tracked_insert hnew hchildren, hsched, hctl]
  simp only [Multiset.cons_add]

theorem awaited_reaped {pid : Pid} {exit : ChildExit} {handle : Handle}
    (hlookup : c.loop.children.lookup pid = some handle)
    (hchildren : c'.loop.children = c.loop.children.erase pid)
    (hsched : c'.loop.scheduled = c.loop.scheduled ++ [⟨handle, .child pid exit⟩])
    (hctl : c'.ctl = c.ctl) : c'.awaited = c.awaited := by
  have hqueue : c'.loop.scheduled.filterMap Task.exit =
      c.loop.scheduled.filterMap Task.exit ++ [(handle, pid)] := by
    rw [hsched, List.filterMap_append]
    rfl
  rw [awaited, awaited, hqueue, hctl, tracked_erase hlookup hchildren, ← Multiset.coe_add,
    Multiset.coe_singleton, Multiset.cons_add, Multiset.cons_add, ← Multiset.singleton_add]
  abel

theorem Edit.awaits (d : Discipline c) (r : c.loop.Registries) (e : Edit a c c') :
    Awaits a c c' := by
  cases e with
  | tracked pid handle holder events ha hctl hcaller hget hfresh hset =>
      exact .asked handle pid ha hcaller (awaited_asked hfresh rfl rfl rfl)
  | reaped pid exit handle holder events ha hctl hlookup hget hmem hset =>
      exact .same (awaited_reaped hlookup rfl rfl rfl)
  | entered handle cb _ _ ha hctl | turnedAway handle cb _ ha hctl =>
      exact .heard handle cb ha hctl (awaited_heard rfl rfl rfl)
  | killed handle resp result holder events deregisters handler ha hctl hresp hget hfree hset =>
      refine .died handle resp (ha ▸ trivial) hctl ?_ fun hnone => ?_
      · rcases hresp with ⟨rfl, _⟩ | ⟨err, rfl, _⟩ <;> simp
      · have hkin : c.loop.kin handle.id = some (handle.generation, holder.children) := by
          rw [kin_of_get? hget, ← d.settling_gen hctl hget]
        have hempty : holder.children.toList = [] := by
          refine List.eq_nil_iff_forall_not_mem.mpr fun pid hmem => hnone pid ?_
          exact (r.children pid handle).mpr ⟨holder.children, hkin, hmem⟩
        refine awaited_congr ?_ rfl (by rw [hctl]; rfl)
        rw [Loop.tracked, hempty]
        rfl
  | dropped task rest ha hctl hsched hdead =>
      exact .dropped task ha (by rw [hsched]; exact List.mem_cons_self) hdead
        (awaited_taken hsched rfl rfl (by rw [hctl]; rfl) (by rw [hctl]; rfl))
  | passed task rest holder ha hctl hsched =>
      refine .same (awaited_passed hsched rfl rfl (by rw [hctl]; rfl) ?_)
      cases hparam : task.param <;> simp [Ctl.exit, Task.exit, TaskParam.callback, hparam]
  | lost task rest id ready source holder ha hctl hsched hparam =>
      refine .same (awaited_passed hsched rfl rfl (by rw [hctl]; rfl) ?_)
      simp [Ctl.exit, Task.exit, hparam]
  | fired task rest id left holder events ha hctl hsched hparam =>
      refine .same (awaited_passed hsched rfl rfl (by rw [hctl]; rfl) ?_)
      simp [Ctl.exit, Task.exit, hparam]
  | beganRunOne ha hctl | beganRun frame ha hctl | beganUntilComplete handle holder ha hctl
  | stored event growth idx events ha hctl | posted handle data tp holder ha hctl
  | finished handle cb data rest event resp holder events ha hctl | kept handle ha hctl
  | again ha hctl | gaveBack frame rest result ans ha hctl | gatherFailed err ha hctl =>
      exact .same (awaited_congr rfl rfl (by rw [hctl]; rfl))
  | sent handle data tp holder | received m rest | ready env ev polled id handle
  | idleTaken handle rest =>
      exact .same (awaited_scheduled (by simp [Task.exit]) rfl rfl rfl)
  | broadcast signal | timed =>
      refine .same (awaited_scheduled (fun task hmem => ?_) rfl rfl rfl)
      obtain ⟨_, _, rfl⟩ := List.mem_map.mp hmem
      rfl
  | _ => exact .same rfl

end Config

end Eveboros
