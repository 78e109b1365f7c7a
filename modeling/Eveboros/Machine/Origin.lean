import Eveboros.Machine.Visited

/-!
# Where tasks come from

`Origin a c task` lists the ways in which an elementary change can put a task into the queue.
-/

namespace Eveboros.Config

open Loop

variable {Ev : Type}

inductive Origin (a : Action Ev) (c : Config Ev) : Task → Prop
  | sent (handle : Handle) (data : AnyBox) (tp : TypeId)
      (ha : a = .call (.iface (.sendImpl handle data tp))) :
      Origin a c ⟨handle, .message ⟨data, tp, .send c.caller⟩⟩
  | received (m : RemoteMessage) (ha : a.IsGather) (hm : m ∈ c.loop.receiver) :
      Origin a c ⟨m.recipient, .message ⟨m.data, m.realType, m.mode⟩⟩
  | child (pid : Pid) (exit : ChildExit) (handle : Handle) (ha : a.IsGather)
      (hlookup : c.loop.children.lookup pid = some handle) : Origin a c ⟨handle, .child pid exit⟩
  | signal (signal : Signal) (handle : Handle) (ha : a.IsGather)
      (hmem : handle ∈ c.loop.signalRecipients signal.num) : Origin a c ⟨handle, .signal signal⟩
  | io (env : GatherEnv) (ev : PollEvent) (polled : List PollEvent) (id : IoId) (handle : Handle)
      (ha : a = .gather env) (hpoll : env.poll = .ok polled) (hev : ev ∈ polled)
      (hid : id.token = ev.token) (hget : c.loop.ios.get? id.idx = some handle) :
      Origin a c ⟨handle, .io id ev.kind ev.source⟩
  | timeout (t : TimeoutHolder) (ha : a.IsGather) (hmem : t ∈ c.loop.timeouts)
      (hdue : t.when ≤ c.loop.now) : Origin a c (timeoutTask t)
  | idle (handle : Handle) (ha : a.IsGather) (hmem : handle ∈ c.loop.wantIdle) :
      Origin a c ⟨handle, .idle⟩

variable {c c' : Config Ev} {a : Action Ev}

/-- What `tasks_gather_timers` takes out of the heap is due. -/
theorem due_of_popped {l : Loop Ev} {t : TimeoutHolder}
    (h : t ∈ (PriorityHeap.popWhile TimeoutHolder.key
      (fun t : TimeoutHolder => decide (t.when ≤ l.now)) l.timeouts).1) :
    t ∈ l.timeouts ∧ t.when ≤ l.now := by
  constructor
  · exact (PriorityHeap.popWhile_perm _ l.timeouts).subset (List.mem_append_left _ h)
  · simpa using PriorityHeap.popWhile_popped _ l.timeouts t h

theorem Edit.origin (e : Edit a c c') :
    ∀ task ∈ c'.loop.scheduled, task ∈ c.loop.scheduled ∨ Origin a c task := by
  intro task hmem
  cases e with
  | sent handle data tp holder ha hctl hget hgen hexp =>
      rcases List.mem_append.mp hmem with hmem | hmem
      · exact .inl hmem
      · obtain rfl := List.mem_singleton.mp hmem
        exact .inr (.sent handle data tp ha)
  | received m rest ha hctl hrecv hpass =>
      rcases List.mem_append.mp hmem with hmem | hmem
      · exact .inl hmem
      · obtain rfl := List.mem_singleton.mp hmem
        exact .inr (.received m ha (by simp [hrecv]))
  | reaped pid exit handle holder events ha hctl hlookup hget hchild hset =>
      rcases List.mem_append.mp hmem with hmem | hmem
      · exact .inl hmem
      · obtain rfl := List.mem_singleton.mp hmem
        exact .inr (.child pid exit handle ha hlookup)
  | broadcast signal ha hctl =>
      rcases List.mem_append.mp hmem with hmem | hmem
      · exact .inl hmem
      · obtain ⟨handle, hrec, rfl⟩ := List.mem_map.mp hmem
        exact .inr (.signal signal handle ha hrec)
  | ready env ev polled id handle ha hctl hpoll hev hid hget =>
      rcases List.mem_append.mp hmem with hmem | hmem
      · exact .inl hmem
      · obtain rfl := List.mem_singleton.mp hmem
        exact .inr (.io env ev polled id handle ha hpoll hev hid hget)
  | timed ha hctl =>
      rcases List.mem_append.mp hmem with hmem | hmem
      · exact .inl hmem
      · obtain ⟨t, ht, rfl⟩ := List.mem_map.mp hmem
        obtain ⟨hheap, hdue⟩ := due_of_popped ht
        exact .inr (.timeout t ha hheap hdue)
  | idleTaken handle rest ha hctl hsched hpop =>
      rcases List.mem_append.mp hmem with hmem | hmem
      · exact .inl hmem
      · obtain rfl := List.mem_singleton.mp hmem
        exact .inr (.idle handle ha ((ListSet.mem_of_popFront hpop).mpr (.inl rfl)))
  | dropped task' rest ha hctl hsched
  | passed task' rest _ ha hctl hsched
  | lost task' rest _ _ _ _ ha hctl hsched
  | fired task' rest _ _ _ _ ha hctl hsched =>
      exact .inl (by rw [hsched]; exact List.mem_cons_of_mem _ hmem)
  | _ => exact .inl hmem

/-- A gather neither adds nor kills an event. -/
theorem Edit.eventAlive_of_gather {env : GatherEnv} (e : Edit (.gather env) c c') (h : Handle) :
    c'.loop.eventAlive h = c.loop.eventAlive h := by
  cases e with
  | reaped pid exit handle holder events ha hctl hlookup hget hchild hset =>
      exact eventAlive_of_sets hset hget rfl rfl h
  | _ => first | rfl | simp_all

/-- What the tasks that a gather adds have in common, the whole queue has after it. -/
theorem gather_scheduled {env : GatherEnv} {I : Config Ev → Prop} {Q : Config Ev → Task → Prop}
    (h : c.step (.gather env) = .ok c') (hi : I c)
    (keep : ∀ c c', I c → Edit (.gather env) c c' → I c')
    (added : ∀ c c' task, I c → Edit (.gather env) c c' → Origin (.gather env) c task → Q c' task)
    (kept : ∀ c c' task, I c → Edit (.gather env) c c' → Q c task → Q c' task) :
    ∀ task ∈ c'.loop.scheduled, Q c' task := by
  obtain ⟨_, hsched⟩ := gather_enabled (.ok c') h
  have hstart : ∀ task ∈ c.loop.scheduled, Q c task := by simp [hsched]
  have hstep (c c' : Config Ev) (hq : I c ∧ ∀ task ∈ c.loop.scheduled, Q c task)
      (e : Edit (.gather env) c c') : I c' ∧ ∀ task ∈ c'.loop.scheduled, Q c' task := by
    refine ⟨keep c c' hq.1 e, ?_⟩
    intro task hmem
    rcases e.origin task hmem with hold | horigin
    · exact kept c c' task hq.1 e (hq.2 task hold)
    · exact added c c' task hq.1 e horigin
  exact (keep_edits gatherStable_anything (fun c c' hq _ e => hstep c c' hq e) ⟨hi, hstart⟩ trivial
    (gather_edits h)).1.2

end Eveboros.Config
