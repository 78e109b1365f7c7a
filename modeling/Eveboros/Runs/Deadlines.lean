import Eveboros.Lib.Agenda
import Eveboros.Runs.Timeouts

/-!
# Timeouts are dispatched in the order of their deadlines

The heap gives out what is due in order, the queue keeps the order, and nothing that is due later
gets there before: so two timeouts that once waited side by side are dispatched in the order of
their deadlines, whatever nested runs and other tasks there are.
-/

namespace Eveboros.Config

open Loop TransitionSystem

variable {Ev : Type} {c c' : Config Ev} {a : Action Ev}

/-- The timeouts of the loop as an agenda. -/
def agenda (c : Config Ev) : Agenda TimeoutHolder Timer where
  heap := c.loop.timeouts
  queue := c.loop.inQueue
  served := c.dispatched
  known := c.registered

/-- The moves of the agenda. -/
abbrev AgendaMove : Agenda TimeoutHolder Timer → Agenda TimeoutHolder Timer → Prop :=
  Agenda.Move TimeoutHolder.timer TimeoutHolder.when

theorem agenda_withdrawn (hheap : c'.loop.timeouts ⊆ c.loop.timeouts)
    (hqueue : c'.loop.inQueue.Sublist c.loop.inQueue) (hserved : c'.dispatched = c.dispatched)
    (hknown : c'.registered = c.registered) : AgendaMove c.agenda c'.agenda := by
  have hafter : c'.agenda =
      { c.agenda with heap := c'.loop.timeouts, queue := c'.loop.inQueue } := by
    simp only [agenda, hserved, hknown]
  rw [hafter]
  exact .withdrawn _ _ hheap hqueue

/-- An operation that registers no timeout answers. -/
theorem agenda_answer {op : Op Ev} {ans : Answer}
    (hquiet : ∀ caller, Obs.registers (.answered caller op ans : Obs Ev) = none)
    (hheap : c'.loop.timeouts = c.loop.timeouts) (hqueue : c'.loop.inQueue = c.loop.inQueue)
    (hlog : c'.log = .answered c.caller op ans :: c.log) : AgendaMove c.agenda c'.agenda := by
  refine agenda_withdrawn (hheap ▸ List.Subset.refl _) (hqueue ▸ List.Sublist.refl _) ?_ ?_
  · rw [dispatched, hlog]
    rfl
  · rw [registered, hlog, List.filterMap_cons_none (hquiet c.caller)]
    rfl

theorem agenda_timer {op : ScopeOp} {handle : Handle} {when : Nat}
    (hdistinct : c'.registered.Nodup) (hcaller : c.caller = some handle)
    (hop : op.deadline c.loop.now = some when)
    (hheap : c'.loop.timeouts = ⟨⟨c.loop.timeoutGeneration⟩, handle, when⟩ :: c.loop.timeouts)
    (hqueue : c'.loop.inQueue = c.loop.inQueue)
    (hlog : c'.log = .answered c.caller (.scope op)
      (.ok (.timeoutId ⟨c.loop.timeoutGeneration⟩)) :: c.log) : AgendaMove c.agenda c'.agenda := by
  let t : TimeoutHolder := ⟨⟨c.loop.timeoutGeneration⟩, handle, when⟩
  have hknown : c'.registered = t.timer :: c.registered := by
    rw [registered, hlog, hcaller, List.filterMap_cons_some (registers_timer hop _ _)]
    rfl
  have hserved : c'.dispatched = c.dispatched := by
    rw [dispatched, hlog]
    rfl
  have hafter : c'.agenda =
      { c.agenda with heap := t :: c.loop.timeouts, known := t.timer :: c.registered } := by
    simp only [agenda, hserved, hknown, hheap, hqueue, t]
  rw [hafter]
  rw [hknown] at hdistinct
  exact .joined t (List.nodup_cons.mp hdistinct).1

theorem agenda_timed : AgendaMove c.agenda { c with loop := c.loop.tasksGatherTimers }.agenda := by
  obtain ⟨due, hsched, hperm, hdue, hsorted, hrest⟩ := tasksGatherTimers_exact c.loop
  have htasks : (due.map timeoutTask).filterMap Task.timer = due.map TimeoutHolder.timer := by
    rw [List.filterMap_map, ← List.filterMap_eq_map]
    rfl
  have hqueue : c.loop.tasksGatherTimers.inQueue =
      c.loop.inQueue ++ due.map TimeoutHolder.timer := by
    rw [inQueue, hsched, List.filterMap_append, htasks]
    rfl
  have hafter : { c with loop := c.loop.tasksGatherTimers }.agenda = { c.agenda with
      heap := c.loop.tasksGatherTimers.timeouts
      queue := c.loop.inQueue ++ due.map TimeoutHolder.timer } := by
    simp only [agenda, hqueue]
    rfl
  rw [hafter]
  exact .came due _ c.loop.now hperm hsorted hdue hrest

theorem agenda_fired {task : Task} {rest : List Task} {id : TimeoutId}
    (hsched : c.loop.scheduled = task :: rest) (hparam : task.param = .timeout id)
    (hheap : c'.loop.timeouts = c.loop.timeouts) (hsched' : c'.loop.scheduled = rest)
    (hlog : c'.log = .dispatched task :: c.log) : AgendaMove c.agenda c'.agenda := by
  have htimer := Task.timer_of_timeout hparam
  have hserved : c'.dispatched = ⟨task.recipient, id⟩ :: c.dispatched := by
    rw [dispatched, hlog, List.filterMap_cons_some (by exact htimer)]
    rfl
  have hknown : c'.registered = c.registered := by
    rw [registered, hlog]
    rfl
  have hqueue : c.loop.inQueue = ⟨task.recipient, id⟩ :: c'.loop.inQueue := by
    rw [inQueue_cons hsched, htimer, inQueue, hsched']
    rfl
  have hafter : c'.agenda = { c.agenda with
      queue := c'.loop.inQueue, served := ⟨task.recipient, id⟩ :: c.dispatched } := by
    simp only [agenda, hserved, hknown, hheap]
  rw [hafter]
  exact .left _ _ hqueue

/-- A task leaves the queue, and no timeout is dispatched. -/
theorem agenda_popped {task : Task} {rest : List Task} {o : Obs Ev}
    (hsched : c.loop.scheduled = task :: rest) (hheap : c'.loop.timeouts = c.loop.timeouts)
    (hsched' : c'.loop.scheduled = rest) (hlog : c'.log = o :: c.log)
    (hfires : Obs.fires o = none) (hregisters : Obs.registers o = none) :
    AgendaMove c.agenda c'.agenda := by
  refine agenda_withdrawn (hheap ▸ List.Subset.refl _) ?_ ?_ ?_
  · rw [inQueue, inQueue, hsched, hsched']
    exact (List.sublist_cons_self task rest).filterMap _
  · rw [dispatched, hlog, List.filterMap_cons_none hfires]
    rfl
  · rw [registered, hlog, List.filterMap_cons_none hregisters]
    rfl

/-- Tasks of other kinds join the queue. -/
theorem agenda_scheduled {tasks : List Task} (h : ∀ task ∈ tasks, task.timer = none)
    (hheap : c'.loop.timeouts = c.loop.timeouts)
    (hsched : c'.loop.scheduled = c.loop.scheduled ++ tasks) (hlog : c'.log = c.log) :
    AgendaMove c.agenda c'.agenda := by
  refine agenda_withdrawn (hheap ▸ List.Subset.refl _) ?_ ?_ ?_
  · rw [inQueue, hsched, inQueue_append h]
  · rw [dispatched, hlog]
    rfl
  · rw [registered, hlog]
    rfl

theorem agenda_edit (hdistinct : c'.registered.Nodup) (e : Edit a c c') :
    AgendaMove c.agenda c'.agenda := by
  cases e with
  | timer op handle when holder events ha hctl hcaller hop hget hset =>
      exact agenda_timer hdistinct hcaller hop rfl rfl rfl
  | timed ha hctl => exact agenda_timed
  | fired task rest id left holder events ha hctl hsched hparam =>
      exact agenda_fired hsched hparam rfl rfl rfl
  | dropped task rest ha hctl hsched => exact agenda_popped hsched rfl rfl rfl rfl rfl
  | passed task rest holder ha hctl hsched hget hgen hkind =>
      exact agenda_popped hsched rfl rfl rfl (Task.timer_eq_none hkind) rfl
  | lost task rest id ready source holder ha hctl hsched hparam =>
      exact agenda_popped hsched rfl rfl rfl (by simp [Obs.fires, Task.timer, hparam]) rfl
  | pruned ha hctl =>
      exact agenda_withdrawn (fun t hmem => (PriorityHeap.popWhile_perm _ c.loop.timeouts).subset
        (List.mem_append_right _ hmem)) (.refl _) rfl rfl
  | rebuilt dead alive ha hctl hqueue hstats hmany =>
      exact agenda_withdrawn List.filter_sublist.subset (.refl _) rfl rfl
  | reorderedTimeouts order ha hperm => exact agenda_withdrawn hperm.subset (.refl _) rfl rfl
  | refusal op err ha hctl hr =>
      exact agenda_answer (fun caller => Obs.registers_error caller op err) rfl rfl rfl
  | query op v ha hctl hq =>
      exact agenda_answer (fun caller => Obs.registers_query caller _ hq) rfl rfl rfl
  | sent handle data tp holder ha hctl hget hgen hexp =>
      exact agenda_answer (registers_quiet (by rintro _ _ ⟨⟩)) rfl
        (inQueue_append (by simp [Task.timer])) rfl
  | stopped | poolSet | enabled =>
      exact agenda_answer (registers_quiet (by rintro _ _ ⟨⟩)) rfl rfl rfl
  | lent | signalled | idled | submitted | ioRefused | expected | ioRegistered | ioRemoved
  | tracked =>
      exact agenda_answer (registers_quiet (by rintro _ _ ⟨⟩; rfl)) rfl rfl rfl
  | received | ready | idleTaken | reaped =>
      exact agenda_scheduled (by simp [Task.timer]) rfl rfl rfl
  | broadcast signal ha hctl =>
      refine agenda_scheduled (fun task hmem => ?_) rfl rfl rfl
      obtain ⟨handle, _, rfl⟩ := List.mem_map.mp hmem
      rfl
  | _ => exact agenda_withdrawn (List.Subset.refl _) (.refl _) rfl rfl

/-! ## Runs -/

theorem Edit.registered_suffix (e : Edit a c c') : c.registered <:+ c'.registered := by
  obtain ⟨new, hlog⟩ := e.log_suffix
  exact ⟨new.filterMap Obs.registers, by rw [registered, registered, ← hlog, List.filterMap_append]⟩

theorem registered_nodup (h : Visited Anything c) (hfew : c.issued.length ≤ 2 ^ 64)
    (htimeouts : c.registered.length ≤ 2 ^ 64) : c.registered.Nodup :=
  (registered_distinct (balanced_of_few h hfew) htimeouts).of_map _

/-- Two entries of the heap, seen from a later configuration. -/
structure Racing (early late : TimeoutHolder) (c : Config Ev) : Prop where
  visited : Visited Anything c
  inOrder : c.issued.length ≤ 2 ^ 64 → c.registered.length ≤ 2 ^ 64 →
    Agenda.InOrder TimeoutHolder.timer early late c.agenda

theorem racing_edit {early late : TimeoutHolder} (hlt : early.when < late.when)
    (r : Racing early late c) (e : Edit a c c') : Racing early late c' where
  visited := .edit r.visited trivial e
  inOrder hfew htimeouts := by
    have hdistinct := registered_nodup (.edit r.visited trivial e) hfew htimeouts
    have hold := r.inOrder (Nat.le_trans e.issued_length_le hfew)
      (Nat.le_trans e.registered_suffix.length_le htimeouts)
    exact hold.move hlt (agenda_edit hdistinct e)

theorem racing_heap (h : Visited Anything c) {early late : TimeoutHolder}
    (hearly : early ∈ c.loop.timeouts) (hlate : late ∈ c.loop.timeouts) : Racing early late c where
  visited := h
  inOrder hfew htimeouts := by
    have hnodup := registered_nodup h hfew htimeouts
    have hcount (timer : Timer) : c.loop.inHeap.count timer + c.loop.inQueue.count timer +
        c.dispatched.count timer ≤ c.registered.count timer := by
      obtain ⟨lost, hcount, _⟩ := conserved_count (balanced_of_few h hfew) timer
      omega
    have hone (timer : Timer) : c.registered.count timer ≤ 1 :=
      List.nodup_iff_count_le_one.mp hnodup timer
    have hwaits {t : TimeoutHolder} (hmem : t ∈ c.loop.timeouts) :
        0 < c.loop.inHeap.count t.timer :=
      List.count_pos_iff.mpr (List.mem_map_of_mem hmem)
    have hlate' := hwaits hlate
    have hat := hcount late.timer
    have hat' := hone late.timer
    refine .of_heap hearly hlate (fun t hmem => ?_) ?_ ?_ ?_
    · have hpos := hwaits hmem
      have := hcount t.timer
      exact List.count_pos_iff.mp (show 0 < c.registered.count t.timer by omega)
    · refine List.nodup_iff_count_le_one.mpr fun timer => ?_
      have := hcount timer
      have := hone timer
      change c.loop.inHeap.count timer ≤ 1
      omega
    · exact List.count_eq_zero.mp (show c.loop.inQueue.count late.timer = 0 by omega)
    · exact List.count_eq_zero.mp (show c.dispatched.count late.timer = 0 by omega)

/-- Two timeouts wait side by side in the heap.  Whenever the one with the later deadline has been
dispatched, so has the other, unless its event has died; as long as there were at most 2^64
insertions and as many timeouts. -/
theorem timeouts_fire_in_order (c₀ c : Config Ev) (h₀ : Reachable c₀)
    (h : Reach step Anything c₀ c) (hfew : c.issued.length ≤ 2 ^ 64)
    (htimeouts : c.registered.length ≤ 2 ^ 64) (early late : TimeoutHolder)
    (hearly : early ∈ c₀.loop.timeouts) (hlate : late ∈ c₀.loop.timeouts)
    (hlt : early.when < late.when) (hdone : late.timer ∈ c.dispatched) :
    early.timer ∈ c.dispatched ∨ c.loop.eventAlive early.recipient = false := by
  have r : Racing early late c := h.invariant (racing_heap h₀.visited hearly hlate)
    fun _ _ _ r hp hs =>
      keep_step gatherStable_anything (fun _ _ r _ e => racing_edit hlt r e) r hp hs
  have q := r.inOrder hfew htimeouts
  have hgone := q.served hdone
  cases halive : c.loop.eventAlive early.recipient with
  | false => exact .inr rfl
  | true =>
      obtain ⟨lost, hcount, hlost⟩ := conserved_count (balanced_of_few r.visited hfew) early.timer
      have hregistered : 0 < c.registered.count early.timer :=
        List.count_pos_iff.mpr q.ownsEarly.known
      have hheap : c.loop.inHeap.count early.timer = 0 := by
        refine List.count_eq_zero.mpr fun hmem => ?_
        obtain ⟨t, ht, hname⟩ := List.mem_map.mp hmem
        obtain rfl := q.ownsEarly.unique t ht hname
        exact hgone (.inl ht)
      have hqueue : c.loop.inQueue.count early.timer = 0 :=
        List.count_eq_zero.mpr fun hmem => hgone (.inr hmem)
      have hnone := hlost halive
      exact .inl (List.count_pos_iff.mp (by omega))

/-- An event registers two timeouts, the later one first. -/
def twoTimers : List (Action Unit) :=
  [insertQuick, .tick, .call (.scope (.timeoutAt 2)), .call (.scope (.timeoutAt 1))]

/-- Both are due when the loop looks, and it dispatches them. -/
def bothFired : List (Action Unit) :=
  [.finish () (.ok true), .settle true (.ok ()), .tick, .call (.iface .run),
    .gather ⟨0, .ok [], 3, []⟩, .tick, .tick, .finish () (.ok true), .settle true (.ok ()), .tick,
    .tick]

theorem timeouts_fire_in_order_bothFired :
    (landing step (after 0 twoTimers) bothFired).dispatched =
        [⟨⟨0, 0⟩, ⟨0⟩⟩, ⟨⟨0, 0⟩, ⟨1⟩⟩] ∧
      (⟨⟨0, 0⟩, ⟨1⟩⟩ ∈ (landing step (after 0 twoTimers) bothFired).dispatched ∨
        (landing step (after 0 twoTimers) bothFired).loop.eventAlive ⟨0, 0⟩ = false) :=
  ⟨by decide, timeouts_fire_in_order _ _ (reachable_after 0 twoTimers)
    (reach_landing (p := fun _ _ => true) bothFired (fun _ _ _ => trivial) (by decide)) (by decide)
    (by decide) ⟨⟨1⟩, ⟨0, 0⟩, 1⟩ ⟨⟨0⟩, ⟨0, 0⟩, 2⟩ (by decide) (by decide) (by decide) (by decide)⟩

end Eveboros.Config
