import Eveboros.Runs.Identity
import Eveboros.Runs.Ledger

/-!
# Timer statistics

The loop keeps the books of `Ledger`: every elementary change is a move there or does not concern
timeouts at all.  So the number of dead timeouts that `timers_cleanup` reconstructs is the true
one, and no counter drops below zero.
-/

namespace Eveboros

variable {Ev : Type}

def Task.timer (task : Task) : Option Timer :=
  match task.param with
  | .timeout id => some ⟨task.recipient, id⟩
  | _ => none

def TimeoutHolder.timer (t : TimeoutHolder) : Timer := ⟨t.recipient, t.id⟩

@[simp] theorem TimeoutHolder.timer_recipient (t : TimeoutHolder) :
    t.timer.recipient = t.recipient := rfl

@[simp] theorem timeoutTask_timer (t : TimeoutHolder) :
    Task.timer (Loop.timeoutTask t) = some t.timer := rfl

def Obs.registers : Obs Ev → Option Timer
  | .answered (some handle) (.scope (.timeoutAt _)) (.ok (.timeoutId id)) => some ⟨handle, id⟩
  | .answered (some handle) (.scope (.timeoutAfter _)) (.ok (.timeoutId id)) => some ⟨handle, id⟩
  | _ => none

/-- The timeout that `run_one` takes off the queue for its event. -/
def Obs.fires : Obs Ev → Option Timer
  | .dispatched task => task.timer
  | _ => none

/-- What the books see of a slot. -/
def EvHolder.clock (holder : EvHolder Ev) : Nat × Nat := (holder.generation, holder.timeouts)

theorem Task.timer_eq_none {task : Task} (h : ¬task.param.IsTimeout) : task.timer = none := by
  unfold timer
  split
  · rename_i hparam
    simp [hparam, TaskParam.IsTimeout] at h
  · rfl

theorem Task.timer_of_timeout {task : Task} {id : TimeoutId} (h : task.param = .timeout id) :
    task.timer = some ⟨task.recipient, id⟩ := by
  simp [timer, h]

theorem Obs.registers_error (caller : Option Handle) (op : Op Ev) (err : Error) :
    Obs.registers (.answered caller op (.error err)) = none := by
  unfold registers
  split <;> simp_all

theorem Obs.registers_query (caller : Option Handle) {op : Op Ev} (ans : Answer)
    (h : op.IsQuery) : Obs.registers (.answered caller op ans) = none := by
  unfold registers
  split <;> simp_all [Op.IsQuery]

namespace Loop

variable {l l' : Loop Ev}

def inHeap (l : Loop Ev) : List Timer := l.timeouts.map TimeoutHolder.timer

def inQueue (l : Loop Ev) : List Timer := l.scheduled.filterMap Task.timer

def pending (l : Loop Ev) : Multiset Timer := ↑l.inHeap + ↑l.inQueue

def tallies (l : Loop Ev) : Nat × Nat × Nat × Nat :=
  (l.timeoutsInserted, l.timeoutsFired, l.timeoutsDead, l.timeoutGeneration)

/-- The heap entries whose event is not alive, and the others. -/
def stillDead (l : Loop Ev) : Nat := l.timeouts.countP fun t => l.eventAlive t.recipient = false

def stillAlive (l : Loop Ev) : Nat := l.timeouts.countP fun t => l.eventAlive t.recipient = true

theorem stillDead_add_stillAlive (l : Loop Ev) :
    l.stillDead + l.stillAlive = l.timeouts.length := by
  rw [List.length_eq_countP_add_countP (fun t => l.eventAlive t.recipient = false), stillDead,
    stillAlive]
  simp

theorem inQueue_of_noTimeouts (h : l.NoTimeouts) : l.inQueue = [] :=
  List.filterMap_eq_nil_iff.mpr fun task htask => Task.timer_eq_none (h task htask)

/-- Tasks of other kinds join the queue. -/
theorem inQueue_append {tasks : List Task} (h : ∀ task ∈ tasks, task.timer = none) :
    (l.scheduled ++ tasks).filterMap Task.timer = l.inQueue := by
  rw [List.filterMap_append, List.filterMap_eq_nil_iff.mpr h, List.append_nil, inQueue]

theorem inQueue_cons {task : Task} {rest : List Task} (hsched : l.scheduled = task :: rest) :
    l.inQueue = task.timer.toList ++ rest.filterMap Task.timer := by
  rw [inQueue, hsched, List.filterMap_cons]
  cases task.timer <;> rfl

theorem pending_perm (hheap : l'.inHeap.Perm l.inHeap) (hqueue : l'.inQueue = l.inQueue) :
    l'.pending = l.pending := by
  rw [pending, pending, hqueue, Multiset.coe_eq_coe.mpr hheap]

/-- What is due moves from the heap to the queue. -/
theorem pending_tasksGatherTimers (l : Loop Ev) : l.tasksGatherTimers.pending = l.pending := by
  have hperm := @PriorityHeap.popWhile_perm _ _ _ TimeoutHolder.key _
    (fun t => decide (t.when ≤ l.now)) l.timeouts
  have hheap := Multiset.coe_eq_coe.mpr (hperm.map TimeoutHolder.timer)
  rw [List.map_append, ← Multiset.coe_add] at hheap
  simp only [pending, inHeap, inQueue, tasksGatherTimers, List.filterMap_append,
    ← Multiset.coe_add, ← hheap, List.filterMap_map]
  have htasks (ts : List TimeoutHolder) :
      ts.filterMap (Task.timer ∘ timeoutTask) = ts.map TimeoutHolder.timer := by
    induction ts with
    | nil => rfl
    | cons t ts ih => simp [ih]
  rw [htasks]
  abel

end Loop

namespace Config

open Loop

variable {c c' : Config Ev} {a : Action Ev}

/-- The timeouts registered and dispatched so far. -/
def registered (c : Config Ev) : List Timer := c.log.filterMap Obs.registers

def dispatched (c : Config Ev) : List Timer := c.log.filterMap Obs.fires

def ledger (c : Config Ev) : Ledger where
  slots idx := (c.loop.events.get? idx).map EvHolder.clock
  pending := c.loop.pending
  inserted := c.loop.timeoutsInserted
  fired := c.loop.timeoutsFired
  dead := c.loop.timeoutsDead
  stamp := c.loop.timeoutGeneration
  issued := c.issued
  registered := c.registered
  dispatched := c.dispatched

theorem ledger_alive (c : Config Ev) (handle : Handle) :
    c.ledger.alive handle = c.loop.eventAlive handle := by
  rw [eventAlive_eq_map]
  simp [ledger, Ledger.alive, Option.map_map, Function.comp_def, EvHolder.clock]

theorem ledger_slot {idx : Nat} {holder : EvHolder Ev} (h : c.loop.events.get? idx = some holder) :
    c.ledger.slots idx = some (holder.generation, holder.timeouts) := by
  simp [ledger, h, EvHolder.clock]

theorem slots_sets {idx : Nat} {holder : EvHolder Ev} {events : Recycler (EvHolder Ev)}
    (hset : c.loop.events.Sets idx (some holder) events) :
    (fun i => (events.get? i).map EvHolder.clock) =
      Function.update c.ledger.slots idx (some (holder.generation, holder.timeouts)) := by
  funext i
  rw [hset.get?, Function.update_apply]
  split <;> rfl

/-- Changes that leave timeouts, counters and lives alone. -/
theorem ledger_sets {idx : Nat} {old new : EvHolder Ev} {events : Recycler (EvHolder Ev)}
    (hset : c.loop.events.Sets idx (some new) events) (hget : c.loop.events.get? idx = some old)
    (hclock : new.clock = old.clock) :
    (fun i => (events.get? i).map EvHolder.clock) = c.ledger.slots :=
  funext fun i => hset.map_eq hget hclock i

theorem ledger_congr (hslots : c'.ledger.slots = c.ledger.slots)
    (hpending : c'.loop.pending = c.loop.pending)
    (htallies : c'.loop.tallies = c.loop.tallies)
    (hissued : c'.issued = c.issued) (hregistered : c'.registered = c.registered)
    (hdispatched : c'.dispatched = c.dispatched) : c'.ledger = c.ledger := by
  simp only [tallies, Prod.mk.injEq] at htallies
  rcases htallies with ⟨hinserted, hfired, hdead, hstamp⟩
  have hs : (fun i => (c'.loop.events.get? i).map EvHolder.clock) =
      fun i => (c.loop.events.get? i).map EvHolder.clock := hslots
  simp only [ledger, hs, hpending, hinserted, hfired, hdead, hstamp, hissued, hregistered,
    hdispatched]

/-- The deadlines belong to the two operations that register a timeout. -/
theorem registers_timer {op : ScopeOp} {now when : Nat} (h : op.deadline now = some when)
    (handle : Handle) (id : TimeoutId) :
    Obs.registers (.answered (some handle) (.scope op) (.ok (.timeoutId id)) : Obs Ev) =
      some ⟨handle, id⟩ := by
  cases op <;> first | rfl | cases h

/-- A task leaves the queue. -/
theorem pending_popped {task : Task} {rest : List Task} (hsched : c.loop.scheduled = task :: rest)
    {l : Loop Ev} (htimeouts : l.timeouts = c.loop.timeouts) (hrest : l.scheduled = rest) :
    c.loop.pending = ↑task.timer.toList + l.pending := by
  rw [pending, pending, inHeap, inHeap, htimeouts, inQueue_cons hsched, inQueue, hrest,
    ← Multiset.coe_add]
  abel

/-- The entries that the loop throws out of the heap, and those it keeps. -/
theorem pending_split {l : Loop Ev} {gone kept : List TimeoutHolder}
    (hperm : (gone ++ kept).Perm c.loop.timeouts) (hkept : l.timeouts = kept)
    (hsched : l.scheduled = c.loop.scheduled) :
    c.loop.pending = ↑(gone.map TimeoutHolder.timer) + l.pending := by
  have hheap := Multiset.coe_eq_coe.mpr (hperm.map TimeoutHolder.timer)
  rw [List.map_append, ← Multiset.coe_add] at hheap
  rw [pending, pending, inHeap, inHeap, ← hheap, inQueue, inQueue, hsched, hkept]
  abel

theorem ledger_dropped {task : Task} {rest : List Task} (hsched : c.loop.scheduled = task :: rest)
    (hdead : c.loop.eventAlive task.recipient = false) (hloop : c'.loop =
      { c.loop with scheduled := rest }) (hlog : c'.log = .dropped task :: c.log) :
    Ledger.Move c.ledger c'.ledger := by
  have hpending := pending_popped hsched (l := c'.loop) (by rw [hloop]) (by rw [hloop])
  have hmove := Ledger.Move.lost (s := c.ledger) _ _ hpending fun x hx => by
    have hx' : task.timer = some x := by simpa using hx
    rw [ledger_alive]
    unfold Task.timer at hx'
    split at hx' <;> cases hx'
    exact hdead
  have heq : c'.ledger = { c.ledger with pending := c'.loop.pending } := by
    simp [ledger, issued, registered, dispatched, hloop, hlog, List.filterMap_cons, Obs.issued,
      Obs.registers, Obs.fires]
  rwa [heq]

theorem ledger_timer {op : ScopeOp} {handle : Handle} {when : Nat} {holder : EvHolder Ev}
    {events : Recycler (EvHolder Ev)} (hcaller : c.caller = some handle)
    (hop : op.deadline c.loop.now = some when)
    (hget : c.loop.events.get? handle.id = some holder)
    (hgen : holder.generation = handle.generation)
    (hset : c.loop.events.Sets handle.id
      (some { holder with timeouts := holder.timeouts + 1 }) events)
    (hloop : c'.loop = { c.loop with
      timeoutGeneration := wrappingSucc c.loop.timeoutGeneration
      events := events
      timeoutsInserted := c.loop.timeoutsInserted + 1
      timeouts := ⟨⟨c.loop.timeoutGeneration⟩, handle, when⟩ :: c.loop.timeouts })
    (hlog : c'.log = .answered c.caller (.scope op)
      (.ok (.timeoutId ⟨c.loop.timeoutGeneration⟩)) :: c.log) :
    Ledger.Move c.ledger c'.ledger := by
  have hmove := Ledger.Move.registered (s := c.ledger) handle holder.timeouts
    (by rw [ledger_slot hget, hgen])
  have heq : c'.ledger = c.ledger.register handle holder.timeouts := by
    have hslots := slots_sets hset
    simp only [ledger, hloop, hslots, Ledger.register, issued, registered, dispatched, hlog, hgen,
      hcaller, List.filterMap_cons, registers_timer hop, Obs.issued, Obs.fires, pending, inHeap,
      inQueue, List.map_cons]
    rfl
  rwa [heq]

theorem ledger_fired {task : Task} {rest : List Task} {id : TimeoutId} {left : Nat}
    {holder : EvHolder Ev} {events : Recycler (EvHolder Ev)}
    (hsched : c.loop.scheduled = task :: rest) (hparam : task.param = .timeout id)
    (hget : c.loop.events.get? task.recipient.id = some holder)
    (hgen : holder.generation = task.recipient.generation) (hleft : holder.timeouts = left + 1)
    (hset : c.loop.events.Sets task.recipient.id (some { holder with timeouts := left }) events)
    (hloop : c'.loop = { c.loop with
      scheduled := rest, timeoutsFired := c.loop.timeoutsFired + 1, events := events })
    (hlog : c'.log = .dispatched task :: c.log) : Ledger.Move c.ledger c'.ledger := by
  have htimer := Task.timer_of_timeout hparam
  have hpending := pending_popped hsched (l := c'.loop) (by rw [hloop]) (by rw [hloop])
  rw [htimer, Option.toList_some, ← Multiset.cons_coe, Multiset.coe_nil, Multiset.cons_add,
    Multiset.zero_add] at hpending
  have hmove := Ledger.Move.fired (s := c.ledger) task.recipient id left c'.loop.pending
    (by rw [ledger_slot hget, hgen, hleft]) hpending
  have heq : c'.ledger = c.ledger.fire task.recipient id left c'.loop.pending := by
    have hslots := slots_sets hset
    simp only [ledger, hloop, hslots, Ledger.fire, issued, registered, dispatched, hlog, hgen,
      List.filterMap_cons, Obs.issued, Obs.registers, Obs.fires, htimer]
  rwa [heq]

theorem ledger_stored {event : Ev} {growth : Growth} {idx : Nat} {events : Recycler (EvHolder Ev)}
    (hstore : c.loop.events.Stores (.new event c.loop.generation) growth idx events)
    (hloop : c'.loop = { c.loop with
      generation := wrappingSucc c.loop.generation, events := events })
    (hlog : c'.log = .stored ⟨idx, c.loop.generation⟩ event :: c.log) :
    Ledger.Move c.ledger c'.ledger := by
  have hmove := Ledger.Move.stored (s := c.ledger) ⟨idx, c.loop.generation⟩
    (by simp [ledger, hstore.vacant])
  have hslots : (fun i => (events.get? i).map EvHolder.clock) =
      Function.update c.ledger.slots idx (some (c.loop.generation, 0)) := by
    funext i
    rw [hstore.get?, Function.update_apply]
    split <;> rfl
  have heq : c'.ledger = c.ledger.store ⟨idx, c.loop.generation⟩ := by
    simp only [ledger, hloop, hslots, Ledger.store, issued, registered, dispatched, hlog,
      List.filterMap_cons, Obs.issued, Obs.registers, Obs.fires]
    rfl
  rwa [heq]

theorem ledger_killed {handle : Handle} {holder : EvHolder Ev} {events : Recycler (EvHolder Ev)}
    (hget : c.loop.events.get? handle.id = some holder)
    (hgen : holder.generation = handle.generation)
    (hset : c.loop.events.Sets handle.id none events) (hevents : c'.loop.events = events)
    (hpending : c'.loop.pending = c.loop.pending)
    (htallies : c'.loop.tallies = { c.loop with
      timeoutsDead := c.loop.timeoutsDead + holder.timeouts }.tallies)
    (hlog : c'.log = .killed handle :: c.log) : Ledger.Move c.ledger c'.ledger := by
  have hmove := Ledger.Move.killed (s := c.ledger) handle holder.timeouts
    (by rw [ledger_slot hget, hgen])
  simp only [tallies, Prod.mk.injEq] at htallies
  rcases htallies with ⟨hinserted, hfired, hdead, hstamp⟩
  have hslots : (fun i => (events.get? i).map EvHolder.clock) =
      Function.update c.ledger.slots handle.id none := by
    funext i
    rw [hset.get?, Function.update_apply]
    split <;> rfl
  have heq : c'.ledger = c.ledger.kill handle holder.timeouts := by
    simp only [ledger, hevents, hslots, hpending, hinserted, hfired, hdead, hstamp, Ledger.kill,
      issued, registered, dispatched, hlog, List.filterMap_cons, Obs.issued, Obs.registers,
      Obs.fires]
  rwa [heq]

/-- `timeout_min` throws out dead entries only. -/
theorem ledger_pruned (hloop : c'.loop = { c.loop with
      timeouts := (PriorityHeap.popWhile TimeoutHolder.key
        (fun t => !c.loop.eventAlive t.recipient) c.loop.timeouts).2 })
    (hlog : c'.log = c.log) : Ledger.Move c.ledger c'.ledger := by
  have hperm := @PriorityHeap.popWhile_perm _ _ _ TimeoutHolder.key _
    (fun t => !c.loop.eventAlive t.recipient) c.loop.timeouts
  have hpending := pending_split (l := c'.loop) hperm (by rw [hloop]) (by rw [hloop])
  have hmove := Ledger.Move.lost (s := c.ledger) _ _ hpending fun x hx => by
    obtain ⟨t, ht, rfl⟩ := List.mem_map.mp (Multiset.mem_coe.mp hx)
    rw [ledger_alive]
    simpa using PriorityHeap.popWhile_popped _ c.loop.timeouts t ht
  have heq : c'.ledger = { c.ledger with pending := c'.loop.pending } := by
    simp [ledger, issued, registered, dispatched, hloop, hlog]
  rwa [heq]

theorem pending_of_noTimeouts {l : Loop Ev} (h : l.NoTimeouts) : l.pending = ↑l.inHeap := by
  simp [pending, inQueue_of_noTimeouts h]

theorem pending_card_of_noTimeouts {l : Loop Ev} (h : l.NoTimeouts) :
    l.pending.card = l.timeouts.length := by
  simp [pending_of_noTimeouts h, inHeap]

theorem checkedSub_eq_ok {a b n : Nat} : checkedSub a b = .ok n ↔ b ≤ a ∧ n = a - b := by
  unfold checkedSub
  split <;> simp_all [eq_comm]

/-- The four subtractions in a row. -/
theorem timerStats_eq_ok {l : Loop Ev} {dead alive : Nat} : l.timerStats = .ok (dead, alive) ↔
    l.timeouts.length ≤ l.timeoutsInserted ∧
    l.timeoutsFired ≤ l.timeoutsInserted - l.timeouts.length ∧
    l.timeoutsInserted - l.timeouts.length - l.timeoutsFired ≤ l.timeoutsDead ∧
    dead = l.timeoutsDead - (l.timeoutsInserted - l.timeouts.length - l.timeoutsFired) ∧
    dead ≤ l.timeouts.length ∧ alive = l.timeouts.length - dead := by
  simp only [timerStats, Except.bind_eq_ok, checkedSub_eq_ok]
  constructor
  · rintro ⟨_, ⟨h₁, rfl⟩, _, ⟨h₂, rfl⟩, _, ⟨h₃, rfl⟩, _, ⟨h₄, rfl⟩, ⟨⟩⟩
    exact ⟨h₁, h₂, h₃, rfl, h₄, rfl⟩
  · intro h
    rcases h with ⟨h₁, h₂, h₃, rfl, h₄, rfl⟩
    exact ⟨_, ⟨h₁, rfl⟩, _, ⟨h₂, rfl⟩, _, ⟨h₃, rfl⟩, _, ⟨h₄, rfl⟩, rfl⟩

theorem ledger_cleaned {dead alive : Nat} (hqueue : c.loop.NoTimeouts)
    (hstats : c.loop.timerStats = .ok (dead, alive)) (hloop : c'.loop = { c.loop with
      timeoutsDead := dead, timeoutsFired := 0, timeoutsInserted := c.loop.timeouts.length })
    (hlog : c'.log = c.log) : Ledger.Move c.ledger c'.ledger := by
  obtain ⟨_, _, _, hdead, _⟩ := timerStats_eq_ok.mp hstats
  have hcard := pending_card_of_noTimeouts hqueue
  have heq : c'.ledger = c.ledger.recount c.loop.pending.card 0
      (c.loop.timeoutsDead - (c.loop.timeoutsInserted - c.loop.pending.card -
        c.loop.timeoutsFired)) := by
    rw [hcard, ← hdead]
    simp only [ledger, hloop, Ledger.recount, issued, registered, dispatched, hlog]
    rfl
  rw [heq]
  exact Ledger.Move.cleaned

/-- The whole-heap rebuild keeps the entries of live events. -/
theorem ledger_rebuilt (hqueue : c.loop.NoTimeouts) (hloop : c'.loop = { c.loop with
      timeouts := c.loop.timeouts.filter fun t => c.loop.eventAlive t.recipient
      timeoutsDead := 0
      timeoutsFired := 0
      timeoutsInserted :=
        (c.loop.timeouts.filter fun t => c.loop.eventAlive t.recipient).length })
    (hlog : c'.log = c.log) : Ledger.Move c.ledger c'.ledger := by
  have hperm := List.filter_append_perm (fun t => !c.loop.eventAlive t.recipient) c.loop.timeouts
  simp only [Bool.not_not] at hperm
  have hpending := pending_split (l := c'.loop) hperm (by rw [hloop]) (by rw [hloop])
  have hqueue' : c'.loop.NoTimeouts := by
    rw [hloop]
    exact hqueue
  have hkept : c'.loop.pending =
      ↑((c.loop.timeouts.filter fun t => c.loop.eventAlive t.recipient).map
        TimeoutHolder.timer) := by
    rw [pending_of_noTimeouts hqueue', inHeap, hloop]
  have hmove := Ledger.Move.rebuilt (s := c.ledger) _ _ hpending (fun x hx => by
      obtain ⟨t, ht, rfl⟩ := List.mem_map.mp (Multiset.mem_coe.mp hx)
      rw [ledger_alive]
      simpa using (List.mem_filter.mp ht).2) (fun x hx => by
      rw [hkept] at hx
      obtain ⟨t, ht, rfl⟩ := List.mem_map.mp (Multiset.mem_coe.mp hx)
      rw [ledger_alive]
      exact (List.mem_filter.mp ht).2)
  have hcard : c'.loop.pending.card = c'.loop.timeoutsInserted := by
    rw [hkept, hloop, Multiset.coe_card, List.length_map]
  have heq : c'.ledger =
      Ledger.recount { c.ledger with pending := c'.loop.pending } c'.loop.pending.card 0 0 := by
    rw [hcard]
    simp only [ledger, Ledger.recount, issued, registered, dispatched, hlog]
    rw [hloop]
  rwa [heq]

/-- Operations that register no timeout. -/
theorem ledger_answer {op : Op Ev} {ans : Answer}
    (hquiet : ∀ caller, Obs.registers (.answered caller op ans : Obs Ev) = none)
    (hslots : c'.ledger.slots = c.ledger.slots) (hpending : c'.loop.pending = c.loop.pending)
    (htallies : c'.loop.tallies = c.loop.tallies)
    (hlog : c'.log = .answered c.caller op ans :: c.log) : c'.ledger = c.ledger := by
  refine ledger_congr hslots hpending htallies ?_ ?_ ?_
  · rw [issued, hlog]
    rfl
  · rw [registered, hlog, List.filterMap_cons_none (hquiet c.caller)]
    rfl
  · rw [dispatched, hlog]
    rfl

theorem registers_quiet {op : Op Ev} {ans : Answer}
    (h : ∀ op' now, op = .scope op' → op'.deadline now = none) (caller : Option Handle) :
    Obs.registers (.answered caller op ans : Obs Ev) = none := by
  unfold Obs.registers
  split
  · rename_i heq
    cases heq
    cases h _ 0 rfl
  · rename_i heq
    cases heq
    cases h _ 0 rfl
  · rfl

/-- Tasks of other kinds join or leave the queue. -/
theorem pending_scheduled {l : Loop Ev} {tasks : List Task} (h : ∀ task ∈ tasks, task.timer = none)
    (htimeouts : l.timeouts = c.loop.timeouts) (hsched : l.scheduled = c.loop.scheduled ++ tasks) :
    l.pending = c.loop.pending := by
  rw [pending, pending, inHeap, inHeap, htimeouts, inQueue, hsched, inQueue_append h]

theorem ledger_passed {task : Task} {rest : List Task} (hsched : c.loop.scheduled = task :: rest)
    (htimer : task.timer = none) (hloop : c'.loop = { c.loop with scheduled := rest })
    (hlog : c'.log = .dispatched task :: c.log) : c'.ledger = c.ledger := by
  have hpending := pending_popped hsched (l := c'.loop) (by rw [hloop]) (by rw [hloop])
  rw [htimer, Option.toList_none, Multiset.coe_nil, Multiset.zero_add] at hpending
  refine ledger_congr ?_ hpending.symm ?_ ?_ ?_ ?_
  · simp only [ledger, hloop]
  · rw [hloop]
    rfl
  · rw [issued, hlog]
    rfl
  · rw [registered, hlog]
    rfl
  · have hnone : Obs.fires (.dispatched task : Obs Ev) = none := htimer
    rw [dispatched, hlog, List.filterMap_cons_none hnone]
    rfl

/-- The books follow the loop: an elementary change is one of theirs or no change of them. -/
theorem Edit.ledger (d : Discipline c) (e : Edit a c c') :
    c'.ledger = c.ledger ∨ Ledger.Move c.ledger c'.ledger := by
  cases e with
  | stored event growth idx events ha hctl hstore => exact .inr (ledger_stored hstore rfl rfl)
  | timer op handle when holder events ha hctl hcaller hop hget hset =>
      exact .inr (ledger_timer hcaller hop hget (d.caller_gen hcaller hget) hset rfl rfl)
  | killed handle resp result holder events deregisters handler ha hctl hresp hget hfree hset =>
      exact .inr (ledger_killed hget (d.settling_gen hctl hget) hset rfl rfl rfl rfl)
  | dropped task rest ha hctl hsched hdead => exact .inr (ledger_dropped hsched hdead rfl rfl)
  | fired task rest id left holder events ha hctl hsched hparam hget hgen hleft hset =>
      exact .inr (ledger_fired hsched hparam hget hgen hleft hset rfl rfl)
  | pruned ha hctl => exact .inr (ledger_pruned rfl rfl)
  | cleaned dead alive ha hctl hqueue hstats hfew =>
      exact .inr (ledger_cleaned hqueue hstats rfl rfl)
  | rebuilt dead alive ha hctl hqueue hstats hmany =>
      exact .inr (ledger_rebuilt hqueue rfl rfl)
  | timed ha hctl =>
      exact .inl (ledger_congr rfl (pending_tasksGatherTimers c.loop) rfl rfl rfl rfl)
  | reorderedTimeouts order ha hperm =>
      exact .inl (ledger_congr rfl (pending_perm (hperm.map _) rfl) rfl rfl rfl rfl)
  | refusal op err ha hctl hr =>
      exact .inl (ledger_answer (fun caller => Obs.registers_error caller op err) rfl rfl rfl rfl)
  | query op v ha hctl hq =>
      exact .inl (ledger_answer (fun caller => Obs.registers_query caller _ hq) rfl rfl rfl rfl)
  | sent handle data tp holder ha hctl hget hgen hexp =>
      exact .inl (ledger_answer (registers_quiet (by rintro _ _ ⟨⟩)) rfl
        (pending_scheduled (by simp [Task.timer]) rfl rfl) rfl rfl)
  | stopped | poolSet | enabled =>
      exact .inl (ledger_answer (registers_quiet (by rintro _ _ ⟨⟩)) rfl rfl rfl rfl)
  | lent | signalled | idled | submitted | ioRefused =>
      exact .inl (ledger_answer (registers_quiet (by rintro _ _ ⟨⟩; rfl)) rfl rfl rfl rfl)
  | expected _ _ _ _ _ _ _ hget hset
  | ioRegistered _ _ _ _ _ _ _ _ _ hget _ hset
  | ioRemoved _ _ _ _ _ _ _ _ _ _ hget _ hset
  | tracked _ _ _ _ _ _ _ hget _ hset =>
      exact .inl (ledger_answer (registers_quiet (by rintro _ _ ⟨⟩; rfl))
        (ledger_sets hset hget rfl) rfl rfl rfl)
  | entered _ _ _ _ _ _ hget _ _ hset
  | finished _ _ _ _ _ _ _ _ _ _ _ hget _ hset =>
      exact .inl (ledger_congr (ledger_sets hset hget rfl) rfl rfl rfl rfl rfl)
  | reaped _ _ _ _ _ _ _ _ hget _ hset =>
      exact .inl (ledger_congr (ledger_sets hset hget rfl)
        (pending_scheduled (by simp [Task.timer]) rfl rfl) rfl rfl rfl rfl)
  | received | ready | idleTaken =>
      exact .inl
        (ledger_congr rfl (pending_scheduled (by simp [Task.timer]) rfl rfl) rfl rfl rfl rfl)
  | broadcast signal ha hctl =>
      refine .inl
        (ledger_congr rfl (pending_scheduled (fun task hmem => ?_) rfl rfl) rfl rfl rfl rfl)
      obtain ⟨handle, _, rfl⟩ := List.mem_map.mp hmem
      rfl
  | passed task rest holder ha hctl hsched hget hgen hkind =>
      exact .inl (ledger_passed hsched (Task.timer_eq_none hkind) rfl rfl)
  | lost task rest id ready source holder ha hctl hsched hparam =>
      exact .inl (ledger_passed hsched (by simp [Task.timer, hparam]) rfl rfl)
  | _ => exact .inl (ledger_congr rfl rfl rfl rfl rfl rfl)

theorem ledger_init (now : Nat) : (init now : Config Ev).ledger.Balanced where
  pending_issued x hx := by simp [ledger, init, Loop.new, pending, inHeap, inQueue] at hx
  alive_issued handle halive := by
    rw [ledger_alive] at halive
    simp [init, Loop.new, eventAlive, Recycler.get?_new] at halive
  counted handle n hslot := by simp [ledger, init, Loop.new, Recycler.get?_new] at hslot
  statistics := ⟨0, rfl, rfl⟩
  conserved := ⟨0, rfl, by simp⟩
  stamp := rfl
  stamped := rfl

/-- The books are balanced as long as no handle has been issued twice. -/
theorem Visited.balanced {P : Config Ev → Action Ev → Prop} (h : Visited P c)
    (hnodup : c.issued.Nodup) : c.ledger.Balanced := by
  induction h with
  | start now => exact ledger_init now
  | edit hv _ he ih =>
      have hold := hnodup.sublist (he.log_suffix.sublist.filterMap Obs.issued)
      rcases he.ledger hv.discipline with heq | hmove
      · exact heq ▸ ih hold
      · exact hmove.balanced (ih hold) hnodup

/-! ## What follows for the loop -/

theorem ledger_pending_count (c : Config Ev) (handle : Handle) : c.ledger.ownCount handle =
    c.loop.timeouts.countP (fun t => t.recipient = handle) +
      c.loop.inQueue.countP fun x => x.recipient = handle := by
  have hcount (xs : List Timer) :
      (xs.map Timer.recipient).count handle = xs.countP fun x => x.recipient = handle := by
    rw [List.count, List.countP_map]
    refine List.countP_congr fun x _ => ?_
    simp
  rw [Ledger.ownCount, ledger, pending, Multiset.map_add, Multiset.count_add, Multiset.map_coe,
    Multiset.map_coe, Multiset.coe_count, Multiset.coe_count, hcount, hcount, inHeap,
    List.countP_map]
  rfl

/-- An event counts its entries in the heap and those in the queue. -/
theorem timeouts_eq (b : c.ledger.Balanced) {handle : Handle} {holder : EvHolder Ev}
    (hget : c.loop.events.get? handle.id = some holder)
    (hgen : holder.generation = handle.generation) :
    holder.timeouts = c.loop.timeouts.countP (fun t => t.recipient = handle) +
      c.loop.inQueue.countP fun x => x.recipient = handle := by
  rw [b.counted handle holder.timeouts (by rw [ledger_slot hget, hgen]), ledger_pending_count]

theorem ledger_deadCount (hqueue : c.loop.NoTimeouts) : c.ledger.deadCount = c.loop.stillDead := by
  have hpending : c.ledger.pending = ↑c.loop.inHeap := pending_of_noTimeouts hqueue
  rw [Ledger.deadCount, hpending, Multiset.coe_countP, inHeap, List.countP_map, stillDead]
  refine List.countP_congr fun t _ => ?_
  simp [ledger_alive]

/-- The reconstruction finds the true numbers. -/
theorem timerStats_exact (b : c.ledger.Balanced) (hqueue : c.loop.NoTimeouts) :
    c.loop.timerStats = .ok (c.loop.stillDead, c.loop.stillAlive) := by
  rcases b.reconstruct with ⟨hlen, hfired, hdead, hstill⟩
  rw [ledger_deadCount hqueue] at hstill
  have hcard : c.ledger.pending.card = c.loop.timeouts.length := pending_card_of_noTimeouts hqueue
  rw [hcard] at hlen hfired hdead hstill
  have hsum := c.loop.stillDead_add_stillAlive
  exact timerStats_eq_ok.mpr ⟨hlen, hfired, hdead, hstill.symm, by omega, by omega⟩

theorem not_underflow (b : c.ledger.Balanced) : ¬Fail a c .underflow := by
  intro hfail
  cases hfail with
  | fireUnderflow task rest id holder hctl hsched hparam hget hgen hzero =>
      have hcount := timeouts_eq b hget hgen
      rw [hzero, inQueue_cons hsched, Task.timer_of_timeout hparam, Option.toList_some,
        List.singleton_append, List.countP_cons] at hcount
      simp at hcount
  | statsUnderflow hctl hqueue hstats =>
      rw [timerStats_exact b hqueue] at hstats
      cases hstats

theorem stillDead_le_of_cleanup {l l' : Loop Ev}
    (hstats : l.timerStats = .ok (l.stillDead, l.stillAlive)) (h : l.timersCleanup = .ok l') :
    l'.stillDead ≤ max 5 (3 * l'.stillAlive) := by
  obtain ⟨⟨dead, alive⟩, hs, h⟩ := Except.bind_eq_ok.mp h
  rw [hstats] at hs
  cases hs
  simp only at h
  split at h
  · cases h
    have hzero : (l.timeouts.filter fun t => l.eventAlive t.recipient).countP
        (fun t => l.eventAlive t.recipient = false) = 0 := by
      apply List.countP_eq_zero.mpr
      intro t ht
      simp [(List.mem_filter.mp ht).2]
    refine Nat.le_trans (Nat.le_of_eq ?_) (Nat.zero_le _)
    exact hzero
  · rename_i hfew
    cases h
    change l.stillDead ≤ max 5 (3 * l.stillAlive)
    omega

/-- Where `timers_cleanup` runs: in a gather, after the poll. -/
def CleansUp (c : Config Ev) (env : GatherEnv) (l : Loop Ev) : Prop :=
  c.ctl = .runOne ∧ c.loop.scheduled = [] ∧ c.loop.tasksPoll env = .ok (.woken l)

theorem balanced_of_few (h : Visited Anything c) (hfew : c.issued.length ≤ 2 ^ 64) :
    c.ledger.Balanced := h.balanced (h.identity.issued_nodup hfew)

theorem cleansUp_stats (h : Reachable c) (hfew : c.issued.length ≤ 2 ^ 64) {env : GatherEnv}
    {l : Loop Ev} (hclean : c.CleansUp env l) :
    l.timerStats = .ok (l.stillDead, l.stillAlive) := by
  rcases hclean with ⟨hctl, hsched, hpoll⟩
  have htraces := tasksPoll_traces env hctl c.loop hsched
  rw [hpoll] at htraces
  rcases htraces with ⟨hedits, hqueue⟩
  have hv := h.visited.gather_edits hedits
  have hnone : l.NoTimeouts := hqueue fun task ht => by simp [hsched] at ht
  exact timerStats_exact (balanced_of_few (c := { c with loop := l }) hv hfew) hnone

theorem step_not_underflow (h : Reachable c) (hfew : c.issued.length ≤ 2 ^ 64) :
    c.step a ≠ .error (.panic .underflow) := by
  intro hstep
  rcases fail_cases hstep with ⟨env, rfl⟩ | hfail
  · obtain ⟨c', hedits, hfail⟩ := gather_fails hstep
    have hlog := edits_frame Config.log (fun _ _ => Edit.log_of_gather) hedits
    have hfew' : c'.issued.length ≤ 2 ^ 64 := by rw [issued, hlog]; exact hfew
    exact not_underflow (balanced_of_few (h.visited.gather_edits hedits) hfew') hfail
  · exact not_underflow (balanced_of_few h.visited hfew) hfail

/-- With at most 2^64 insertions an event counts exactly its entries in the heap and the queue, no
counter of timeouts drops below zero, and `timers_cleanup` finds the true number of dead entries and
leaves at most 5 of them, or three for each live one. -/
theorem timer_statistics_exact (c : Config Ev) (h : Reachable c)
    (hfew : c.issued.length ≤ 2 ^ 64) :
    (∀ handle holder, c.loop.events.get? handle.id = some holder →
      holder.generation = handle.generation →
        holder.timeouts = c.loop.timeouts.countP (fun t => t.recipient = handle) +
          c.loop.inQueue.countP fun x => x.recipient = handle) ∧
    (∀ a, c.step a ≠ .error (.panic .underflow)) ∧
    ∀ env l, c.CleansUp env l → l.timerStats = .ok (l.stillDead, l.stillAlive) ∧
      ∃ l', l.timersCleanup = .ok l' ∧ l'.stillDead ≤ max 5 (3 * l'.stillAlive) := by
  refine ⟨fun _ _ => timeouts_eq (balanced_of_few h.visited hfew),
    fun _ => step_not_underflow h hfew, fun env l hclean => ?_⟩
  have hstats := cleansUp_stats h hfew hclean
  refine ⟨hstats, ?_⟩
  cases hcleaned : l.timersCleanup with
  | error p =>
      have := timersCleanup_error hcleaned
      rw [hstats] at this
      cases this
  | ok l' => exact ⟨l', rfl, stillDead_le_of_cleanup hstats hcleaned⟩

/-- One event waits for two timeouts; another registered one and died. -/
def oneDeadTimer : List (Action Unit) :=
  [.call (.iface (.insertExact () ⟨4, false⟩)), .tick, .call (.scope (.timeoutAt 7)),
    .call (.scope (.timeoutAfter 2)), .finish () (.ok true), .settle true (.ok ()), .tick,
    .call (.iface (.insertExact () ⟨4, false⟩)), .tick, .call (.scope (.timeoutAt 5)),
    .finish () (.ok false), .settle true (.ok ()), .tick, .call (.iface .runOne)]

theorem timer_statistics_exact_oneDeadTimer :
    ∃ l, CleansUp (after 0 oneDeadTimer) ⟨1, .ok [], 1, []⟩ l ∧
      l.timerStats = .ok (l.stillDead, l.stillAlive) ∧ l.stillDead = 1 ∧ l.stillAlive = 2 := by
  obtain ⟨l, hl, hdead, halive⟩ : ∃ l, CleansUp (after 0 oneDeadTimer) ⟨1, .ok [], 1, []⟩ l ∧
    l.stillDead = 1 ∧ l.stillAlive = 2 := ⟨_, ⟨rfl, rfl, rfl⟩, rfl, rfl⟩
  have h := timer_statistics_exact _ (reachable_after 0 oneDeadTimer) (by decide)
  exact ⟨l, hl, (h.2.2 _ l hl).1, hdead, halive⟩

/-! ## When generations wrap around

Events that come and go turn the counter of generations round once, until a handle is issued for
the second time while the heap still holds a timeout of its first owner. -/

/-- Room for one event, with this event in it or vacant. -/
def oneSlot : Option (EvHolder Unit) → Recycler (EvHolder Unit)
  | some holder => Recycler.new.pushed holder ⟨4, false⟩ rfl
  | none => (Recycler.new.pushed (.new () 0) ⟨4, false⟩ rfl).released 0 (.new () 0) rfl

/-- A loop that holds one timeout of its first, dead event, and what is in the slot now. -/
def lonely (slot : Option (EvHolder Unit)) (generation : Nat) : Loop Unit :=
  { (Loop.new 0 : Loop Unit) with
    events := oneSlot slot
    generation := generation
    timeouts := [⟨⟨0⟩, ⟨0, 0⟩, 5⟩]
    timeoutsDead := 1
    timeoutsInserted := 1
    timeoutGeneration := 1 }

def idleAt (generation : Nat) (log : List (Obs Unit)) : Config Unit :=
  ⟨lonely none generation, [], .user, log, 0, id⟩

/-- After the insertion of an event, and in its `init`. -/
def born (generation : Nat) (log : List (Obs Unit)) : Config Unit :=
  ⟨lonely (some (.new () generation)) (wrappingSucc generation), [.insertExact ⟨0, generation⟩],
    .call ⟨0, generation⟩ .init, .stored ⟨0, generation⟩ () :: log, 0, id⟩

def inInit (generation : Nat) (log : List (Obs Unit)) : Config Unit :=
  ⟨lonely (some { EvHolder.new () generation with event := ⟨(), true⟩ }) (wrappingSucc generation),
    [.callback ⟨0, generation⟩ .init ⟨⟨0, 0⟩⟩, .insertExact ⟨0, generation⟩], .user,
    .called ⟨0, generation⟩ .init () :: .stored ⟨0, generation⟩ () :: log, 0, id⟩

theorem born_tick (generation : Nat) (log : List (Obs Unit)) :
    step (born generation log) .tick = .ok (inInit generation log) := by
  have hget : (born generation log).loop.events.get? 0 = some (.new () generation) := rfl
  have henter : step (born generation log) .tick =
      ((born generation log).enter ⟨0, generation⟩ .init).mapError .panic := rfl
  simp only [henter, enter, eventCallEnter, hget]
  rw [if_neg (fun hne => hne rfl)]
  rfl

def insertQuick : Action Unit := .call (.iface (.insertExact () ⟨4, false⟩))

/-- The event does not want to live. -/
def giveUp : List (Action Unit) := [.finish () (.ok false), .settle true (.ok ()), .tick]

def roundLog (generation : Nat) (log : List (Obs Unit)) : List (Obs Unit) :=
  .returned (.insertExact ⟨0, generation⟩) (.ok (.handle ⟨0, generation⟩)) ::
    .killed ⟨0, generation⟩ :: .finished ⟨0, generation⟩ () (.ok false) ::
    .called ⟨0, generation⟩ .init () :: .stored ⟨0, generation⟩ () :: log

theorem idleAt_round (generation : Nat) (log : List (Obs Unit)) :
    TransitionSystem.run step (idleAt generation log) (insertQuick :: .tick :: giveUp) =
      .ok (idleAt (wrappingSucc generation) (roundLog generation log)) := by
  have hinsert : step (idleAt generation log) insertQuick = .ok (born generation log) := rfl
  rw [TransitionSystem.run_cons hinsert, TransitionSystem.run_cons (born_tick generation log)]
  rfl

/-- The first event registers the timeout. -/
def firstLife : List (Action Unit) :=
  insertQuick :: .tick :: .call (.scope (.timeoutAt 5)) :: giveUp

theorem firstLife_run : TransitionSystem.run step (init 0) firstLife =
    .ok (idleAt 1 (after 0 firstLife).log) := rfl

/-- The rounds go on forever, and their histories keep what one round keeps. -/
theorem reachable_idleAt {P : List (Obs Unit) → Prop} (first : P (after 0 firstLife).log)
    (round : ∀ generation log, P log → P (roundLog generation log)) (n : Nat) :
    ∃ log, Reachable (idleAt ((1 + n) % 2 ^ 64) log) ∧ P log := by
  induction n with
  | zero => exact ⟨_, ⟨0, .of_run firstLife_run⟩, first⟩
  | succ n ih =>
      rcases ih with ⟨log, hr, hlog⟩
      have hrun := idleAt_round ((1 + n) % 2 ^ 64) log
      have hsucc : wrappingSucc ((1 + n) % 2 ^ 64) = (1 + (n + 1)) % 2 ^ 64 := by
        rw [wrappingSucc, Nat.mod_add_mod]
        rfl
      exact ⟨_, hsucc ▸ hr.reach (.of_run hrun), round _ log hlog⟩

/-- An event that lives on without a timeout of its own, and a gather when the old one is due. -/
def lateGather : List (Action Unit) :=
  [insertQuick, .tick, .finish () (.ok true), .settle true (.ok ()), .tick, .call (.iface .runOne),
    .gather ⟨9, .ok [], 9, []⟩]

/-- After more than 2^64 insertions an event may get a timeout that it never counted. -/
theorem timeouts_underflow_after_wrap :
    ¬∀ c : Config Unit, Reachable c → ∀ a, c.step a ≠ .error (.panic .underflow) := by
  intro hall
  obtain ⟨log, hr, _⟩ := reachable_idleAt (P := fun _ => True) trivial (fun _ _ _ => trivial)
    (2 ^ 64 - 1)
  have hlate : ∃ c, TransitionSystem.run step (idleAt 0 log) lateGather = .ok c ∧
      c.step .tick = .error (.panic .underflow) := ⟨_, rfl, rfl⟩
  rcases hlate with ⟨c, hrun, hpanic⟩
  exact hall c (hr.reach (.of_run hrun)) .tick hpanic

end Config

end Eveboros
