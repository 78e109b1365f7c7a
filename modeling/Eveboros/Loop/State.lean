import Mathlib.Data.List.AList
import Mathlib.Order.OrderDual
import Eveboros.Lib.ListSet
import Eveboros.Lib.PriorityHeap
import Eveboros.Recycler
import Eveboros.StolenCell
import Eveboros.Types

/-!
# The state of the event loop

The record `Loop` has the fields of the source that decide what the loop does.  The context and
the error handler belong to the user and appear as choices of the environment; the poll and its
event buffer belong to mio and appear as what a gather is told.
-/

namespace Eveboros

structure IoHolder where
  recipient : Handle
  /-- Identity of the box: every registration makes a new one and moves its object in. -/
  io : Nat
  deriving DecidableEq, Repr

structure EvHolder (Ev : Type) where
  event : StolenCell Ev
  generation : Nat
  timeouts : Nat
  ios : AList fun _ : Nat => IoHolder
  expectedMessages : ListSet TypeId
  children : ListSet Pid

def EvHolder.new {Ev : Type} (event : Ev) (generation : Nat) : EvHolder Ev where
  event := .new event
  generation := generation
  timeouts := 0
  ios := ∅
  expectedMessages := ∅
  children := ∅

inductive TaskParam
  /-- The readiness of an IO.  `source` is ghost: the object whose readiness mio reported, read by
  no code. -/
  | io (id : IoId) (ready : Ready) (source : Nat)
  | timeout (id : TimeoutId)
  | signal (signal : Signal)
  | message (message : Message)
  | child (pid : Pid) (exit : ChildExit)
  | idle
  deriving DecidableEq, Repr

structure Task where
  recipient : Handle
  param : TaskParam
  deriving DecidableEq, Repr

inductive Callback
  | init
  | io (id : IoId) (ready : Ready)
  | timeout (id : TimeoutId)
  | signal (signal : Signal)
  | idle
  | message (message : Message)
  | child (pid : Pid) (exit : ChildExit)
  deriving DecidableEq, Repr

structure TimeoutHolder where
  id : TimeoutId
  recipient : Handle
  when : Nat
  deriving DecidableEq, Repr

namespace TimeoutHolder

/-- The heap hands out its greatest element first, so the order of deadlines is flipped around:
the smaller ones come first. -/
def cmp (self other : TimeoutHolder) : Ordering := compare other.when self.when

/-- A key whose natural order is `cmp`. -/
def key (self : TimeoutHolder) : Natᵒᵈ := OrderDual.toDual self.when

theorem cmp_eq_compare_key (a b : TimeoutHolder) : cmp a b = compare a.key b.key := rfl

@[simp] theorem key_le_key {a b : TimeoutHolder} : a.key ≤ b.key ↔ b.when ≤ a.when := Iff.rfl

end TimeoutHolder

/-- The pool of background threads with the jobs submitted so far; a job knows its id and the
event it reports to. -/
structure ThreadPool where
  threads : Nat
  jobs : List (BackgroundId × Handle)

structure Loop (Ev : Type) where
  active : Bool
  events : Recycler (EvHolder Ev)
  generation : Nat
  /-- Tasks ready to be dispatched one by one. -/
  scheduled : List Task
  timeouts : List TimeoutHolder
  timeoutsDead : Nat
  timeoutsFired : Nat
  timeoutsInserted : Nat
  timeoutGeneration : Nat
  /-- The clock reading of the last gather. -/
  now : Nat
  ios : Recycler Handle
  iosReleased : ListSet Nat
  wantIdle : ListSet Handle
  /-- The content of the channel from the other threads. -/
  receiver : List RemoteMessage
  threadpool : Option ThreadPool
  backgroundGeneration : Nat
  signalRecipients : Nat → ListSet Handle
  signalsEnabled : Nat → Bool
  /-- The flags of the notifier, by signal number. -/
  signalFlags : Nat → Bool
  /-- Does the wake-up channel, of capacity one, hold its token? -/
  signalWakeup : Bool
  children : AList fun _ : Pid => Handle

/-- The places where the loop panics. -/
inductive Panic
  | events (fault : RecyclerFault)
  | ios (fault : RecyclerFault)
  | cell (fault : CellFault)
  /-- `tasks_gather` with tasks still scheduled. -/
  | tasksScheduled
  /-- Deregistering an IO of a dying event failed. -/
  | deregister
  /-- The process is already tracked. -/
  | childTracked
  /-- The two indexes of children disagree. -/
  | childUnlinked
  /-- A counter of timeouts would drop below zero. -/
  | underflow
  /-- `Instant + Duration` overflows. -/
  | instantOverflow
  /-- `sigaction` refuses the signal. -/
  | sigaction
  /-- A pool needs a thread. -/
  | noThreads
  /-- `waitpid` cannot decode the status of a child. -/
  | waitpid
  deriving DecidableEq, Repr

namespace Loop

variable {Ev : Type}

/-- `Loop::new` at the given clock reading. -/
def new (now : Nat) : Loop Ev where
  active := false
  events := .new
  generation := 0
  scheduled := []
  timeouts := []
  timeoutsDead := 0
  timeoutsFired := 0
  timeoutsInserted := 0
  timeoutGeneration := 0
  now := now
  ios := .new
  iosReleased := ∅
  wantIdle := ∅
  receiver := []
  threadpool := none
  backgroundGeneration := 0
  signalRecipients := fun _ => ∅
  signalsEnabled := fun _ => false
  signalFlags := fun _ => false
  signalWakeup := false
  children := ∅

def cellAddr (l : Loop Ev) (idx : Nat) : Addr := ⟨l.events.data.buf, idx⟩

/-- `valid(handle.id) && events[handle.id].generation == handle.generation` -/
def eventAlive (l : Loop Ev) (handle : Handle) : Bool :=
  match l.events.get? handle.id with
  | some holder => holder.generation == handle.generation
  | none => false

theorem eventAlive_iff {l : Loop Ev} {handle : Handle} :
    l.eventAlive handle = true ↔
      ∃ holder, l.events.get? handle.id = some holder ∧
        holder.generation = handle.generation := by
  unfold eventAlive
  cases l.events.get? handle.id <;> simp

theorem eventAlive_eq_map (l : Loop Ev) (handle : Handle) : l.eventAlive handle =
    ((l.events.get? handle.id).map EvHolder.generation == some handle.generation) := by
  unfold eventAlive
  cases l.events.get? handle.id <;> rfl

/-- Updating a holder does not change which events are alive. -/
theorem eventAlive_of_sets {l l' : Loop Ev} {idx : Nat} {old new : EvHolder Ev}
    {events : Recycler (EvHolder Ev)} (hset : l.events.Sets idx (some new) events)
    (hget : l.events.get? idx = some old) (hgen : new.generation = old.generation)
    (hevents : l'.events = events) (handle : Handle) :
    l'.eventAlive handle = l.eventAlive handle := by
  rw [eventAlive_eq_map, eventAlive_eq_map, hevents, hset.map_eq hget hgen]

theorem eventAlive_congr {l l' : Loop Ev} {handle : Handle}
    (h : l'.events.get? handle.id = l.events.get? handle.id) :
    l'.eventAlive handle = l.eventAlive handle := by
  simp [eventAlive, h]

end Loop

end Eveboros
