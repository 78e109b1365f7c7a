import Eveboros.Loop.Rounds
import Eveboros.Signals.Wakeup

/-!
# The loop and its children

A process that ends stays as a zombie until `waitpid` reaps it, and a dispatch of SIGCHLD follows
its end, one for any number of them.  Gathers go round by round, so forks, ends and dispatches
come between any two looks of the loop.  A ghost keeps who waits for whom.
-/

namespace Eveboros

variable {Ev : Type}

/-- How far the dispatch of SIGCHLD for a zombie has got. -/
inductive News
  | pending
  | flagged
  | completed
  deriving DecidableEq, Repr

structure Zombie where
  pid : Pid
  exit : ChildExit
  news : News
  deriving DecidableEq, Repr

namespace Zombie

/-- A dispatch sets the flag on behalf of these processes. -/
def flag (covered : List Pid) (z : Zombie) : Zombie :=
  if z.pid ∈ covered ∧ z.news = .pending then { z with news := .flagged } else z

/-- A dispatch on behalf of these processes has sent the wake-up. -/
def complete (covered : List Pid) (z : Zombie) : Zombie :=
  if z.pid ∈ covered ∧ z.news = .flagged then { z with news := .completed } else z

@[simp] theorem flag_pid (covered : List Pid) (z : Zombie) : (z.flag covered).pid = z.pid := by
  unfold flag
  split <;> rfl

@[simp] theorem complete_pid (covered : List Pid) (z : Zombie) :
    (z.complete covered).pid = z.pid := by
  unfold complete
  split <;> rfl

theorem complete_pending {covered : List Pid} {z : Zombie} (h : z.news = .pending) :
    (z.complete covered).news = .pending := by
  simp [complete, h]

end Zombie

/-- The child that `waitpid` has reaped. -/
def reapedBy : WaitResult → Option (Pid × ChildExit)
  | .ok (.exited pid code) => some (pid, .exited code)
  | .ok (.signaled pid signal _) => some (pid, .signaled signal)
  | _ => none

/-- The answers by which `waitpid` says that there is nothing to reap. -/
def nothingLeft : WaitResult → Bool
  | .ok .stillAlive => true
  | .error (.sys .EAGAIN) => true
  | .error (.sys .ECHILD) => true
  | _ => false

/-- The answers that `waitpid` has a choice of. -/
def mayAnswer (zombies : List Zombie) (answer : WaitResult) : Bool :=
  match reapedBy answer with
  | some (pid, exit) => zombies.any fun z => z.pid = pid ∧ z.exit = exit
  | none => !nothingLeft answer || zombies.isEmpty

/-- Who waits for whom, and which exits had to be reported. -/
structure ChildRegistry where
  waits : Pid → Option Handle
  /-- In the order in which the children were reaped. -/
  reports : List Task

namespace ChildRegistry

def new : ChildRegistry := ⟨fun _ => none, []⟩

def forget (r : ChildRegistry) (handle : Handle) : ChildRegistry :=
  { r with waits := fun pid => if r.waits pid = some handle then none else r.waits pid }

/-- What a step of the loop means: `child` registers its caller, an event that dies does not wait
any more. -/
def follow (r : ChildRegistry) (c : Config Ev) (a : Action Ev) : ChildRegistry :=
  match a with
  | .call (.scope (.child pid)) => { r with waits := Function.update r.waits pid c.caller }
  | .settle _ _ =>
      match c.ctl with
      | .settle _ (.ok true) => r
      | .settle handle _ => r.forget handle
      | _ => r
  | _ => r

/-- What has to be reported when the process is reaped. -/
def report (r : ChildRegistry) (pid : Pid) (exit : ChildExit) : List Task :=
  (r.waits pid).toList.map fun handle => ⟨handle, .child pid exit⟩

def reap (r : ChildRegistry) (pid : Pid) (exit : ChildExit) : ChildRegistry where
  waits := Function.update r.waits pid none
  reports := r.reports ++ r.report pid exit

end ChildRegistry

structure Nursery (Ev : Type) where
  config : Config Ev
  /-- Where the gather under way goes on. -/
  phase : Option GatherPhase
  living : List Pid
  zombies : List Zombie
  /-- The processes forked since the last round of a gather. -/
  fresh : List Pid
  registry : ChildRegistry

inductive NurseryAction (Ev : Type)
  /-- A step of the loop outside of gathers, or one of its environment. -/
  | loop (a : Action Ev)
  /-- A gather begins.  What `waitpid` answers is said later. -/
  | gather (env : GatherEnv)
  /-- The gather goes on with an event of the poll or a flag. -/
  | round
  | wait (answer : WaitResult)
  | fork (pid : Pid)
  | exit (pid : Pid) (exit : ChildExit)
  /-- A dispatch of SIGCHLD sets the flag; it stands for the ends of all these processes. -/
  | store (covered : List Pid)
  | trySend (covered : List Pid)

namespace Nursery

def start (now : Nat) : Nursery Ev := ⟨.init now, none, [], [], [], .new⟩

def pids (n : Nursery Ev) : List Pid := n.living ++ n.zombies.map Zombie.pid

/-- Is the loop inside the reaping? -/
def reaping (n : Nursery Ev) : Bool :=
  match n.phase with
  | some phase => phase.reaps
  | none => false

/-- During a gather only others act.  The dispatches of SIGCHLD are actions of their own. -/
def admits (n : Nursery Ev) (a : Action Ev) : Bool :=
  match a with
  | .gather _ => false
  | .dispatch signal => signal ≠ .SIGCHLD
  | .remote _ => true
  | _ => n.phase.isNone

def goOn (n : Nursery Ev) (p : Progress Ev) : Nursery Ev :=
  { n with
    config := { n.config with
      loop := p.loop
      ctl := match p.error with
        | some err => .ret (.error err)
        | none => n.config.ctl }
    phase := p.phase
    fresh := [] }

def bury (n : Nursery Ev) (pid : Pid) (exit : ChildExit) : Nursery Ev :=
  { n with
    zombies := n.zombies.filter fun z => z.pid ≠ pid
    registry := n.registry.reap pid exit }

/-- What the answer means for the children. -/
def hear (n : Nursery Ev) (answer : WaitResult) : Nursery Ev :=
  match reapedBy answer with
  | some (pid, exit) => n.bury pid exit
  | none => n

/-- The dispatcher notifies the loop if SIGCHLD is enabled in it. -/
def notify (n : Nursery Ev) (f : Loop Ev → Loop Ev) : Nursery Ev :=
  if n.config.loop.signalsEnabled Signal.SIGCHLD.num then
    { n with config := { n.config with loop := f n.config.loop } }
  else n

def step (n : Nursery Ev) (a : NurseryAction Ev) : Except Fault (Nursery Ev) :=
  match a with
  | .loop a =>
      if n.admits a then do
        let c ← n.config.step a
        return { n with config := c, registry := n.registry.follow n.config a }
      else .error .disabled
  | .gather env =>
      match n.phase, n.config.ctl, n.config.loop.scheduled with
      | none, .runOne, [] => do
          let p ← (n.config.loop.gatherBegin env).mapError .panic
          return n.goOn p
      | _, _, _ => .error .disabled
  | .round =>
      match n.phase with
      | some (.events evs) => do
          let p ← (n.config.loop.eventRound evs).mapError .panic
          return n.goOn p
      | some (.signals signums evs) => do
          let p ← (n.config.loop.signalRound signums evs).mapError .panic
          return n.goOn p
      | _ => .error .disabled
  | .wait answer =>
      match n.phase with
      | some (.children signums evs) =>
          if mayAnswer n.zombies answer then do
            let p ← (n.config.loop.waitRound answer signums evs).mapError .panic
            return (n.hear answer).goOn p
          else .error .disabled
      | _ => .error .disabled
  | .fork pid =>
      if pid ∈ n.pids then .error .disabled
      else .ok { n with living := pid :: n.living, fresh := pid :: n.fresh }
  | .exit pid exit =>
      if pid ∈ n.living then
        .ok { n with
          living := n.living.erase pid, zombies := ⟨pid, exit, .pending⟩ :: n.zombies }
      else .error .disabled
  | .store covered =>
      .ok { n.notify (·.storeFlag Signal.SIGCHLD.num) with
        zombies := n.zombies.map (Zombie.flag covered) }
  | .trySend covered =>
      .ok { n.notify (·.trySend) with zombies := n.zombies.map (Zombie.complete covered) }

/-- The program enables SIGCHLD before it forks and registers a child before the next gather;
`waitpid` does not fail in other ways than the two that mean there is nothing to wait for. -/
def careful (n : Nursery Ev) (a : NurseryAction Ev) : Bool :=
  match a with
  | .loop (.call (.scope (.child pid))) => pid ∈ n.fresh
  | .wait (.error err) => err = .sys .EAGAIN ∨ err = .sys .ECHILD
  | .fork _ => n.config.loop.signalsEnabled Signal.SIGCHLD.num
  | _ => true

end Nursery

end Eveboros
