import Eveboros.Adapt.Host

/-!
# Running commands in parallel

The example `pargs` reads commands from stdin and keeps a given number of them running.  It is user
code that the loop calls: here it is not left open what the callbacks do, but read off the program.
-/

namespace Eveboros.Pargs

/-- Keeps one command alive. -/
structure Runner where
  command : Option String
  deriving DecidableEq, Repr

structure Context where
  errors : Bool
  /-- The lines that are still to be read, or the errors in their place. -/
  commands : List (Except IoErrorKind String)

/-- How far `run` has got. -/
inductive Owner
  /-- Insert so many more runners. -/
  | inserting (left : Nat)
  | running
  | returned (result : Except Error Unit)

/-- How far the callback of a runner has got. -/
inductive Stage
  | outside
  | entered (handle : Handle) (cb : Callback) (event : Runner)
  /-- In `Runner::run`. -/
  | running (handle : Handle) (event : Runner)
  | registered (handle : Handle) (cmd : String)

def Stage.handle : Stage → Option Handle
  | .outside => none
  | .entered handle _ _ => some handle
  | .running handle _ => some handle
  | .registered handle _ => some handle

/-- A command that has been started, and its runner has not heard of its exit. -/
structure Job where
  handle : Handle
  pid : Pid
  command : String
  deriving DecidableEq, Repr

structure Program where
  conf : Config Runner
  ctx : Context
  owner : Owner
  stage : Stage
  /-- The lines on stderr, newest first. -/
  stderr : List String
  /-- Ghost: the commands started so far, newest first. -/
  started : List String
  /-- Ghost -/
  working : List Job
  /-- Ghost: how commands ended, newest first. -/
  exits : List (String × ChildExit)

inductive Act
  /-- The owner goes on. -/
  | owner (growth : Growth)
  /-- The callback goes on.  The operating system answers so if it starts a process, and so if it
  writes to stderr. -/
  | callback (spawn : Except IoErrorKind Pid) (written : Option IoErrorKind)
  | settle
  | tick
  /-- The environment, and what the standard library leaves open. -/
  | other (a : Action Runner)

inductive Fault
  /-- `unwrap` on `None`. -/
  | unwrap
  /-- `unwrap` of a failed write to stderr. -/
  | stderr
  | loop (fault : Eveboros.Fault)
  deriving DecidableEq, Repr

def complaint (cmd : String) : ChildExit → Option String
  | .exited 0 => none
  | .exited code => some s!"Command {cmd} exited with err code {code}"
  | .signaled sig => some s!"Command {cmd} was killed by signal {sig.num}"

/-- The default error handler passes the error through. -/
def errorHandler : Ctl → Except Error Unit
  | .settle _ (.error err) => .error err
  | _ => .ok ()

namespace Program

/-- `jobs` is the number on the command line. -/
def init (now jobs : Nat) (lines : List (Except IoErrorKind String)) : Program where
  conf := .init now
  ctx := ⟨false, lines⟩
  owner := .inserting jobs
  stage := .outside
  stderr := []
  started := []
  working := []
  exits := []

def perform (p : Program) (a : Action Runner) : Except Fault Program :=
  match p.conf.step a with
  | .ok c => .ok { p with conf := c }
  | .error fault => .error (.loop fault)

/-! ## The runners -/

def finish (p : Program) (event : Runner) (resp : Response) : Except Fault Program :=
  { p with stage := .outside }.perform (.finish event resp)

/-- `Runner::run`, up to the registration of the child. -/
def run (p : Program) (handle : Handle) (event : Runner) (spawn : Except IoErrorKind Pid) :
    Except Fault Program :=
  match p.ctx.commands with
  | [] => p.finish event (.ok false)
  | .error e :: rest =>
      { p with ctx := { p.ctx with commands := rest } }.finish event (.error (.io e))
  | .ok cmd :: rest =>
      match spawn with
      | .error e => { p with ctx := { p.ctx with commands := rest } }.finish event (.error (.io e))
      | .ok pid =>
          -- A new process gets no number that belongs to a child which nobody has reaped.
          if pid ∈ p.conf.loop.children then .error (.loop .disabled)
          else { p with
            ctx := { p.ctx with commands := rest }
            stage := .registered handle cmd
            started := cmd :: p.started
            working := ⟨handle, pid, cmd⟩ :: p.working }.perform (.call (.scope (.child pid)))

/-- The end of a command that has been printed, if there is anything to print. -/
def heard (p : Program) (handle : Handle) (pid : Pid) (cmd : String) (exit : ChildExit) :
    Program where
  conf := p.conf
  ctx := { p.ctx with errors := p.ctx.errors || (complaint cmd exit).isSome }
  owner := p.owner
  stage := .running handle ⟨none⟩
  stderr := (complaint cmd exit).toList ++ p.stderr
  started := p.started
  working := p.working.erase ⟨handle, pid, cmd⟩
  exits := (cmd, exit) :: p.exits

/-- `Runner::child`, up to `run`: print how well it went. -/
def hear (p : Program) (handle : Handle) (pid : Pid) (cmd : String) (exit : ChildExit)
    (written : Option IoErrorKind) : Except Fault Program :=
  match complaint cmd exit, written with
  | some _, some _ => .error .stderr
  | _, _ => .ok (p.heard handle pid cmd exit)

def callback (p : Program) (spawn : Except IoErrorKind Pid) (written : Option IoErrorKind) :
    Except Fault Program :=
  match p.stage with
  | .outside => .error (.loop .disabled)
  | .entered handle .init event => .ok { p with stage := .running handle event }
  | .entered handle (.child pid exit) event =>
      match event.command with
      | some cmd => p.hear handle pid cmd exit written
      | none => .error .unwrap
  -- The default implementation.
  | .entered _ _ event => p.finish event (.error .defaultImpl)
  | .running handle event => p.run handle event spawn
  | .registered _ cmd => p.finish ⟨some cmd⟩ (.ok true)

/-! ## The owner of the loop -/

/-- What `run` returns after `run_until_empty`. -/
def verdict (p : Program) : Except Error Unit :=
  if p.ctx.errors then .error (.userStr "A command failed") else .ok ()

def proceed (p : Program) (growth : Growth) : Except Fault Program :=
  match p.conf.ctl, p.conf.stack with
  | .user, [] =>
      match p.owner, p.conf.answered with
      | .returned _, _ => .error (.loop .disabled)
      | _, some (.error err) => .ok { p with owner := .returned (.error err) }
      | .inserting 0, _ => { p with owner := .running }.perform (.call (.iface .runUntilEmpty))
      | .inserting (left + 1), _ =>
          { p with owner := .inserting left }.perform
            (.call (.iface (.insertExact ⟨none⟩ growth)))
      | .running, some (.ok _) => .ok { p with owner := .returned p.verdict }
      | .running, none => .error (.loop .disabled)
  | _, _ => .error (.loop .disabled)

/-- The loop goes on by itself and may call a runner. -/
def tick (p : Program) : Except Fault Program :=
  match p.conf.step .tick with
  | .ok c => .ok { p with
      conf := c
      stage := match c.entered with
        | some (handle, cb, event) => .entered handle cb event
        | none => p.stage }
  | .error fault => .error (.loop fault)

def other (p : Program) (a : Action Runner) : Except Fault Program :=
  match a with
  | .call _ | .finish _ _ | .settle _ _ | .tick => .error (.loop .disabled)
  | a => p.perform a

/-- The loop is gone when `run` has returned. -/
def step (p : Program) (act : Act) : Except Fault Program :=
  match p.owner, act with
  | .returned _, _ => .error (.loop .disabled)
  | _, .owner growth => p.proceed growth
  | _, .callback spawn written => p.callback spawn written
  | _, .settle => p.perform (.settle true (errorHandler p.conf.ctl))
  | _, .tick => p.tick
  | _, .other a => p.other a

end Program

end Eveboros.Pargs
