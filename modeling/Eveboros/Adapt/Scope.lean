import Eveboros.Lib.Script
import Eveboros.Machine.Map

/-!
# Scopes as objects

A callback reaches the loop through a scope.  The traits of scopes have methods that every
implementation writes, and provided ones made of these.  A scope is modelled as the table of its
methods; a method is a script that asks the loop.  The generic methods (`insert`, `with_context`,
`send`, `post`, `io_register`, `with_io`, `background`) have no place in such a table: whoever calls
one calls the methods here that it is made of.
-/

namespace Eveboros

/-- What a scope asks of the loop: an operation in the name of the innermost callback, or the
context, which the borrower leaves changed.  And it adds instants and durations. -/
inductive Request (Ctx Ev : Type)
  | loop (op : Op Ev)
  | context (f : Ctx → Ctx)
  | add (now after : Nat)

abbrev MethodScript (Ctx Ev : Type) := Script (Request Ctx Ev) Answer Answer

structure LoopIfaceObjSafe (Ctx Ev : Type) where
  insertExact (event : Ev) (growth : Growth) : MethodScript Ctx Ev
  context (f : Ctx → Ctx) : MethodScript Ctx Ev
  runOne : MethodScript Ctx Ev
  runUntilComplete (handle : Handle) : MethodScript Ctx Ev
  run : MethodScript Ctx Ev
  stop : MethodScript Ctx Ev
  eventAlive (handle : Handle) : MethodScript Ctx Ev
  eventCount : MethodScript Ctx Ev
  now : MethodScript Ctx Ev
  sendImpl (handle : Handle) (data : AnyBox) (tp : TypeId) : MethodScript Ctx Ev
  postImpl (handle : Handle) (data : AnyBox) (tp : TypeId) : MethodScript Ctx Ev
  channel (handle : Handle) : MethodScript Ctx Ev

structure ScopeObjSafe (Ctx Ev : Type) extends LoopIfaceObjSafe Ctx Ev where
  handle : MethodScript Ctx Ev
  timeoutAt (when : Nat) : MethodScript Ctx Ev
  signal (signal : Signal) : MethodScript Ctx Ev
  idle : MethodScript Ctx Ev
  expectMessage (tp : TypeId) : MethodScript Ctx Ev
  ioRegisterAny (growth : Growth) (outcome : Option IoErrorKind) : MethodScript Ctx Ev
  ioMut (id : IoId) (left : Option Nat) : MethodScript Ctx Ev
  ioUpdate (id : IoId) (outcome : Option IoErrorKind) : MethodScript Ctx Ev
  ioRemove (id : IoId) (outcome : Option IoErrorKind) : MethodScript Ctx Ev
  backgroundSubmit : MethodScript Ctx Ev
  child (pid : Pid) : MethodScript Ctx Ev

variable {Ctx Ev Ev' : Type}

/-! ## Provided methods -/

/-- `run_until_empty`: an empty loop is what is wanted. -/
def LoopIfaceObjSafe.runUntilEmpty (self : LoopIfaceObjSafe Ctx Ev) : MethodScript Ctx Ev :=
  self.run.bind fun
    | .error .empty => .done (.ok .unit)
    | r => .done r

/-- `timeout_after`; no answer of `now` is anything but a time. -/
def ScopeObjSafe.timeoutAfter (self : ScopeObjSafe Ctx Ev) (after : Nat) : MethodScript Ctx Ev :=
  self.now.bind fun
    | .ok (.nat now) =>
        .ask (.add now after) fun
          | .ok (.nat when) => self.timeoutAt when
          | r => .done r
    | r => .done r

/-! ## The implementations -/

/-- The scope that the loop passes to a callback: each method is an operation of the loop. -/
def loopScope : ScopeObjSafe Ctx Ev where
  insertExact event growth := .request (.loop (.iface (.insertExact event growth)))
  context f := .request (.context f)
  stop := .request (.loop (.iface .stop))
  runOne := .request (.loop (.iface .runOne))
  runUntilComplete handle := .request (.loop (.iface (.runUntilComplete handle)))
  run := .request (.loop (.iface .run))
  eventAlive handle := .request (.loop (.iface (.eventAlive handle)))
  eventCount := .request (.loop (.iface .eventCount))
  now := .request (.loop (.iface .now))
  sendImpl handle data tp := .request (.loop (.iface (.sendImpl handle data tp)))
  postImpl handle data tp := .request (.loop (.iface (.postImpl handle data tp)))
  channel handle := .request (.loop (.iface (.channel handle)))
  handle := .request (.loop (.scope .handle))
  timeoutAt when := .request (.loop (.scope (.timeoutAt when)))
  idle := .request (.loop (.scope .idle))
  signal signal := .request (.loop (.scope (.signal signal)))
  expectMessage tp := .request (.loop (.scope (.expectMessage tp)))
  ioRegisterAny growth outcome := .request (.loop (.scope (.ioRegisterAny growth outcome)))
  ioUpdate id outcome := .request (.loop (.scope (.ioUpdate id outcome)))
  ioRemove id outcome := .request (.loop (.scope (.ioRemove id outcome)))
  ioMut id left := .request (.loop (.scope (.ioMut id left)))
  backgroundSubmit := .request (.loop (.scope .backgroundSubmit))
  child pid := .request (.loop (.scope (.child pid)))

/-- `DynScope`: a scope behind a reference to a trait object. -/
def dynScope (inner : ScopeObjSafe Ctx Ev) : ScopeObjSafe Ctx Ev where
  insertExact event growth := inner.insertExact event growth
  context f := inner.context f
  runOne := inner.runOne
  runUntilComplete handle := inner.runUntilComplete handle
  run := inner.run
  stop := inner.stop
  eventAlive handle := inner.eventAlive handle
  eventCount := inner.eventCount
  now := inner.now
  sendImpl handle data tp := inner.sendImpl handle data tp
  postImpl handle data tp := inner.postImpl handle data tp
  channel handle := inner.channel handle
  handle := inner.handle
  timeoutAt when := inner.timeoutAt when
  signal signal := inner.signal signal
  idle := inner.idle
  expectMessage tp := inner.expectMessage tp
  ioRegisterAny growth outcome := inner.ioRegisterAny growth outcome
  ioMut id left := inner.ioMut id left
  ioUpdate id outcome := inner.ioUpdate id outcome
  ioRemove id outcome := inner.ioRemove id outcome
  backgroundSubmit := inner.backgroundSubmit
  child pid := inner.child pid

/-- A scope behind any number of references has the methods of the scope itself. -/
theorem dynScope_eq (inner : ScopeObjSafe Ctx Ev) : dynScope inner = inner := rfl

/-! ## Calls -/

/-- What a callback may call on its scope. -/
inductive Method (Ctx Ev : Type)
  | iface (op : IfaceOp Ev)
  | context (f : Ctx → Ctx)
  | scope (op : ScopeOp)

/-- Dispatch through the table; the provided methods are those of the traits. -/
def ScopeObjSafe.call (self : ScopeObjSafe Ctx Ev) : Method Ctx Ev → MethodScript Ctx Ev
  | .iface op =>
      match op with
      | .insertExact event growth => self.insertExact event growth
      | .runOne => self.runOne
      | .runUntilComplete handle => self.runUntilComplete handle
      | .run => self.run
      | .runUntilEmpty => self.runUntilEmpty
      | .stop => self.stop
      | .eventAlive handle => self.eventAlive handle
      | .eventCount => self.eventCount
      | .now => self.now
      | .sendImpl handle data tp => self.sendImpl handle data tp
      | .postImpl handle data tp => self.postImpl handle data tp
      | .channel handle => self.channel handle
  | .context f => self.context f
  | .scope op =>
      match op with
      | .handle => self.handle
      | .timeoutAt when => self.timeoutAt when
      | .timeoutAfter after => self.timeoutAfter after
      | .signal signal => self.signal signal
      | .idle => self.idle
      | .expectMessage tp => self.expectMessage tp
      | .ioRegisterAny growth outcome => self.ioRegisterAny growth outcome
      | .ioMut id left => self.ioMut id left
      | .ioUpdate id outcome => self.ioUpdate id outcome
      | .ioRemove id outcome => self.ioRemove id outcome
      | .backgroundSubmit => self.backgroundSubmit
      | .child pid => self.child pid

def Request.map (f : Ev → Ev') : Request Ctx Ev → Request Ctx Ev'
  | .loop op => .loop (op.map f)
  | .context g => .context g
  | .add now after => .add now after

def Method.map (f : Ev → Ev') : Method Ctx Ev → Method Ctx Ev'
  | .iface op => .iface (op.map f)
  | .context g => .context g
  | .scope op => .scope op

/-- The scope of the loop asks the same whatever events the loop holds. -/
theorem loopScope_call_map (f : Ev → Ev') (m : Method Ctx Ev) :
    loopScope.call (m.map f) = (loopScope.call m).relabel (Request.map f) := by
  cases m with
  | context g => rfl
  | iface op =>
      cases op with
      | runUntilEmpty =>
          show _ = (Script.bind _ _).relabel _
          rw [Script.relabel_bind]
          refine congrArg (Script.bind _) (funext fun answer => ?_)
          split <;> rfl
      | _ => rfl
  | scope op =>
      cases op with
      | timeoutAfter after =>
          show _ = (Script.bind _ _).relabel _
          rw [Script.relabel_bind]
          refine congrArg (Script.bind _) (funext fun answer => ?_)
          split
          · refine congrArg (Script.ask _) (funext fun sum => ?_)
            rcases sum with err | value
            · rfl
            · cases value <;> rfl
          · rfl
      | _ => rfl

end Eveboros
