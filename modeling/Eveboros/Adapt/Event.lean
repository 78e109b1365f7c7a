import Eveboros.Adapt.Scope

/-!
# Events and their adapters

An event is modelled as the table of its callbacks.  An adapter is an event that passes each
callback on to the event inside it; the response comes back as it is.
-/

namespace Eveboros

/-- The trait `Event`: seven callbacks, each called with a scope. -/
structure Event (Ctx Ev R : Type) where
  init (scope : ScopeObjSafe Ctx Ev) : R
  io (scope : ScopeObjSafe Ctx Ev) (id : IoId) (ready : Ready) : R
  timeout (scope : ScopeObjSafe Ctx Ev) (id : TimeoutId) : R
  signal (scope : ScopeObjSafe Ctx Ev) (signal : Signal) : R
  idle (scope : ScopeObjSafe Ctx Ev) : R
  message (scope : ScopeObjSafe Ctx Ev) (msg : Message) : R
  child (scope : ScopeObjSafe Ctx Ev) (pid : Pid) (exit : ChildExit) : R

variable {Ctx E Ev R : Type}

/-- The closures that the loop passes to `event_call`. -/
def Callback.invoke (event : Event Ctx Ev R) (scope : ScopeObjSafe Ctx Ev) : Callback → R
  | .init => event.init scope
  | .io id ready => event.io scope id ready
  | .timeout id => event.timeout scope id
  | .signal sig => event.signal scope sig
  | .idle => event.idle scope
  | .message msg => event.message scope msg
  | .child pid exit => event.child scope pid exit

/-- User code starts: the callback with its arguments, and the scope it is given. -/
structure Entry (Ctx Ev : Type) where
  cb : Callback
  scope : ScopeObjSafe Ctx Ev

namespace Event

def user : Event Ctx Ev (Entry Ctx Ev) where
  init scope := ⟨.init, scope⟩
  io scope id ready := ⟨.io id ready, scope⟩
  timeout scope id := ⟨.timeout id, scope⟩
  signal scope signal := ⟨.signal signal, scope⟩
  idle scope := ⟨.idle, scope⟩
  message scope msg := ⟨.message msg, scope⟩
  child scope pid exit := ⟨.child pid exit, scope⟩

/-- An enum made by `combined!`, with `val` in the variant it is. -/
def combined (val : Event Ctx Ev R) : Event Ctx Ev R where
  init scope := val.init scope
  io scope id ready := val.io scope id ready
  timeout scope id := val.timeout scope id
  signal scope signal := val.signal scope signal
  idle scope := val.idle scope
  message scope msg := val.message scope msg
  child scope pid exit := val.child scope pid exit

/-- `EventWrapper`, the object-safe `WrappedEvent` around an event. -/
def wrapper (event : Event Ctx Ev R) : Event Ctx Ev R where
  init scope := event.init (dynScope scope)
  io scope id ready := event.io (dynScope scope) id ready
  timeout scope id := event.timeout (dynScope scope) id
  signal scope signal := event.signal (dynScope scope) signal
  idle scope := event.idle (dynScope scope)
  message scope msg := event.message (dynScope scope) msg
  child scope pid exit := event.child (dynScope scope) pid exit

/-- What `dyn_event!` makes of a boxed `WrappedEvent`. -/
def dynEvent (boxed : Event Ctx Ev R) : Event Ctx Ev R where
  init scope := boxed.init scope
  io scope id ready := boxed.io scope id ready
  timeout scope id := boxed.timeout scope id
  signal scope signal := boxed.signal scope signal
  idle scope := boxed.idle scope
  message scope msg := boxed.message scope msg
  child scope pid exit := boxed.child scope pid exit

end Event

/-- A kind of event that a loop may hold: what it makes of its callbacks, the event of the user
inside, and what becomes of it when a callback leaves that with another value. -/
structure EventKind (Ctx E W : Type) where
  methods : W → Event Ctx W (Entry Ctx W)
  inner : W → E
  put : W → E → W

def plain : EventKind Ctx E E where
  methods _ := .user
  inner event := event
  put _ event := event

/-! ## Nested adapters -/

inductive Adapted (E : Type)
  | event (ev : E)
  | combined (variant : Nat) (val : Adapted E)
  | selfDynEvent (boxed : Adapted E)
  | anyDynEvent (boxed : Adapted E)

namespace Adapted

def inner : Adapted E → E
  | .event ev => ev
  | .combined _ val => val.inner
  | .selfDynEvent boxed => boxed.inner
  | .anyDynEvent boxed => boxed.inner

/-- A callback has changed the event inside, in place. -/
def put : Adapted E → E → Adapted E
  | .event _, ev => .event ev
  | .combined variant val, ev => .combined variant (val.put ev)
  | .selfDynEvent boxed, ev => .selfDynEvent (boxed.put ev)
  | .anyDynEvent boxed, ev => .anyDynEvent (boxed.put ev)

def methods : Adapted E → Event Ctx (Adapted E) (Entry Ctx (Adapted E))
  | .event _ => .user
  | .combined _ val => .combined val.methods
  | .selfDynEvent boxed => .dynEvent (.wrapper boxed.methods)
  | .anyDynEvent boxed => .dynEvent (.wrapper boxed.methods)

end Adapted

def adapted : EventKind Ctx E (Adapted E) := ⟨Adapted.methods, Adapted.inner, Adapted.put⟩

/-- The user's code gets the callback that the loop calls, and the scope that the loop passes. -/
structure EventKind.Transparent {W : Type} (kind : EventKind Ctx E W) : Prop where
  invoke (w : W) (cb : Callback) (scope : ScopeObjSafe Ctx W) :
    cb.invoke (kind.methods w) scope = ⟨cb, scope⟩
  inner_put (w : W) (event : E) : kind.inner (kind.put w event) = event

theorem user_invoke (cb : Callback) (scope : ScopeObjSafe Ctx Ev) :
    cb.invoke Event.user scope = ⟨cb, scope⟩ := by
  cases cb <;> rfl

theorem combined_invoke (val : Event Ctx Ev R) (cb : Callback) (scope : ScopeObjSafe Ctx Ev) :
    cb.invoke val.combined scope = cb.invoke val scope := by
  cases cb <;> rfl

theorem wrapper_invoke (event : Event Ctx Ev R) (cb : Callback) (scope : ScopeObjSafe Ctx Ev) :
    cb.invoke event.wrapper scope = cb.invoke event (dynScope scope) := by
  cases cb <;> rfl

theorem dynEvent_invoke (boxed : Event Ctx Ev R) (cb : Callback) (scope : ScopeObjSafe Ctx Ev) :
    cb.invoke boxed.dynEvent scope = cb.invoke boxed scope := by
  cases cb <;> rfl

theorem plain_transparent : (plain : EventKind Ctx E E).Transparent where
  invoke _ := user_invoke
  inner_put _ _ := rfl

/-- However adapters are nested, callbacks and scopes come through. -/
theorem adapted_transparent : (adapted : EventKind Ctx E (Adapted E)).Transparent where
  invoke w cb scope := by
    show cb.invoke w.methods scope = _
    induction w generalizing scope with
    | event event => exact user_invoke cb scope
    | combined variant val ih => exact (combined_invoke _ cb scope).trans (ih scope)
    | selfDynEvent boxed ih
    | anyDynEvent boxed ih =>
        rw [Adapted.methods, dynEvent_invoke, wrapper_invoke, dynScope_eq]
        exact ih scope
  inner_put w event := by
    show (w.put event).inner = event
    induction w with
    | event _ => rfl
    | combined _ _ ih | selfDynEvent _ ih | anyDynEvent _ ih => exact ih

end Eveboros
