import Mathlib.Algebra.Group.Nat.Defs

/-!
# Handles, errors and messages

The plain data that the loop, its events and the other threads exchange.
-/

namespace Eveboros

/-! ## Identifiers -/

/-- Generations and ids are `Wrapping<u64>` counters. -/
def wrappingSucc (n : Nat) : Nat := (n + 1) % 2 ^ 64

structure Handle where
  id : Nat
  generation : Nat
  deriving DecidableEq, Repr

/-- Handles of the same slot differ in the generation. -/
theorem Handle.eq_iff_generation {h g : Handle} (hid : h.id = g.id) :
    h = g ↔ h.generation = g.generation := by
  cases h
  cases g
  simp_all

/-- The first tokens belong to the channel and to the signals. -/
def TOKEN_SHIFT : Nat := 2

def CHANNEL_TOK : Nat := 0

def SIGNAL_TOK : Nat := 1

/-- The tokens below the shift are the reserved ones. -/
theorem shift_le_token {token : Nat} (hchannel : token ≠ CHANNEL_TOK)
    (hsignal : token ≠ SIGNAL_TOK) : TOKEN_SHIFT ≤ token := by
  unfold CHANNEL_TOK at hchannel
  unfold SIGNAL_TOK at hsignal
  unfold TOKEN_SHIFT
  omega

/-- An opaque handle for an event's IO: a token past the reserved ones. -/
structure IoId where
  token : Nat
  shifted : TOKEN_SHIFT ≤ token
  deriving DecidableEq, Repr

namespace IoId

def ofIdx (idx : Nat) : IoId := ⟨idx + TOKEN_SHIFT, Nat.le_add_left _ _⟩

/-- The key in the table of IOs. -/
def idx (id : IoId) : Nat := id.token - TOKEN_SHIFT

theorem ofIdx_idx (id : IoId) : (ofIdx id.idx).token = id.token := Nat.sub_add_cancel id.shifted

end IoId

structure TimeoutId where
  raw : Nat
  deriving DecidableEq, Repr

structure BackgroundId where
  raw : Nat
  deriving DecidableEq, Repr

abbrev Pid := Int

/-! ## Signals -/

/-- `NSIG`: one more than the greatest signal number. -/
def SIG_COUNT : Nat := 32

structure Signal where
  num : Nat
  pos : 0 < num
  lt : num < SIG_COUNT
  deriving DecidableEq, Repr

def Signal.fromCInt (signum : Nat) : Option Signal :=
  if h : 0 < signum ∧ signum < SIG_COUNT then some ⟨signum, h.1, h.2⟩ else none

theorem Signal.eq_of_num {s s' : Signal} (h : s.num = s'.num) : s = s' := by
  cases s
  cases s'
  simp_all

def Signal.SIGKILL : Signal := ⟨9, by decide, by decide⟩

def Signal.SIGCHLD : Signal := ⟨17, by decide, by decide⟩

def Signal.SIGSTOP : Signal := ⟨19, by decide, by decide⟩

/-- `sigaction` installs no handler for these. -/
def Signal.uncatchable (s : Signal) : Bool := s = .SIGKILL || s = .SIGSTOP

theorem Signal.fromCInt_num (s : Signal) : Signal.fromCInt s.num = some s := by
  simp [fromCInt, s.pos, s.lt]

theorem Signal.num_of_fromCInt {signum : Nat} {s : Signal} (h : Signal.fromCInt signum = some s) :
    s.num = signum := by
  unfold fromCInt at h
  split at h
  · cases h
    rfl
  · cases h

/-! ## Errors -/

inductive Errno
  | EAGAIN
  | ECHILD
  | EINVAL
  | other (code : Nat)
  deriving DecidableEq, Repr

inductive NixError
  | sys (errno : Errno)
  | invalidPath
  deriving DecidableEq, Repr

inductive IoErrorKind
  | interrupted
  | other (code : Nat)
  deriving DecidableEq, Repr

inductive Error
  /-- An embedded error of a low-level operation. -/
  | io (kind : IoErrorKind)
  | nix (err : NixError)
  /-- The default implementation of a callback was called. -/
  | defaultImpl
  /-- An event waits recursively for itself. -/
  | deadLock
  /-- The referred event is not there. -/
  | missing
  /-- The referred IO is not there or does not belong to the event. -/
  | missingIo
  /-- The referred event is in the middle of a callback. -/
  | busy
  /-- The loop is empty and tries to run. -/
  | empty
  | ioType
  /-- The requested type of the message does not match. -/
  | msgType
  | msgUnexpected
  | loopGone
  | backgroundPanicked
  | iterEnd
  | user (err : Option String)
  | userStr (text : String)
  deriving DecidableEq, Repr

/-- Common response of an event: whether it wants to live on. -/
abbrev Response := Except Error Bool

/-! ## Messages -/

/-- The types a message may have; `result t` is `Result<t>` with the error type of the library. -/
inductive TypeId
  | atom (name : Nat)
  | result (payload : TypeId)
  deriving DecidableEq, Repr

/-- A value behind `Box<Any>`. -/
inductive AnyBox
  | atom (type content : Nat)
  | ok (value : AnyBox)
  | err (payload : TypeId) (error : Error)
  deriving DecidableEq, Repr

/-- The type that a downcast compares with. -/
def AnyBox.typeId : AnyBox → TypeId
  | .atom type _ => .atom type
  | .ok value => .result value.typeId
  | .err payload _ => .result payload

/-- How a message originated and from whom. -/
inductive DeliveryMode
  | post (sender : Option Handle)
  | send (sender : Option Handle)
  | background (id : BackgroundId)
  | remote
  deriving DecidableEq, Repr

structure Message where
  data : AnyBox
  realType : TypeId
  mode : DeliveryMode
  deriving DecidableEq, Repr

/-- What other threads put on the channel of the loop. -/
structure RemoteMessage where
  data : AnyBox
  realType : TypeId
  mode : DeliveryMode
  recipient : Handle
  deriving DecidableEq, Repr

/-! ## Children -/

inductive ChildExit
  | exited (code : Int)
  | signaled (signal : Signal)
  deriving DecidableEq, Repr

/-- What `waitpid` reports; `other` is a status change that does not end the child. -/
inductive WaitStatus
  | exited (pid : Pid) (code : Int)
  | signaled (pid : Pid) (signal : Signal) (coreDumped : Bool)
  /-- A real-time signal has ended the child: `waitpid` panics, it is none of the `Signal`s. -/
  | realTime (pid : Pid) (signum : Nat)
  | stillAlive
  | other
  deriving DecidableEq, Repr

abbrev WaitResult := Except NixError WaitStatus

/-! ## Time -/

/-- Instants count nanoseconds; they end where their seconds do not fit into an `i64`. -/
def INSTANT_END : Nat := 2 ^ 63 * 10 ^ 9

/-! ## Readiness -/

structure Ready where
  bits : Nat
  deriving DecidableEq, Repr

end Eveboros
