import Mathlib.Data.List.Count
import Mathlib.Logic.Function.Basic
import Eveboros.Lib.Outcome
import Eveboros.Lib.Transition
import Eveboros.Types

/-!
# The signal dispatcher and its mutex

The dispatcher of a process lives behind a mutex that both `register` and the signal handler take.
A thread is its signal mask and its stack of calls; a signal may arrive at any step at which the
thread does not mask it, and its handler then runs on top of the stack.
-/

namespace Eveboros

abbrev SigSet := Nat → Bool

namespace SigSet

def empty : SigSet := fun _ => false

def all : SigSet := fun _ => true

/-- The mask while a handler runs: the delivered signal and its `sa_mask` join what the
interrupted code masked. -/
def during (mask : SigSet) (signal : Signal) (saMask : SigSet) : SigSet :=
  fun signum => mask signum || signum == signal.num || saMask signum

end SigSet

/-- `sigaction` fails for `SIGKILL` and `SIGSTOP`. -/
def Signal.catchable (signal : Signal) : Bool := signal.num != 9 && signal.num != 19

structure SignalDispatch where
  /-- The notifiers, by signal number. -/
  registered : Nat → List Nat
  setup : Nat → Bool

def SignalDispatch.new : SignalDispatch := ⟨fun _ => [], fun _ => false⟩

/-- What a notifier shares with its loop; `gone` says that the receiver has been dropped. -/
structure Notifier where
  flags : Nat → Bool
  wakeup : Bool
  gone : Bool

/-- A call of `register` or of `handler`, with what it does next.  `oldMask` is the mask to return
to. -/
inductive SigFrame
  /-- `register` swaps the mask for one with all signals. -/
  | blockAll (signal : Signal) (notifier : Nat)
  | registerLock (signal : Signal) (notifier : Nat) (oldMask : SigSet)
  | registerHeld (signal : Signal) (notifier : Nat) (oldMask : SigSet)
  | registerUnlock (oldMask : SigSet)
  | restoreMask (oldMask : SigSet)
  | handlerLock (signal : Signal) (oldMask : SigSet)
  /-- `dispatch` looks at the notifiers of the signal. -/
  | dispatch (signal : Signal) (oldMask : SigSet)
  /-- It goes on to the next notifier of `tmp` and sets its flag. -/
  | notify (signal : Signal) (oldMask : SigSet) (tmp kept : List Nat)
  /-- It sends the wake-up. -/
  | wake (signal : Signal) (oldMask : SigSet) (notifier : Nat) (tmp kept : List Nat)
  | handlerUnlock (oldMask : SigSet)
  | handlerReturn (oldMask : SigSet)

namespace SigFrame

def wants : SigFrame → Bool
  | registerLock _ _ _ => true
  | handlerLock _ _ => true
  | _ => false

def holds : SigFrame → Bool
  | registerHeld _ _ _ => true
  | registerUnlock _ => true
  | dispatch _ _ => true
  | notify _ _ _ _ => true
  | wake _ _ _ _ _ => true
  | handlerUnlock _ => true
  | _ => false

end SigFrame

structure Thread where
  mask : SigSet
  /-- The innermost call first. -/
  frames : List SigFrame

structure Process (Tid : Type) where
  dispatch : SignalDispatch
  /-- The thread that holds the mutex. -/
  owner : Option Tid
  /-- The `sa_mask` of the handler, for the signals that have it installed. -/
  actions : Nat → Option SigSet
  threads : Tid → Thread
  notifiers : Nat → Notifier

inductive ProcessAction (Tid : Type)
  /-- The thread calls `register`. -/
  | call (t : Tid) (signal : Signal) (notifier : Nat)
  /-- The signal arrives at the thread. -/
  | deliver (t : Tid) (signal : Signal)
  | advance (t : Tid)
  /-- The receiver of a notifier is dropped. -/
  | dropReceiver (notifier : Nat)

inductive ProcessFault
  | disabled
  | panic
  deriving DecidableEq, Repr

namespace Process

variable {Tid : Type} [DecidableEq Tid]

def setThread (p : Process Tid) (t : Tid) (mask : SigSet) (frames : List SigFrame) : Process Tid :=
  { p with threads := Function.update p.threads t ⟨mask, frames⟩ }

/-- The first part of `SignalDispatch::register`: `sigaction`, unless that has been done. -/
def setUp (p : Process Tid) (signal : Signal) : Except ProcessFault (Process Tid) :=
  if p.dispatch.setup signal.num then .ok p
  else if signal.catchable then
    .ok { p with
      actions := Function.update p.actions signal.num (some SigSet.empty)
      dispatch := { p.dispatch with setup := Function.update p.dispatch.setup signal.num true } }
  else .error .panic

def register (p : Process Tid) (signal : Signal) (notifier : Nat) :
    Except ProcessFault (Process Tid) := do
  let p ← p.setUp signal
  return { p with
    dispatch := { p.dispatch with
      registered := Function.update p.dispatch.registered signal.num
        (p.dispatch.registered signal.num ++ [notifier]) } }

def setRegistered (p : Process Tid) (signal : Signal) (notifiers : List Nat) : Process Tid :=
  { p with
    dispatch := { p.dispatch with
      registered := Function.update p.dispatch.registered signal.num notifiers } }

def setFlag (p : Process Tid) (notifier : Nat) (signal : Signal) : Process Tid :=
  { p with
    notifiers := Function.update p.notifiers notifier
      { p.notifiers notifier with
        flags := Function.update (p.notifiers notifier).flags signal.num true } }

def sendWakeup (p : Process Tid) (notifier : Nat) : Process Tid :=
  { p with
    notifiers := Function.update p.notifiers notifier
      { p.notifiers notifier with wakeup := true } }

def lock (p : Process Tid) (t : Tid) : Except ProcessFault (Process Tid) :=
  match p.owner with
  | none => .ok { p with owner := some t }
  | some _ => .error .disabled

def advance (p : Process Tid) (t : Tid) : Except ProcessFault (Process Tid) :=
  let mask := (p.threads t).mask
  match (p.threads t).frames with
  | [] => .error .disabled
  | frame :: rest =>
      match frame with
      | .blockAll signal notifier =>
          .ok (p.setThread t SigSet.all (.registerLock signal notifier mask :: rest))
      | .registerLock signal notifier oldMask => do
          let p ← p.lock t
          return p.setThread t mask (.registerHeld signal notifier oldMask :: rest)
      | .registerHeld signal notifier oldMask => do
          let p ← p.register signal notifier
          return p.setThread t mask (.registerUnlock oldMask :: rest)
      | .registerUnlock oldMask =>
          .ok ({ p with owner := none }.setThread t mask (.restoreMask oldMask :: rest))
      | .restoreMask oldMask => .ok (p.setThread t oldMask rest)
      | .handlerLock signal oldMask => do
          let p ← p.lock t
          return p.setThread t mask (.dispatch signal oldMask :: rest)
      | .dispatch signal oldMask =>
          if p.dispatch.registered signal.num = [] then
            .ok (p.setThread t mask (.handlerUnlock oldMask :: rest))
          else
            let tmp := p.dispatch.registered signal.num
            .ok ((p.setRegistered signal []).setThread t mask
              (.notify signal oldMask tmp [] :: rest))
      | .notify signal oldMask [] kept =>
          .ok ((p.setRegistered signal kept).setThread t mask (.handlerUnlock oldMask :: rest))
      | .notify signal oldMask (notifier :: tmp) kept =>
          .ok ((p.setFlag notifier signal).setThread t mask
            (.wake signal oldMask notifier tmp kept :: rest))
      | .wake signal oldMask notifier tmp kept =>
          if (p.notifiers notifier).gone then
            .ok (p.setThread t mask (.notify signal oldMask tmp kept :: rest))
          else
            .ok ((p.sendWakeup notifier).setThread t mask
              (.notify signal oldMask tmp (kept ++ [notifier]) :: rest))
      | .handlerUnlock oldMask =>
          .ok ({ p with owner := none }.setThread t mask (.handlerReturn oldMask :: rest))
      | .handlerReturn oldMask => .ok (p.setThread t oldMask rest)

def step (p : Process Tid) (a : ProcessAction Tid) : Except ProcessFault (Process Tid) :=
  match a with
  | .call t signal notifier =>
      match (p.threads t).frames with
      | [] => .ok (p.setThread t (p.threads t).mask [.blockAll signal notifier])
      | _ => .error .disabled
  | .deliver t signal =>
      match p.actions signal.num with
      | none => .error .disabled
      | some saMask =>
          let thread := p.threads t
          if thread.mask signal.num then .error .disabled
          else .ok (p.setThread t (thread.mask.during signal saMask)
            (.handlerLock signal thread.mask :: thread.frames))
  | .advance t => p.advance t
  | .dropReceiver notifier =>
      .ok { p with
        notifiers := Function.update p.notifiers notifier
          { p.notifiers notifier with gone := true } }

/-- Threads with these masks, before anything is registered. -/
def start (base : Tid → SigSet) : Process Tid where
  dispatch := .new
  owner := none
  actions := fun _ => none
  threads t := ⟨base t, []⟩
  notifiers := fun _ => ⟨fun _ => false, false, false⟩

/-- A call of the thread is about to take the mutex that a call below it holds. -/
def SelfDeadlock (p : Process Tid) (t : Tid) : Prop :=
  ∃ upper frame lower, (p.threads t).frames = upper ++ frame :: lower ∧ frame.wants = true ∧
    ∃ held ∈ lower, held.holds = true

/-! ## What a step changes -/

@[simp] theorem setThread_same (p : Process Tid) (t : Tid) (mask : SigSet)
    (frames : List SigFrame) : (p.setThread t mask frames).threads t = ⟨mask, frames⟩ := by
  simp [setThread]

theorem setThread_other (p : Process Tid) {t u : Tid} (mask : SigSet) (frames : List SigFrame)
    (hne : u ≠ t) : (p.setThread t mask frames).threads u = p.threads u := by
  simp [setThread, hne]

omit [DecidableEq Tid] in
theorem lock_eq_ok {p p' : Process Tid} {t : Tid} :
    p.lock t = .ok p' ↔ p.owner = none ∧ p' = { p with owner := some t } := by
  unfold lock
  cases p.owner <;> simp [eq_comm]

omit [DecidableEq Tid] in
/-- Registration installs the handler with an empty mask, for catchable signals only. -/
theorem register_ok {p p' : Process Tid} {signal : Signal} {notifier : Nat}
    (h : p.register signal notifier = .ok p') : p'.threads = p.threads ∧ p'.owner = p.owner ∧
      (p'.actions = p.actions ∨ signal.catchable = true ∧
        p'.actions = Function.update p.actions signal.num (some SigSet.empty)) := by
  obtain ⟨p₁, hsetup, h⟩ := Except.bind_eq_ok.mp h
  cases h
  unfold setUp at hsetup
  split at hsetup
  · cases hsetup
    exact ⟨rfl, rfl, .inl rfl⟩
  · split at hsetup
    · cases hsetup
      exact ⟨rfl, rfl, .inr ⟨‹_›, rfl⟩⟩
    · cases hsetup

/-! ## One open signal for each thread -/

section Safety

variable (sigs : Signal → Prop) (base : SigSet)

def Installable (signal : Signal) : Prop := sigs signal ∧ signal.catchable = true

/-- A call of `register` with all signals masked. -/
def Registers : SigFrame → Prop
  | .registerLock signal _ oldMask => sigs signal ∧ oldMask = base
  | .registerHeld signal _ oldMask => sigs signal ∧ oldMask = base
  | .registerUnlock oldMask => oldMask = base
  | .restoreMask oldMask => oldMask = base
  | _ => False

/-- A call of the handler that has interrupted code with the mask `base`. -/
def Handles : SigFrame → Prop
  | .handlerLock _ oldMask => oldMask = base
  | .dispatch _ oldMask => oldMask = base
  | .notify _ oldMask _ _ => oldMask = base
  | .wake _ oldMask _ _ _ => oldMask = base
  | .handlerUnlock oldMask => oldMask = base
  | .handlerReturn oldMask => oldMask = base
  | _ => False

/-- Code that does not hold the mutex and runs with the mask of the thread. -/
inductive Plain : List SigFrame → Prop
  | idle : Plain []
  | calling (signal : Signal) (notifier : Nat) (hsig : sigs signal) :
      Plain [.blockAll signal notifier]

/-- The shapes of a thread that leaves at most one signal open. -/
inductive Calm : Thread → Prop
  | plain (frames : List SigFrame) (hplain : Plain sigs frames) : Calm ⟨base, frames⟩
  | registering (frame : SigFrame) (hframe : Registers sigs base frame) :
      Calm ⟨SigSet.all, [frame]⟩
  | handling (signal : Signal) (frame : SigFrame) (frames : List SigFrame)
      (hsig : Installable sigs signal) (hopen : base signal.num = false)
      (hframe : Handles base frame) (hplain : Plain sigs frames) :
      Calm ⟨base.during signal SigSet.empty, frame :: frames⟩

/-- At most one installable signal is open to the thread. -/
def OneOpen : Prop :=
  ∀ s s', Installable sigs s → Installable sigs s' → base s.num = false → base s'.num = false →
    s = s'

end Safety

variable {sigs : Signal → Prop} {base : SigSet} {p p' : Process Tid} {t : Tid}

theorem holds_of_plain {frames : List SigFrame} (h : Plain sigs frames) :
    ∀ frame ∈ frames, frame.holds = false := by
  cases h with
  | idle => simp
  | calling signal notifier hsig => simp [SigFrame.holds]

omit [DecidableEq Tid] in
theorem not_selfDeadlock_of_calm (h : Calm sigs base (p.threads t)) : ¬p.SelfDeadlock t := by
  intro h
  rcases h with ⟨upper, frame, lower, hframes, _, held, hheld, hholds⟩
  generalize p.threads t = thread at h hframes
  have hlow : ∀ f ∈ thread.frames.tail, f.holds = false := by
    cases h with
    | plain frames hplain => exact fun f hf => holds_of_plain hplain f (List.mem_of_mem_tail hf)
    | registering frame hframe => simp
    | handling signal frame frames hsig hopen hframe hplain => exact holds_of_plain hplain
  have hmem : held ∈ thread.frames.tail := by
    rw [hframes]
    cases upper with
    | nil => exact hheld
    | cons f upper => simp [hheld]
  simp [hlow held hmem] at hholds

/-- `register` goes on, and gives the mask back at its end. -/
theorem calm_of_registers {frame : SigFrame} (hthread : p.threads t = ⟨SigSet.all, [frame]⟩)
    (hframe : Registers sigs base frame) (h : p.advance t = .ok p') :
    Calm sigs base (p'.threads t) := by
  unfold advance at h
  simp only [hthread] at h
  cases frame with
  | registerLock signal notifier oldMask =>
      obtain ⟨p₁, hlock, h⟩ := Except.bind_eq_ok.mp h
      cases h
      rw [setThread_same]
      exact .registering _ hframe
  | registerHeld signal notifier oldMask =>
      obtain ⟨p₁, hreg, h⟩ := Except.bind_eq_ok.mp h
      cases h
      rw [setThread_same]
      exact .registering _ hframe.2
  | registerUnlock oldMask =>
      cases h
      rw [setThread_same]
      exact .registering _ hframe
  | restoreMask oldMask =>
      cases h
      rw [setThread_same]
      cases hframe
      exact .plain _ .idle
  | _ => exact hframe.elim

/-- The handler goes on, and returns to the code it has interrupted. -/
theorem calm_of_handles {signal : Signal} {frame : SigFrame} {frames : List SigFrame}
    (hthread : p.threads t = ⟨base.during signal SigSet.empty, frame :: frames⟩)
    (hsig : Installable sigs signal) (hopen : base signal.num = false)
    (hframe : Handles base frame) (hplain : Plain sigs frames) (h : p.advance t = .ok p') :
    Calm sigs base (p'.threads t) := by
  have go (frame' : SigFrame) (hframe' : Handles base frame') :
      Calm sigs base ⟨base.during signal SigSet.empty, frame' :: frames⟩ :=
    .handling signal frame' frames hsig hopen hframe' hplain
  unfold advance at h
  simp only [hthread] at h
  cases frame with
  | handlerLock signal' oldMask =>
      obtain ⟨p₁, hlock, h⟩ := Except.bind_eq_ok.mp h
      cases h
      rw [setThread_same]
      exact go _ hframe
  | dispatch signal' oldMask =>
      simp only at h
      split at h <;> cases h <;> rw [setThread_same] <;> exact go _ hframe
  | notify signal' oldMask tmp kept =>
      cases tmp <;> cases h <;> rw [setThread_same] <;> exact go _ hframe
  | wake signal' oldMask notifier tmp kept =>
      simp only at h
      split at h <;> cases h <;> rw [setThread_same] <;> exact go _ hframe
  | handlerUnlock oldMask =>
      cases h
      rw [setThread_same]
      exact go _ hframe
  | handlerReturn oldMask =>
      cases h
      rw [setThread_same]
      cases hframe
      exact .plain _ hplain
  | _ => exact hframe.elim

/-- A step of the thread keeps it calm. -/
theorem calm_advance (hcalm : Calm sigs base (p.threads t)) (h : p.advance t = .ok p') :
    Calm sigs base (p'.threads t) := by
  generalize hthread : p.threads t = thread at hcalm
  cases hcalm with
  | plain frames hplain =>
      unfold advance at h
      simp only [hthread] at h
      cases hplain with
      | idle => cases h
      | calling signal notifier hsig =>
          cases h
          rw [setThread_same]
          exact .registering _ ⟨hsig, rfl⟩
  | registering frame hframe => exact calm_of_registers hthread hframe h
  | handling signal frame frames hsig hopen hframe hplain =>
      exact calm_of_handles hthread hsig hopen hframe hplain h

/-- What a step of a thread does outside of the thread. -/
theorem advance_frame (h : p.advance t = .ok p') : (∀ u ≠ t, p'.threads u = p.threads u) ∧
    (p'.actions = p.actions ∨ ∃ signal notifier oldMask rest,
      (p.threads t).frames = .registerHeld signal notifier oldMask :: rest ∧
        signal.catchable = true ∧
        p'.actions = Function.update p.actions signal.num (some SigSet.empty)) := by
  have others {p₁ : Process Tid} {mask : SigSet} {frames : List SigFrame}
      (hthreads : p₁.threads = p.threads) :
      ∀ u ≠ t, (p₁.setThread t mask frames).threads u = p.threads u := by
    intro u hne
    rw [setThread_other _ _ _ hne, hthreads]
  unfold advance at h
  split at h
  · cases h
  · rename_i frame rest hframes
    cases frame with
    | registerHeld signal notifier oldMask =>
        obtain ⟨p₁, hreg, h⟩ := Except.bind_eq_ok.mp h
        obtain ⟨hthreads, _, hactions⟩ := register_ok hreg
        cases h
        refine ⟨others hthreads, ?_⟩
        cases hactions with
        | inl hsame => exact .inl hsame
        | inr hinstalled => exact .inr ⟨signal, notifier, oldMask, rest, hframes, hinstalled⟩
    | registerLock signal notifier oldMask =>
        obtain ⟨p₁, hlock, h⟩ := Except.bind_eq_ok.mp h
        obtain ⟨_, rfl⟩ := lock_eq_ok.mp hlock
        cases h
        exact ⟨others rfl, .inl rfl⟩
    | handlerLock signal oldMask =>
        obtain ⟨p₁, hlock, h⟩ := Except.bind_eq_ok.mp h
        obtain ⟨_, rfl⟩ := lock_eq_ok.mp hlock
        cases h
        exact ⟨others rfl, .inl rfl⟩
    | dispatch signal oldMask =>
        simp only at h
        split at h <;> cases h <;> exact ⟨others rfl, .inl rfl⟩
    | notify signal oldMask tmp kept =>
        cases tmp <;> cases h <;> exact ⟨others rfl, .inl rfl⟩
    | wake signal oldMask notifier tmp kept =>
        simp only at h
        split at h <;> cases h <;> exact ⟨others rfl, .inl rfl⟩
    | _ =>
        cases h
        exact ⟨others rfl, .inl rfl⟩

/-- All threads are calm, and handlers are installed for installable signals only. -/
structure Safe (sigs : Signal → Prop) (base : Tid → SigSet) (p : Process Tid) : Prop where
  calm (t : Tid) : Calm sigs (base t) (p.threads t)
  actions (signum : Nat) (saMask : SigSet) : p.actions signum = some saMask →
    saMask = SigSet.empty ∧ ∃ signal, signal.num = signum ∧ Installable sigs signal

variable {bases : Tid → SigSet}

theorem safe_advance (s : Safe sigs bases p) (h : p.advance t = .ok p') : Safe sigs bases p' := by
  obtain ⟨hothers, hactions⟩ := advance_frame h
  refine ⟨fun u => ?_, fun signum saMask hinstalled => ?_⟩
  · by_cases hu : u = t
    · exact hu ▸ calm_advance (hu ▸ s.calm u) h
    · exact hothers u hu ▸ s.calm u
  · rcases hactions with hsame | ⟨signal, notifier, oldMask, rest, hframes, hcatch, hupdate⟩
    · exact s.actions signum saMask (hsame ▸ hinstalled)
    · rw [hupdate, Function.update_apply] at hinstalled
      split at hinstalled
      · rename_i heq
        refine ⟨(Option.some.inj hinstalled).symm, signal, heq.symm, ?_, hcatch⟩
        -- Only a call of `register` for one of the signals holds the mutex like this.
        have hcalm := s.calm t
        generalize p.threads t = thread at hcalm hframes
        cases hcalm with
        | plain frames hplain => cases hplain <;> cases hframes
        | registering frame hframe =>
            cases hframes
            exact hframe.1
        | handling signal' frame frames hsig hopen hframe hplain =>
            cases hframes
            exact hframe.elim
      · exact s.actions signum saMask hinstalled

theorem safe_deliver (hone : ∀ t, OneOpen sigs (bases t)) (s : Safe sigs bases p) {signal : Signal}
    (h : p.step (.deliver t signal) = .ok p') : Safe sigs bases p' := by
  simp only [step] at h
  split at h
  · cases h
  · rename_i saMask hinstalled
    obtain ⟨rfl, signal', hnum, hsig⟩ := s.actions _ _ hinstalled
    obtain rfl := Signal.eq_of_num hnum
    split at h
    · cases h
    · rename_i hmasked
      cases h
      refine ⟨fun u => ?_, s.actions⟩
      by_cases hu : u = t
      · subst hu
        rw [setThread_same]
        have hcalm := s.calm u
        generalize p.threads u = thread at hcalm hmasked
        cases hcalm with
        | plain frames hplain =>
            exact .handling _ _ frames hsig (by simpa using hmasked) rfl hplain
        | registering frame hframe => simp [SigSet.all] at hmasked
        | handling other frame frames hother hopen hframe hplain =>
            simp only [SigSet.during, SigSet.empty, Bool.or_false, Bool.or_eq_true, beq_iff_eq,
              not_or, Bool.not_eq_true] at hmasked
            exact absurd (congrArg Signal.num (hone u _ _ hsig hother hmasked.1 hopen)) hmasked.2
      · rw [setThread_other _ _ _ hu]
        exact s.calm u

omit [DecidableEq Tid] in
theorem safe_start (sigs : Signal → Prop) (bases : Tid → SigSet) :
    Safe sigs bases (start bases) where
  calm t := .plain [] .idle
  actions signum saMask hinstalled := by cases hinstalled

def Within (sigs : Signal → Prop) (_ : Process Tid) : ProcessAction Tid → Prop
  | .call _ signal _ => sigs signal
  | _ => True

theorem safe_step (hone : ∀ t, OneOpen sigs (bases t)) {a : ProcessAction Tid}
    (s : Safe sigs bases p) (ha : Within sigs p a) (h : p.step a = .ok p') :
    Safe sigs bases p' := by
  cases a with
  | call t signal notifier =>
      simp only [step] at h
      split at h
      · rename_i hframes
        cases h
        refine ⟨fun u => ?_, s.actions⟩
        by_cases hu : u = t
        · subst hu
          rw [setThread_same]
          have hcalm := s.calm u
          generalize p.threads u = thread at hcalm hframes
          cases hcalm with
          | plain frames hplain => exact .plain _ (.calling signal notifier ha)
          | registering => cases hframes
          | handling => cases hframes
        · rw [setThread_other _ _ _ hu]
          exact s.calm u
      · cases h
  | deliver t signal => exact safe_deliver hone s h
  | advance t => exact safe_advance s h
  | dropReceiver notifier =>
      cases h
      exact ⟨s.calm, s.actions⟩

/-! ## Two open signals -/

/-- A whole call of `register`, step by step. -/
def registerCall (t : Tid) (signal : Signal) (notifier : Nat) : List (ProcessAction Tid) :=
  .call t signal notifier :: List.replicate 5 (.advance t)

/-- The first registration for a signal installs the handler. -/
def withHandler (p : Process Tid) (signal : Signal) (notifier : Nat) : Process Tid :=
  { p with
    actions := Function.update p.actions signal.num (some SigSet.empty)
    dispatch :=
      { registered := Function.update p.dispatch.registered signal.num
          (p.dispatch.registered signal.num ++ [notifier])
        setup := Function.update p.dispatch.setup signal.num true } }

theorem registerCall_run {mask : SigSet} {signal : Signal} (notifier : Nat)
    (hthread : p.threads t = ⟨mask, []⟩) (howner : p.owner = none)
    (hcatch : signal.catchable = true) (hsetup : p.dispatch.setup signal.num = false) :
    TransitionSystem.run step p (registerCall t signal notifier) =
      .ok (p.withHandler signal notifier) := by
  have hback : Function.update p.threads t ⟨mask, []⟩ = p.threads := by
    rw [← hthread, Function.update_eq_self]
  simp [registerCall, TransitionSystem.run, step, advance, lock, register, setUp, setThread,
    withHandler, hthread, howner, hcatch, hsetup, hback, Except.ok_bind, Except.pure_eq_ok]

/-- Two different signals arrive one after the other, the second while the handler of the first
holds the mutex. -/
def collision (t : Tid) (s s' : Signal) : List (ProcessAction Tid) :=
  registerCall t s 0 ++ registerCall t s' 1 ++ [.deliver t s, .advance t, .deliver t s']

omit [DecidableEq Tid] in
theorem within_collision {s s' : Signal} (hs : sigs s) (hs' : sigs s') :
    ∀ a ∈ collision t s s', ∀ p, Within sigs p a := by
  simp [collision, registerCall, Within, hs, hs']

theorem collision_run {s s' : Signal} (hne : s ≠ s') (hcatch : s.catchable = true)
    (hcatch' : s'.catchable = true) (hopen : bases t s.num = false)
    (hopen' : bases t s'.num = false) :
    ∃ p', TransitionSystem.run step (start bases) (collision t s s') = .ok p' ∧
      p'.SelfDeadlock t := by
  have hnum : s'.num ≠ s.num := fun heq => hne (Signal.eq_of_num heq).symm
  have hfirst := registerCall_run (p := start bases) (t := t) 0 rfl rfl hcatch rfl
  have hsecond := registerCall_run (p := (start bases).withHandler s 0) (t := t) 1 rfl rfl hcatch'
    (by simp [withHandler, start, SignalDispatch.new, hnum])
  have hcrash : ∃ p', TransitionSystem.run step
      (((start bases).withHandler s 0).withHandler s' 1)
      [.deliver t s, .advance t, .deliver t s'] = .ok p' ∧
      (p'.threads t).frames =
        [.handlerLock s' ((bases t).during s SigSet.empty), .dispatch s (bases t)] := by
    simp [TransitionSystem.run, step, advance, lock, withHandler, start, setThread, hopen, hopen',
      hnum, Ne.symm hnum, SigSet.during, SigSet.empty, Except.ok_bind, Except.pure_eq_ok]
  rcases hcrash with ⟨p', hrun, hframes⟩
  refine ⟨p', ?_, [], _, _, hframes, rfl, _, List.mem_singleton.mpr rfl, rfl⟩
  rw [collision, TransitionSystem.run_append, TransitionSystem.run_append, hfirst, Except.bind,
    hsecond, Except.bind, hrun]

/-- The mutex is safe from every order of signals exactly if no thread leaves two of the
registered signals open. -/
theorem never_selfDeadlock_iff_oneOpen (sigs : Signal → Prop) (bases : Tid → SigSet) :
    (∀ p, TransitionSystem.Reach step (Within sigs) (start bases) p → ∀ t, ¬p.SelfDeadlock t) ↔
      ∀ t, OneOpen sigs (bases t) := by
  constructor
  · intro hnever t s s' hs hs' hopen hopen'
    by_contra hne
    obtain ⟨p, hrun, hdead⟩ := collision_run hne hs.2 hs'.2 hopen hopen'
    exact hnever p (.of_run_forall (within_collision hs.1 hs'.1) hrun) t hdead
  · intro hone p hreach t
    have hsafe := hreach.invariant (safe_start sigs bases) fun _ _ _ => safe_step hone
    exact not_selfDeadlock_of_calm (hsafe.calm t)

/-- Two user signals in a program of one thread that masks nothing. -/
theorem userSignals_selfDeadlock :
    ¬∀ p : Process Unit, TransitionSystem.Reach step (Within fun _ => True)
      (start fun _ => SigSet.empty) p → ∀ t, ¬p.SelfDeadlock t := by
  intro hnever
  obtain ⟨p, hrun, hdead⟩ := @collision_run Unit _ () (fun _ => SigSet.empty)
    ⟨10, by decide, by decide⟩ ⟨12, by decide, by decide⟩ (by decide) rfl rfl rfl rfl
  exact hnever p (.of_run_forall (within_collision trivial trivial) hrun) () hdead

end Process

end Eveboros
