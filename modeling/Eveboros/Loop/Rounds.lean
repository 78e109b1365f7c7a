import Eveboros.Lib.Outcome
import Eveboros.Loop.Gather

/-!
# A gather in rounds

Others may interfere while a gather looks at the flags and reaps children.  Here it is cut at every
event of the poll, at every flag and at every call of `waitpid`.  Left alone, the rounds come to
what `tasksGather` does in one go.
-/

namespace Eveboros

/-- Where a gather goes on. -/
inductive GatherPhase
  /-- At the next event of the poll. -/
  | events (evs : List PollEvent)
  /-- At the next flag. -/
  | signals (signums : List Nat) (evs : List PollEvent)
  /-- At the next call of `waitpid`. -/
  | children (signums : List Nat) (evs : List PollEvent)
  deriving DecidableEq, Repr

/-- The flag of SIGCHLD has been cleared, and `waitpid` is asked until it has nothing more. -/
def GatherPhase.reaps : GatherPhase → Bool
  | .children _ _ => true
  | _ => false

inductive Progress (Ev : Type)
  | going (phase : GatherPhase) (l : Loop Ev)
  | finished (result : Except Error Unit) (l : Loop Ev)

namespace Progress

variable {Ev : Type}

def loop : Progress Ev → Loop Ev
  | .going _ l => l
  | .finished _ l => l

def phase : Progress Ev → Option GatherPhase
  | .going phase _ => some phase
  | .finished _ _ => none

def error : Progress Ev → Option Error
  | .finished (.error err) _ => some err
  | _ => none

end Progress

namespace Loop

variable {Ev : Type}

/-- A gather up to the first event of the poll. -/
def gatherBegin (env : GatherEnv) (l : Loop Ev) : Except Panic (Progress Ev) :=
  if l.scheduled ≠ [] then .error .tasksScheduled
  else do
    let l ← l.drainReleased
    let empty ← l.events.isEmpty.mapError .events
    if empty then return .finished (.error .empty) l
    else
      let l := (l.timeoutMin env.now).2
      match env.poll with
      | .error .interrupted => return .finished (.ok ()) l
      | .error err => return .finished (.error (.io err)) l
      | .ok events => return .going (.events events) { l with now := env.wake }

def eventRound (evs : List PollEvent) (l : Loop Ev) : Except Panic (Progress Ev) :=
  match evs with
  | [] => do
      let l ← l.timersCleanup
      return .finished (.ok ()) l.tasksGatherTimers.gatherIdle
  | ev :: rest =>
      if ev.token = SIGNAL_TOK then
        .ok (.going (.signals (List.range SIG_COUNT) rest) { l with signalWakeup := false })
      else do
        -- The other tokens have nothing to do with `waitpid`.
        let (gathered, l) ← l.gatherEvent [] ev
        return match gathered with
          | .error err => .finished (.error err) l
          | .ok () => .going (.events rest) l

def signalRound (signums : List Nat) (evs : List PollEvent) (l : Loop Ev) :
    Except Panic (Progress Ev) :=
  match signums with
  | [] => .ok (.going (.events evs) l)
  | signum :: rest =>
      if signum = Signal.SIGCHLD.num ∧ l.signalFlags signum = true then
        .ok (.going (.children rest evs) (l.clearFlag signum))
      else do
        let (scanned, l) ← l.scanSignal [] signum
        return match scanned with
          | .error err => .finished (.error err) l
          | .ok () => .going (.signals rest evs) l

/-- One turn of the loop in `children_gather`; at its end the signal itself is scheduled. -/
def waitRound (answer : WaitResult) (signums : List Nat) (evs : List PollEvent) (l : Loop Ev) :
    Except Panic (Progress Ev) :=
  match answer with
  | .error (.sys .EAGAIN) => .ok (.going (.signals signums evs) (l.scheduleSignal .SIGCHLD))
  | .ok .stillAlive => .ok (.going (.signals signums evs) (l.scheduleSignal .SIGCHLD))
  | .error (.sys .ECHILD) => .ok (.going (.signals signums evs) (l.scheduleSignal .SIGCHLD))
  | .error err => .ok (.finished (.error (.nix err)) l)
  | .ok (.exited pid code) => do
      let l ← l.childPush pid (.exited code)
      return .going (.children signums evs) l
  | .ok (.signaled pid signal _) => do
      let l ← l.childPush pid (.signaled signal)
      return .going (.children signums evs) l
  | .ok (.realTime _ _) => .error .waitpid
  | .ok .other => .ok (.going (.children signums evs) l)

/-! ## The rest of a gather -/

/-- Stop at an error. -/
def andThen (f : Loop Ev → Except Panic (Except Error Unit × Loop Ev)) :
    Except Error Unit × Loop Ev → Except Panic (Except Error Unit × Loop Ev)
  | (.error err, l) => .ok (.error err, l)
  | (.ok (), l) => f l

def eventsRest (waits : List WaitResult) (evs : List PollEvent) (l : Loop Ev) :
    Except Panic (Except Error Unit × Loop Ev) :=
  tasksGatherIo waits evs l >>= andThen fun l => do
    let l ← l.timersCleanup
    return (.ok (), l.tasksGatherTimers.gatherIdle)

def signalsRest (waits : List WaitResult) (signums : List Nat) (evs : List PollEvent)
    (l : Loop Ev) : Except Panic (Except Error Unit × Loop Ev) :=
  scanSignals waits signums l >>= andThen (eventsRest waits evs)

/-- What the functions of the gather still do when `waitpid` answers `left`, and `waits` if it
comes to reaping again. -/
def gatherRest (waits left : List WaitResult) :
    Progress Ev → Except Panic (Except Error Unit × Loop Ev)
  | .finished result l => .ok (result, l)
  | .going (.events evs) l => eventsRest waits evs l
  | .going (.signals signums evs) l => signalsRest waits signums evs l
  | .going (.children signums evs) l =>
      childrenGather left l >>= andThen fun l =>
        signalsRest waits signums evs (l.scheduleSignal .SIGCHLD)

/-- A gather is its rounds. -/
theorem tasksGather_eq (env : GatherEnv) (l : Loop Ev) :
    l.tasksGather env = l.gatherBegin env >>= gatherRest env.waits env.waits := by
  unfold tasksGather tasksPoll gatherBegin
  by_cases hsched : l.scheduled = []
  · simp only [hsched, ne_eq, not_true_eq_false, ↓reduceIte, bind_assoc]
    apply bind_congr
    intro l₁
    apply bind_congr
    intro empty
    cases empty with
    | true => rfl
    | false =>
        cases hpoll : env.poll with
        | error err => cases err <;> rfl
        | ok events =>
            simp only [Bool.false_eq_true, ↓reduceIte, bind_assoc]
            show _ = eventsRest env.waits events _
            unfold eventsRest
            apply bind_congr
            rintro ⟨gathered, l₂⟩
            cases gathered <;> rfl
  · simp only [hsched, ne_eq, not_false_eq_true, ↓reduceIte]
    rfl

theorem gatherEvent_of_ne (waits : List WaitResult) (l : Loop Ev) {ev : PollEvent}
    (h : ev.token ≠ SIGNAL_TOK) : l.gatherEvent waits ev = l.gatherEvent [] ev := by
  simp only [gatherEvent, h, ↓reduceDIte]

theorem gatherRest_events (waits left : List WaitResult) (evs : List PollEvent) (l : Loop Ev) :
    gatherRest waits left (.going (.events evs) l) =
      l.eventRound evs >>= gatherRest waits waits := by
  show eventsRest waits evs l = _
  cases evs with
  | nil =>
      simp only [eventsRest, tasksGatherIo, eventRound, Except.ok_bind, andThen, bind_assoc]
      rfl
  | cons ev rest =>
      by_cases hsignal : ev.token = SIGNAL_TOK
      · have hscan : l.gatherEvent waits ev =
            scanSignals waits (List.range SIG_COUNT) { l with signalWakeup := false } := by
          simp [gatherEvent, hsignal, CHANNEL_TOK, SIGNAL_TOK]
        simp only [eventsRest, tasksGatherIo, eventRound, hsignal, ↓reduceIte, hscan, bind_assoc]
        show _ = signalsRest waits (List.range SIG_COUNT) rest _
        unfold signalsRest
        apply bind_congr
        rintro ⟨scanned, l₁⟩
        cases scanned <;> rfl
      · simp only [eventsRest, tasksGatherIo, eventRound, hsignal, ↓reduceIte, bind_assoc,
          gatherEvent_of_ne waits l hsignal]
        apply bind_congr
        rintro ⟨gathered, l₁⟩
        cases gathered <;> rfl

theorem scanSignal_of_unless (waits : List WaitResult) {l : Loop Ev} {signum : Nat}
    (h : ¬(signum = Signal.SIGCHLD.num ∧ l.signalFlags signum = true)) :
    l.scanSignal waits signum = l.scanSignal [] signum := by
  unfold scanSignal
  split
  · cases hsignal : Signal.fromCInt signum with
    | none => rfl
    | some signal =>
        have hne : signal ≠ .SIGCHLD := by
          rintro rfl
          exact h ⟨(Signal.num_of_fromCInt hsignal).symm, ‹_›⟩
        simp only [hne, ↓reduceIte]
  · rfl

theorem gatherRest_signals (waits left : List WaitResult) (signums : List Nat)
    (evs : List PollEvent) (l : Loop Ev) :
    gatherRest waits left (.going (.signals signums evs) l) =
      l.signalRound signums evs >>= gatherRest waits waits := by
  show signalsRest waits signums evs l = _
  cases signums with
  | nil => rfl
  | cons signum rest =>
      by_cases hchld : signum = Signal.SIGCHLD.num ∧ l.signalFlags signum = true
      · obtain ⟨rfl, hflag⟩ := hchld
        simp only [signalsRest, scanSignals, scanSignal, hflag, ↓reduceIte, signalRound, and_self,
          Signal.fromCInt_num, bind_assoc]
        show _ = (childrenGather waits _ >>= _)
        apply bind_congr
        rintro ⟨reaped, l₁⟩
        cases reaped <;> rfl
      · simp only [signalsRest, scanSignals, signalRound, hchld, ↓reduceIte, bind_assoc,
          scanSignal_of_unless waits hchld]
        apply bind_congr
        rintro ⟨scanned, l₁⟩
        cases scanned <;> rfl

theorem gatherRest_children (waits left : List WaitResult) (answer : WaitResult)
    (signums : List Nat) (evs : List PollEvent) (l : Loop Ev) :
    gatherRest waits (answer :: left) (.going (.children signums evs) l) =
      l.waitRound answer signums evs >>= gatherRest waits left := by
  show (childrenGather (answer :: left) l >>= _) = _
  unfold childrenGather waitRound
  split <;> first | rfl | (simp only [bind_assoc]; rfl)

/-- No more answers: there are no more children. -/
theorem gatherRest_children_nil (waits : List WaitResult) (signums : List Nat)
    (evs : List PollEvent) (l : Loop Ev) :
    gatherRest waits [] (.going (.children signums evs) l) =
      l.waitRound (.ok .stillAlive) signums evs >>= gatherRest waits [] := rfl

/-- The rounds of a gather that nobody interferes with; `waitpid` has `left` to answer. -/
inductive Alone (env : GatherEnv) (l₀ : Loop Ev) : List WaitResult → Progress Ev → Prop
  | begun {p : Progress Ev} (h : l₀.gatherBegin env = .ok p) : Alone env l₀ env.waits p
  | event {left : List WaitResult} {evs : List PollEvent} {l : Loop Ev} {p : Progress Ev} :
      Alone env l₀ left (.going (.events evs) l) → l.eventRound evs = .ok p →
      Alone env l₀ env.waits p
  | signal {left : List WaitResult} {signums : List Nat} {evs : List PollEvent} {l : Loop Ev}
      {p : Progress Ev} :
      Alone env l₀ left (.going (.signals signums evs) l) → l.signalRound signums evs = .ok p →
      Alone env l₀ env.waits p
  | wait {answer : WaitResult} {left : List WaitResult} {signums : List Nat}
      {evs : List PollEvent} {l : Loop Ev} {p : Progress Ev} :
      Alone env l₀ (answer :: left) (.going (.children signums evs) l) →
      l.waitRound answer signums evs = .ok p → Alone env l₀ left p
  | waitEnd {signums : List Nat} {evs : List PollEvent} {l : Loop Ev} {p : Progress Ev} :
      Alone env l₀ [] (.going (.children signums evs) l) →
      l.waitRound (.ok .stillAlive) signums evs = .ok p → Alone env l₀ [] p

/-- After any number of rounds, what is left to do leads to the result of the gather. -/
theorem Alone.rest {env : GatherEnv} {l₀ : Loop Ev} {left : List WaitResult} {p : Progress Ev}
    (h : Alone env l₀ left p) : gatherRest env.waits left p = l₀.tasksGather env := by
  induction h with
  | begun h => rw [tasksGather_eq, h, Except.ok_bind]
  | event _ hround ih => rw [← ih, gatherRest_events, hround, Except.ok_bind]
  | signal _ hround ih => rw [← ih, gatherRest_signals, hround, Except.ok_bind]
  | wait _ hround ih => rw [← ih, gatherRest_children, hround, Except.ok_bind]
  | waitEnd _ hround ih => rw [← ih, gatherRest_children_nil, hround, Except.ok_bind]

theorem Alone.result {env : GatherEnv} {l₀ l : Loop Ev} {left : List WaitResult}
    {result : Except Error Unit} (h : Alone env l₀ left (.finished result l)) :
    l₀.tasksGather env = .ok (result, l) := h.rest.symm

end Loop

end Eveboros
