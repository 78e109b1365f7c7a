import Eveboros.Direct.Machine
import Eveboros.Runs.Reentrancy

/-!
# The direct style explains the machine

Whatever the machine does between the call of an operation and its return, the direct semantics
derives.  The stack of the machine is given a meaning, frame by frame, that every step carries on.
With `Does.realizes` the two semantics are equivalent.
-/

namespace Eveboros.Direct

open TransitionSystem

variable {Ev : Type} {s s₁ s₂ : State Ev} {stack : List Frame} {op : Op Ev} {frame : Frame}
  {ctl : Ctl}

/-- Where the control is, or what the operation on top of the stack has yet to do. -/
inductive Point
  | ctl (ctl : Ctl)
  /-- It is about to call the event. -/
  | calls (handle : Handle) (cb : Callback)
  /-- It is about to call `run_one`. -/
  | turning

/-- What has been derived when the machine has got to a point in some state.  `B` says how far
things have got on the stack `base`, where the derivation starts. -/
inductive Doing (base : List Frame) (B : Point → State Ev → Prop) :
    List Frame → Point → State Ev → Prop
  | base {p : Point} {s : State Ev} (h : B p s) : Doing base B base p s
  | calling {stack : List Frame} {op : Op Ev} {frame : Frame} {handle : Handle} {cb : Callback}
      {s s₁ : State Ev} (h : Doing base B stack (.ctl .user) s)
      (hb : Begins (callerOf stack) s op frame (.call handle cb) s₁) :
      Doing base B (frame :: stack) (.calls handle cb) s₁
  | turning {stack : List Frame} {op : Op Ev} {frame : Frame} {s s₁ s₂ : State Ev}
      (h : Doing base B stack (.ctl .user) s)
      (hb : Begins (callerOf stack) s op frame .runOne s₁) (hturns : Does (.turns frame) s₁ s₂) :
      Doing base B (frame :: stack) .turning s₂
  | seeking {stack : List Frame} {s s₁ : State Ev} (h : Doing base B stack .turning s)
      (hseek : Seek s s₁) : Doing base B stack (.ctl .runOne) s₁
  | firing {stack : List Frame} {task : Task} {rest : List Task} {cb : Callback} {l : Loop Ev}
      {s s₁ : State Ev} (h : Doing base B stack .turning s) (hseek : Seek s s₁)
      (hsched : s₁.loop.scheduled = task :: rest)
      (halive : ({ s₁.loop with scheduled := rest } : Loop Ev).eventAlive task.recipient = true)
      (htask : Config.taskCallback { s₁.loop with scheduled := rest } task = .ok (l, some cb)) :
      Doing base B stack (.calls task.recipient cb)
        { s₁ with loop := l, log := .dispatched task :: s₁.log }
  | before {stack : List Frame} {handle : Handle} {cb : Callback} {s s₁ : State Ev}
      (h : Doing base B stack (.calls handle cb) s)
      (hbeside : Relation.ReflTransGen Beside s s₁) :
      Doing base B stack (.ctl (.call handle cb)) s₁
  | inside {stack : List Frame} {handle : Handle} {cb : Callback} {data : StolenData} {event : Ev}
      {l : Loop Ev} {s s₁ s₂ : State Ev} (h : Doing base B stack (.calls handle cb) s)
      (hbeside : Relation.ReflTransGen Beside s s₁)
      (henter : s₁.loop.eventCallEnter handle = .ok (.ok (data, event, l)))
      (hcode : Does (.code (some handle))
        { s₁ with loop := l, log := .called handle cb event :: s₁.log } s₂) :
      Doing base B (.callback handle cb data :: stack) (.ctl .user) s₂
  | settling {stack : List Frame} {handle : Handle} {cb : Callback} {resp : Response}
      {s s₁ : State Ev} (h : Doing base B stack (.calls handle cb) s)
      (hdone : Does (.callback handle cb resp) s s₁) :
      Doing base B stack (.ctl (.settle handle resp)) s₁
  | called {stack : List Frame} {handle : Handle} {cb : Callback} {result : Except Error Unit}
      {s s₁ : State Ev} (h : Doing base B stack (.calls handle cb) s)
      (hdone : Does (.eventCall handle cb result) s s₁) :
      Doing base B stack (.ctl (.ret result)) s₁
  | ran {stack : List Frame} {result : Except Error Unit} {s s₁ : State Ev}
      (h : Doing base B stack .turning s) (hdone : Does (.runOne result) s s₁) :
      Doing base B stack (.ctl (.ret result)) s₁

/-- What happens on the base is what may go on there. -/
structure Closed (base : List Frame) (B : Point → State Ev → Prop) : Prop where
  user {ctl : Ctl} {s : State Ev} : B (.ctl ctl) s → ctl = .user
  beside {s s' : State Ev} : B (.ctl .user) s → Beside s s' → B (.ctl .user) s'
  operation {op : Op Ev} {answer : Answer} {s s' : State Ev} : B (.ctl .user) s →
    Does (.operation (callerOf base) op answer) s s' → B (.ctl .user) s'
  calls {handle : Handle} {cb : Callback} {s : State Ev} : B (.calls handle cb) s →
    ∃ frame rest, base = frame :: rest ∧ frame.callee = none ∧
      ∀ l : Loop Ev, frame.goesOn l = false
  turning {s : State Ev} : B .turning s → ∃ frame rest, base = frame :: rest ∧
    frame.callee = none ∧ ∀ s', Does (.runOne (.ok ())) s s' → frame.goesOn s'.loop = true →
      B .turning s'

inductive Leaves (base : List Frame) (B : Point → State Ev → Prop) (c c' : Config Ev) : Prop
  | mk (frame : Frame) (rest : List Frame) (result : Except Error Unit)
      (hbase : base = frame :: rest) (hframe : frame.callee = none) (hctl : c.ctl = .ret result)
      (hwhat : (∃ handle cb s, B (.calls handle cb) s ∧
          Does (.eventCall handle cb result) s c.state) ∨
        ∃ s, B .turning s ∧ Does (.runOne result) s c.state ∧
          (result = .ok () → frame.goesOn c.loop = false))
      (hc' : c' = (c.state.returned frame (reply result frame)).config rest .user)

section Steps

variable {base : List Frame} {B : Point → State Ev → Prop} {c' : Config Ev} (hB : Closed base B)

include hB

theorem Doing.beside (h : Doing base B stack (.ctl ctl) s) (hbeside : Beside s s₁) :
    Doing base B stack (.ctl ctl) s₁ := by
  cases h with
  | base h =>
      obtain rfl := hB.user h
      exact .base (hB.beside h hbeside)
  | seeking h hseek => exact .seeking h (.beside hseek hbeside)
  | before h hbesides => exact .before h (.tail hbesides hbeside)
  | inside h hbesides henter hcode =>
      exact .inside h hbesides henter (.beside trivial hcode hbeside)
  | settling h hdone => exact .settling h (.beside trivial hdone hbeside)
  | called h hdone => exact .called h (.beside trivial hdone hbeside)
  | ran h hdone => exact .ran h (.beside trivial hdone hbeside)

/-- User code goes on after an operation. -/
theorem Doing.operation {answer : Answer} (h : Doing base B stack (.ctl .user) s)
    (hop : Does (.operation (callerOf stack) op answer) s s₁) :
    Doing base B stack (.ctl .user) s₁ := by
  cases h with
  | base h => exact .base (hB.operation h hop)
  | inside h hbesides henter hcode => exact .inside h hbesides henter (.operation hcode hop)

omit hB in
theorem Doing.push (h : Doing base B stack (.ctl .user) s)
    (hb : Begins (callerOf stack) s op frame ctl s₁) :
    Doing base B (frame :: stack) (.ctl ctl) s₁ := by
  have hpoint : (∃ handle cb, ctl = .call handle cb) ∨ ctl = .runOne := by
    cases hb <;> simp
  rcases hpoint with ⟨handle, cb, rfl⟩ | rfl
  · exact .before (.calling h hb) .refl
  · exact .seeking (.turning h hb (.firstTurn frame s₁)) .start

theorem doing_call (h : Doing base B stack (.ctl .user) s)
    (hstep : (s.config stack .user).callOp op = .ok c') :
    Doing base B c'.stack (.ctl c'.ctl) c'.state := by
  rcases callOp_cases hstep with ⟨hstack, hctl, answer, hlog⟩ | ⟨frame, hstack, hb⟩
  · have himm : Does (.operation (callerOf stack) op answer) s c'.state := by
      refine .immediate hlog fun stack' hcaller => ?_
      have hother := callOp_restack (c := s.config stack .user) hcaller hstep hstack
      rcases c' with ⟨l, _, _, log, objects, boxes⟩
      cases hctl
      exact hother
    rw [hstack, hctl]
    exact h.operation hB himm
  · rw [hstack]
    exact h.push hb

omit hB in
theorem doing_finish {event : Ev} {resp : Response} (h : Doing base B stack (.ctl .user) s)
    (hdeep : stack ≠ base)
    (hstep : (s.config stack .user).step (.finish event resp) = .ok c') :
    Doing base B c'.stack (.ctl c'.ctl) c'.state := by
  cases h with
  | base => exact absurd rfl hdeep
  | inside h hbesides henter hcode =>
      obtain ⟨l, hleave, heq⟩ := Except.bind_eq_ok.mp hstep
      cases heq
      exact .settling h (.called hbesides henter hcode (Except.mapError_eq_ok.mp hleave))

theorem doing_settle {handle : Handle} {resp : Response} {deregisters : Bool}
    {handler : Except Error Unit} (h : Doing base B stack (.ctl (.settle handle resp)) s)
    (hstep : (s.config stack (.settle handle resp)).settle handle resp deregisters handler =
      .ok c') :
    Doing base B c'.stack (.ctl c'.ctl) c'.state := by
  cases h with
  | base h => cases hB.user h
  | settling h hdone =>
      rcases resp with err | (_ | _)
      · obtain ⟨⟨event, l⟩, hkill, heq⟩ := Except.bind_eq_ok.mp hstep
        cases heq
        exact .called h (.failed hdone hkill)
      · obtain ⟨⟨event, l⟩, hkill, heq⟩ := Except.bind_eq_ok.mp hstep
        cases heq
        exact .called h (.killed hdone hkill)
      · cases hstep
        exact .called h (.kept hdone)

theorem doing_gather {env : GatherEnv} (h : Doing base B stack (.ctl .runOne) s)
    (hstep : (s.config stack .runOne).step (.gather env) = .ok c') :
    Doing base B c'.stack (.ctl c'.ctl) c'.state := by
  obtain ⟨_, hsched⟩ := Config.gather_enabled (.ok c') hstep
  have hsched' : s.loop.scheduled = [] := hsched
  cases h with
  | base h => cases hB.user h
  | seeking h hseek =>
      simp only [Config.step, State.config, hsched'] at hstep
      obtain ⟨⟨result, l⟩, hgather, heq⟩ := Except.bind_eq_ok.mp hstep
      have hgather := Except.mapError_eq_ok.mp hgather
      cases result with
      | error err =>
          cases heq
          exact .ran h (.gatherFailed hseek hsched' hgather)
      | ok =>
          cases heq
          exact .seeking h (.gathered hseek hsched' hgather)

theorem doing_pop {task : Task} {rest : List Task} (h : Doing base B stack (.ctl .runOne) s)
    (hsched : s.loop.scheduled = task :: rest)
    (hstep : (s.config stack .runOne).popTask task rest = .ok c') :
    Doing base B c'.stack (.ctl c'.ctl) c'.state := by
  cases h with
  | base h => cases hB.user h
  | seeking h hseek =>
      simp only [Config.popTask] at hstep
      split at hstep
      · obtain ⟨⟨l, cb⟩, htask, heq⟩ := Except.bind_eq_ok.mp hstep
        cases heq
        cases cb with
        | none => exact .ran h (.lost hseek hsched ‹_› htask)
        | some cb => exact .before (.firing h hseek hsched ‹_› htask) .refl
      · cases hstep
        exact .seeking h (.dropped hseek hsched (Bool.not_eq_true _ ▸ ‹_›))

theorem doing_enter {handle : Handle} {cb : Callback}
    (h : Doing base B stack (.ctl (.call handle cb)) s)
    (hstep : (s.config stack (.call handle cb)).enter handle cb = .ok c') :
    Doing base B c'.stack (.ctl c'.ctl) c'.state := by
  cases h with
  | base h => cases hB.user h
  | before h hbesides =>
      obtain ⟨entered, henter, heq⟩ := Except.bind_eq_ok.mp hstep
      rcases entered with err | ⟨data, event, l⟩
      · cases heq
        exact .called h (.refused hbesides henter)
      · cases heq
        exact .inside h hbesides henter (.start _ _)

/-- The operation on top of the stack goes round its loop once more, or returns. -/
theorem doing_turned {result : Except Error Unit} (h : Doing base B stack .turning s)
    (hdone : Does (.runOne result) s s₁)
    (hstep : (s₁.config stack (.ret result)).step .tick = .ok c') :
    Doing base B c'.stack (.ctl c'.ctl) c'.state ∨
      Leaves base B (s₁.config stack (.ret result)) c' := by
  have hgoing (frame : Frame) : (result = .ok () ∧ frame.goesOn s₁.loop = true) ∨
      (result = .ok () → frame.goesOn s₁.loop = false) := by
    by_cases hgoes : result = .ok () ∧ frame.goesOn s₁.loop = true
    · exact .inl hgoes
    · exact .inr fun hok => Bool.eq_false_iff.mpr fun htrue => hgoes ⟨hok, htrue⟩
  cases h with
  | base h =>
      obtain ⟨frame, rest, hbase, hframe, hturn⟩ := hB.turning h
      subst hbase
      rcases hgoing frame with ⟨rfl, hgoes⟩ | hends
      · rw [resume_again hgoes] at hstep
        cases hstep
        exact .inl (.seeking (.base (hturn _ hdone hgoes)) .start)
      · rw [resume_returns hframe hends] at hstep
        cases hstep
        exact .inr ⟨frame, rest, result, rfl, hframe, rfl, .inr ⟨_, h, hdone, hends⟩, rfl⟩
  | @turning rest op frame _ _ _ hcode hb hturns =>
      rcases hgoing frame with ⟨rfl, hgoes⟩ | hends
      · rw [resume_again hgoes] at hstep
        cases hstep
        exact .inl (.seeking (.turning hcode hb (.turn hturns hdone hgoes)) .start)
      · rw [resume_returns (by cases hb <;> rfl) hends] at hstep
        cases hstep
        exact .inl (hcode.operation hB (hb.operation_run hturns hdone hends))

theorem doing_ret {result : Except Error Unit} (h : Doing base B stack (.ctl (.ret result)) s)
    (hstep : (s.config stack (.ret result)).step .tick = .ok c') :
    Doing base B c'.stack (.ctl c'.ctl) c'.state ∨
      Leaves base B (s.config stack (.ret result)) c' := by
  cases h with
  | base h => cases hB.user h
  | ran h hdone => exact doing_turned hB h hdone hstep
  | called h hdone =>
      cases h with
      | firing h hseek hsched halive htask =>
          exact doing_turned hB h (.fired hseek hsched halive htask hdone) hstep
      | base h =>
          obtain ⟨frame, rest, hbase, hframe, hends⟩ := hB.calls h
          subst hbase
          rw [resume_returns hframe fun _ => hends _] at hstep
          cases hstep
          exact .inr ⟨frame, rest, result, rfl, hframe, rfl, .inl ⟨_, _, _, h, hdone⟩, rfl⟩
      | calling h hb =>
          rw [resume_returns (by cases hb <;> rfl) fun _ => by cases hb <;> rfl] at hstep
          cases hstep
          exact .inl (h.operation hB (hb.operation_call hdone))

/-- One step of the machine carries the derivation on, until the operation on the base returns. -/
theorem Doing.step {c : Config Ev} {a : Action Ev} (h : Doing base B c.stack (.ctl c.ctl) c.state)
    (hstays : c.stack = base → ∀ event resp, a ≠ .finish event resp) (hstep : c.step a = .ok c') :
    Doing base B c'.stack (.ctl c'.ctl) c'.state ∨ Leaves base B c c' := by
  by_cases hout : IsOutside a
  · obtain ⟨l, hl, rfl⟩ := step_outside hout hstep
    exact .inl (h.beside hB ⟨a, l, hl, rfl⟩)
  rcases c with ⟨l, stack, ctl, log, objects, boxes⟩
  cases a with
  | call op => cases ctl <;> first | cases hstep | exact .inl (doing_call hB h hstep)
  | finish event resp =>
      cases ctl <;> first
        | exact .inl (doing_finish h (fun heq => hstays heq event resp rfl) hstep)
        | cases hstep
  | settle deregisters handler =>
      cases ctl <;> first
        | cases hstep
        | exact .inl (doing_settle hB h (Except.mapError_eq_ok.mp hstep))
  | gather env =>
      obtain ⟨rfl, _⟩ := Config.gather_enabled (.ok c') hstep
      exact .inl (doing_gather hB h hstep)
  | tick =>
      cases ctl with
      | runOne =>
          cases hsched : l.scheduled with
          | nil => simp [Config.step, Config.tick, hsched] at hstep
          | cons task rest =>
              simp only [Config.step, Config.tick, hsched] at hstep
              exact .inl (doing_pop hB h hsched (Except.mapError_eq_ok.mp hstep))
      | call handle cb => exact .inl (doing_enter hB h (Except.mapError_eq_ok.mp hstep))
      | ret result => exact doing_ret hB h hstep
      | _ => cases hstep
  | _ => exact absurd trivial hout

end Steps

/-! ## User code -/

theorem Doing.length {base : List Frame} {B : Point → State Ev → Prop} {p : Point}
    (h : Doing base B stack p s) : base.length ≤ stack.length := by
  induction h with
  | base => exact le_rfl
  | calling _ _ ih | turning _ _ _ ih | inside _ _ _ _ ih => exact Nat.le_succ_of_le ih
  | _ => assumption

/-- Back on the base. -/
theorem Doing.back {base : List Frame} {B : Point → State Ev → Prop}
    (h : Doing base B base (.ctl .user) s) : B (.ctl .user) s := by
  cases h with
  | base h => exact h
  | inside h => exact absurd h.length (Nat.not_succ_le_self _)

/-- User code has got from `s₀` to the state. -/
def Coding (stack : List Frame) (s₀ : State Ev) (p : Point) (s : State Ev) : Prop :=
  p = .ctl .user ∧ Does (.code (callerOf stack)) s₀ s

theorem closed_coding (s₀ : State Ev) : Closed stack (Coding stack s₀) where
  user h := Point.ctl.inj h.1
  beside h hbeside := ⟨rfl, .beside trivial h.2 hbeside⟩
  operation h hop := ⟨rfl, .operation h.2 hop⟩
  calls h := nomatch h.1
  turning h := nomatch h.1

/-- The machine goes from one point of user code to a later one exactly as the direct semantics
says. -/
theorem path_iff_code (stack : List Frame) (s s' : State Ev) :
    Path stack s .user s' .user ↔ Does (.code (callerOf stack)) s s' := by
  refine ⟨fun h => ?_, fun h => h.realizes stack rfl⟩
  have hdoing : Doing stack (Coding stack s) stack (.ctl .user) s' :=
    h.invariant (Q := fun c => Doing stack (Coding stack s) c.stack (.ctl c.ctl) c.state)
      (.base ⟨rfl, .start _ _⟩) fun c c' a hc hstays hstep => by
        refine (hc.step (closed_coding s)
          (fun hbase => hstays.2 (congrArg List.length hbase)) hstep).resolve_right ?_
        rintro ⟨_, _, _, _, _, _, ⟨_, _, _, h, _⟩ | ⟨_, h, _⟩, _⟩ <;> cases h.1
  exact hdoing.back.2

/-! ## Operations -/

/-- The operation is about to call the event. -/
def Calling (handle : Handle) (cb : Callback) (s₀ : State Ev) (p : Point) (s : State Ev) : Prop :=
  p = .calls handle cb ∧ s = s₀

theorem closed_calling {handle : Handle} {cb : Callback} (hframe : frame.callee = none)
    (hends : ∀ l : Loop Ev, frame.goesOn l = false) (s₀ : State Ev) :
    Closed (frame :: stack) (Calling handle cb s₀) where
  user h := nomatch h.1
  beside h := nomatch h.1
  operation h := nomatch h.1
  calls _ := ⟨frame, stack, rfl, hframe, hends⟩
  turning h := nomatch h.1

/-- The operation is about to call `run_one`, for the first time or once more. -/
def Turning (frame : Frame) (s₀ : State Ev) (p : Point) (s : State Ev) : Prop :=
  p = .turning ∧ Does (.turns frame) s₀ s

theorem closed_turning (hframe : frame.callee = none) (s₀ : State Ev) :
    Closed (frame :: stack) (Turning frame s₀) where
  user h := nomatch h.1
  beside h := nomatch h.1
  operation h := nomatch h.1
  calls h := nomatch h.1
  turning h := ⟨frame, stack, rfl, hframe, fun _ hrun hgoes => ⟨rfl, .turn h.2 hrun hgoes⟩⟩

theorem finish_top {c c' : Config Ev} {event : Ev} {resp : Response}
    (h : c.step (.finish event resp) = .ok c') :
    ∃ handle cb data rest, c.stack = .callback handle cb data :: rest := by
  rcases c with ⟨l, stack, ctl, log, objects, boxes⟩
  cases ctl with
  | user =>
      rcases stack with _ | ⟨frame, rest⟩
      · cases h
      · cases frame <;> first | exact ⟨_, _, _, _, rfl⟩ | cases h
  | _ => cases h

/-- The operation, called in this state, has returned in the configuration. -/
def Done (stack : List Frame) (op : Op Ev) (s : State Ev) (c : Config Ev) : Prop :=
  ∃ answer s', c = s'.config stack .user ∧ Does (.operation (callerOf stack) op answer) s s'

/-- An operation with a frame of its own has the frame on the stack until it is done. -/
theorem done_of_reach {B : Point → State Ev → Prop} {c c₁ : Config Ev}
    (hframe : frame.callee = none) (hB : Closed (frame :: stack) B)
    (hstart : Doing (frame :: stack) B c₁.stack (.ctl c₁.ctl) c₁.state)
    (hleaves : ∀ d d', Leaves (frame :: stack) B d d' → Done stack op s d')
    (h : Reach Config.step (fun d _ => stack.length < d.stack.length) c₁ c) :
    stack.length < c.stack.length ∨ Done stack op s c := by
  have hinv := h.invariant (Q := fun d =>
    Doing (frame :: stack) B d.stack (.ctl d.ctl) d.state ∨ Done stack op s d) (.inl hstart)
    fun d d' a hd hdeep hstep => by
      rcases hd with hd | ⟨_, _, rfl, _⟩
      · refine (hd.step hB (fun hbase event resp ha => ?_) hstep).imp_right (hleaves d d')
        -- The frame on the base is no callback, so no code runs on top of it.
        subst ha
        obtain ⟨handle, cb, data, rest, htop⟩ := finish_top hstep
        cases hbase.symm.trans htop
        cases hframe
      · exact absurd hdeep (lt_irrefl _)
  exact hinv.imp_left Doing.length

theorem Begins.done {c : Config Ev} (hb : Begins (callerOf stack) s op frame ctl s₁)
    (h : Reach Config.step (fun d _ => stack.length < d.stack.length)
      (s₁.config (frame :: stack) ctl) c) :
    stack.length < c.stack.length ∨ Done stack op s c := by
  have hframe : frame.callee = none := by cases hb <;> rfl
  have hctl : (∃ handle cb, ctl = .call handle cb) ∨ ctl = .runOne := by cases hb <;> simp
  rcases hctl with ⟨handle, cb, rfl⟩ | rfl
  · have hends (l : Loop Ev) : frame.goesOn l = false := by cases hb <;> rfl
    refine done_of_reach hframe (closed_calling hframe hends s₁)
      (.before (.base ⟨rfl, rfl⟩) .refl) ?_ h
    rintro d d' ⟨_, _, result, hbase, _, _, ⟨_, _, _, ⟨hp, rfl⟩, hdone⟩ | ⟨_, ⟨hp, _⟩, _⟩, rfl⟩
    · cases hbase
      cases hp
      exact ⟨_, _, rfl, hb.operation_call hdone⟩
    · cases hp
  · refine done_of_reach hframe (closed_turning hframe s₁)
      (.seeking (.base ⟨rfl, .firstTurn _ _⟩) .start) ?_ h
    rintro d d' ⟨_, _, result, hbase, _, _, ⟨_, _, _, ⟨hp, _⟩, _⟩ |
      ⟨_, ⟨_, hturns⟩, hdone, hends⟩, rfl⟩
    · cases hp
    · cases hbase
      exact ⟨_, _, rfl, hb.operation_run hturns hdone hends⟩

/-- How a derivation of an operation begins and ends. -/
theorem Does.operation_cases {caller : Option Handle} {answer : Answer}
    (h : Does (.operation caller op answer) s s₂) :
    (∀ stack, callerOf stack = caller →
        (s.config stack .user).callOp op = .ok (s₂.config stack .user)) ∨
      ∃ frame ctl s₁ s' result, Begins caller s op frame ctl s₁ ∧
        (∀ stack, Path (frame :: stack) s₁ ctl s' (.ret result)) ∧
        (result = .ok () → frame.goesOn s'.loop = false) ∧
        s₂ = s'.returned frame (reply result frame) := by
  cases h with
  | beside hact => exact hact.elim
  | immediate hlog h => exact .inl h
  | insertExact hstore hinit =>
      exact .inr ⟨_, _, _, _, _, .insertExact hstore, fun _ => hinit.realizes _, fun _ => rfl, rfl⟩
  | postImpl hcheck hcall =>
      exact .inr ⟨_, _, _, _, _, .postImpl hcheck, fun _ => hcall.realizes _, fun _ => rfl, rfl⟩
  | runOne hrun =>
      exact .inr ⟨_, _, _, _, _, .runOne, fun _ => hrun.realizes _, fun _ => rfl, rfl⟩
  | run hrounds =>
      exact .inr ⟨_, _, _, _, _, .run, hrounds.realizes.1, hrounds.realizes.2, rfl⟩
  | runUntilEmpty hrounds =>
      exact .inr ⟨_, _, _, _, _, .runUntilEmpty, hrounds.realizes.1, hrounds.realizes.2, rfl⟩
  | runUntilComplete halive hindex hfree hrounds =>
      exact .inr ⟨_, _, _, _, _, .runUntilComplete halive hindex hfree, hrounds.realizes.1,
        hrounds.realizes.2, rfl⟩

/-- An operation called in the machine returns exactly where the direct semantics says. -/
theorem returns_iff_operation (stack : List Frame) (op : Op Ev) (s : State Ev) (c : Config Ev) :
    Config.Returns op (s.config stack .user) c ↔
      ∃ answer s', c = s'.config stack .user ∧
        Does (.operation (callerOf stack) op answer) s s' := by
  constructor
  · rintro ⟨c₁, hcall, hreach, hlen⟩
    rcases callOp_cases hcall with ⟨hstack, hctl, answer, hlog⟩ | ⟨frame, hstack, hb⟩
    · have hend : c₁ = c := hreach.invariant rfl fun d d' a hd hdeep _ => by
        subst hd
        exact absurd hdeep (by rw [hstack]; exact lt_irrefl _)
      subst hend
      rcases c₁ with ⟨l, stack₁, ctl, log, objects, boxes⟩
      obtain rfl : stack = stack₁ := hstack.symm
      obtain rfl : ctl = .user := hctl
      refine ⟨answer, ⟨l, log, objects, boxes⟩, rfl, .immediate hlog fun stack' hcaller => ?_⟩
      exact callOp_restack (c := s.config stack .user) hcaller hcall rfl
    · rcases c₁ with ⟨l, stack₁, ctl, log, objects, boxes⟩
      obtain rfl : stack₁ = frame :: stack := hstack
      exact (hb.done hreach).resolve_left (Nat.not_lt.mpr hlen)
  · rintro ⟨answer, s', rfl, hop⟩
    rcases hop.operation_cases with himm | ⟨frame, ctl, s₁, s₂, result, hb, hpath, hends, rfl⟩
    · exact ⟨_, himm stack rfl, .start, le_rfl⟩
    · have hframe : frame.callee = none := by cases hb <;> rfl
      refine ⟨_, hb.callOp, ?_, le_rfl⟩
      refine .next ((hpath stack).mono fun d a hstays => hstays.1) ?_
        (resume_returns hframe hends)
      exact Nat.lt_succ_self _

end Eveboros.Direct
