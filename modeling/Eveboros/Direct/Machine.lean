import Eveboros.Direct.Semantics
import Eveboros.Machine.Visited

/-!
# The machine runs the direct style

A derivation of the direct semantics is performed by the machine step by step: a function that
calls another one puts its frame on the stack, and takes it off when the other one has returned.
-/

namespace Eveboros

open TransitionSystem

variable {Ev : Type}

def Action.isFinish : Action Ev → Bool
  | .finish _ _ => true
  | _ => false

theorem Action.not_finish {a : Action Ev} (h : a.isFinish = false) (event : Ev) (resp : Response) :
    a ≠ .finish event resp := by
  rintro rfl
  cases h

def Config.state (c : Config Ev) : Direct.State Ev := ⟨c.loop, c.log, c.objects, c.boxes⟩

namespace Direct

/-- The event in whose name code on top of this stack runs. -/
def callerOf : List Frame → Option Handle
  | .callback handle _ _ :: _ => some handle
  | _ => none

/-- Without returning from the code at this depth of the stack. -/
def Stays (depth : Nat) (c : Config Ev) (a : Action Ev) : Prop :=
  depth ≤ c.stack.length ∧ (c.stack.length = depth → ∀ event resp, a ≠ .finish event resp)

theorem Stays.mono {depth depth' : Nat} (hle : depth ≤ depth') {c : Config Ev} {a : Action Ev}
    (h : Stays depth' c a) : Stays depth c a :=
  ⟨hle.trans h.1, fun heq => h.2 (le_antisymm (heq.trans_le hle) h.1)⟩

/-- The machine gets from one point to another on the same stack, above it in between. -/
def Path (stack : List Frame) (s : State Ev) (ctl : Ctl) (s' : State Ev) (ctl' : Ctl) : Prop :=
  Reach Config.step (Stays stack.length) (s.config stack ctl) (s'.config stack ctl')

/-! ## Steps of the environment -/

/-- Actions of the environment that no function of the loop takes part in. -/
def IsOutside : Action Ev → Prop
  | .dispatch _ => True
  | .remote _ => True
  | .reorderReleased _ => True
  | .reorderTimeouts _ => True
  | .reorderRecipients _ _ => True
  | _ => False

theorem outside_step {c : Config Ev} {a : Action Ev} {l : Loop Ev} (h : Outside c.loop a l) :
    c.step a = .ok { c with loop := l } := by
  cases h with
  | notified signal hon => exact if_pos hon
  | arrived m hmay => exact if_pos hmay
  | reorderedReleased order h => exact dif_pos h
  | reorderedTimeouts order h => exact if_pos h
  | reorderedRecipients signum order h => exact dif_pos h

theorem step_outside {c c' : Config Ev} {a : Action Ev} (ha : IsOutside a)
    (h : c.step a = .ok c') : ∃ l, Outside c.loop a l ∧ c' = { c with loop := l } := by
  cases a with
  | dispatch signal =>
      simp only [Config.step] at h
      split at h
      · cases h
        exact ⟨_, .notified signal ‹_›, rfl⟩
      · cases h
  | remote m =>
      simp only [Config.step] at h
      split at h
      · cases h
        exact ⟨_, .arrived m ‹_›, rfl⟩
      · cases h
  | reorderReleased order =>
      simp only [Config.step] at h
      split at h
      · cases h
        exact ⟨_, .reorderedReleased order ‹_›, rfl⟩
      · cases h
  | reorderTimeouts order =>
      simp only [Config.step] at h
      split at h
      · cases h
        exact ⟨_, .reorderedTimeouts order ‹_›, rfl⟩
      · cases h
  | reorderRecipients signum order =>
      simp only [Config.step] at h
      split at h
      · cases h
        exact ⟨_, .reorderedRecipients signum order ‹_›, rfl⟩
      · cases h
  | _ => exact ha.elim

/-! ## Operations -/

/-- What an operation that keeps a frame of its own does first. -/
inductive Begins (caller : Option Handle) (s : State Ev) : Op Ev → Frame → Ctl → State Ev → Prop
  | insertExact {event : Ev} {growth : Growth} {handle : Handle} {l : Loop Ev}
      (hstore : s.loop.storeEvent event growth = .ok (handle, l)) :
      Begins caller s (.iface (.insertExact event growth)) (.insertExact handle)
        (.call handle .init) { s with loop := l, log := .stored handle event :: s.log }
  | postImpl {handle : Handle} {data : AnyBox} {tp : TypeId}
      (hcheck : s.loop.msgTypeCheck handle tp = .ok (.ok ())) :
      Begins caller s (.iface (.postImpl handle data tp)) .postImpl
        (.call handle (.message ⟨data, tp, .post caller⟩)) s
  | runOne : Begins caller s (.iface .runOne) .runOne .runOne s
  | run : Begins caller s (.iface .run) .run .runOne s.activated
  | runUntilEmpty : Begins caller s (.iface .runUntilEmpty) .runUntilEmpty .runOne s.activated
  | runUntilComplete {handle : Handle} {holder : EvHolder Ev}
      (halive : s.loop.eventAlive handle = true)
      (hindex : s.loop.events.index handle.id = .ok holder) (hfree : holder.event.stolen = false) :
      Begins caller s (.iface (.runUntilComplete handle)) (.runUntilComplete handle) .runOne s

/-- What the operation of a frame makes of the result of what it called. -/
def reply (result : Except Error Unit) : Frame → Answer
  | .insertExact handle => result.map fun _ => .handle handle
  | .runUntilEmpty => emptyIsFine result
  | _ => result.map fun _ => .unit

variable {s s₁ s₂ : State Ev} {stack : List Frame} {op : Op Ev} {frame : Frame} {ctl : Ctl}

theorem Begins.callOp (h : Begins (callerOf stack) s op frame ctl s₁) :
    (s.config stack .user).callOp op = .ok (s₁.config (frame :: stack) ctl) := by
  cases h with
  | insertExact hstore =>
      simp only [Config.callOp, Config.callIface, State.config, hstore, Except.ok_bind,
        Except.pure_eq_ok, Except.mapError_ok]
  | postImpl hcheck =>
      simp only [Config.callOp, Config.callIface, State.config, hcheck, Except.ok_bind,
        Except.pure_eq_ok, Except.mapError_ok]
      rfl
  | runUntilComplete halive hindex hfree =>
      simp only [Config.callOp, Config.callIface, State.config, halive, hindex, hfree,
        Except.ok_bind, Except.pure_eq_ok, Except.mapError_ok, Bool.true_eq_false,
        Bool.false_eq_true, ↓reduceIte]
  | _ => rfl

/-- On another stack with code of the same caller on top. -/
def restack (stack : List Frame) (c : Config Ev) : Config Ev := { c with stack := stack }

section Restack

variable {c c' : Config Ev} (hcaller : callerOf stack = c.caller)

include hcaller

theorem answer_restack (l : Loop Ev) (op : Op Ev) (answer : Answer) :
    (restack stack c).answer l op answer = restack stack (c.answer l op answer) := by
  simp only [Config.answer, show (restack stack c).caller = callerOf stack from rfl, hcaller]
  rfl

theorem callScope_restack (handle : Handle) (op : ScopeOp) :
    (restack stack c).callScope handle op = (c.callScope handle op).map (restack stack) := by
  have same (l : Loop Ev) (answer : Answer) :=
    congrArg (Except.ok (ε := Panic)) (answer_restack hcaller l (.scope op) answer)
  cases op with
  | timeoutAt | timeoutAfter | signal | expectMessage | ioUpdate | ioRemove | child =>
      exact Except.bind_relabel_right fun _ => same _ _
  | ioMut id left =>
      refine Except.bind_relabel_right fun lent => ?_
      cases lent with
      | error err => exact same _ _
      | ok io =>
          exact congrArg Except.ok (congrArg (fun d : Config Ev =>
            { d with boxes := left.elim c.boxes (Function.update c.boxes io.io) })
            (answer_restack hcaller _ _ _))
  | ioRegisterAny =>
      refine Except.bind_relabel_right fun _ => ?_
      exact congrArg Except.ok (congrArg (fun d : Config Ev => { d with objects := c.objects + 1 })
        (answer_restack hcaller _ _ _))
  | _ => exact same _ _

theorem callOwner_restack (op : OwnerOp) :
    (restack stack c).callOwner op = (c.callOwner op).map (restack stack) := by
  cases op with
  | poolThreadCountSet | signalEnable =>
      exact Except.bind_relabel_right fun l =>
        congrArg (Except.ok (ε := Panic)) (answer_restack hcaller l _ _)

/-- An operation that answers at once does so on every such stack. -/
theorem callOp_restack {op : Op Ev} (h : c.callOp op = .ok c') (hstack : c'.stack = c.stack) :
    (restack stack c).callOp op = .ok (restack stack c') := by
  have same (l : Loop Ev) (op : Op Ev) (answer : Answer) := answer_restack hcaller l op answer
  cases op with
  | owner op =>
      have hcaller' : (restack stack c).caller = c.caller := hcaller
      cases hnone : c.caller with
      | some handle => simp [Config.callOp, hnone] at h
      | none =>
          simp only [Config.callOp, hnone, hcaller', callOwner_restack hcaller] at h ⊢
          rw [Except.mapError_eq_ok.mp h]
          rfl
  | scope op =>
      have hcaller' : (restack stack c).caller = c.caller := hcaller
      cases hsome : c.caller with
      | none => simp [Config.callOp, hsome] at h
      | some handle =>
          simp only [Config.callOp, hsome, hcaller', callScope_restack hcaller] at h ⊢
          rw [Except.mapError_eq_ok.mp h]
          rfl
  | iface op =>
      simp only [Config.callOp] at h ⊢
      refine Except.mapError_eq_ok.mpr ?_
      replace h := Except.mapError_eq_ok.mp h
      cases op with
      | insertExact event growth =>
          obtain ⟨_, _, h⟩ := Except.bind_eq_ok.mp h
          cases h
          simp at hstack
      | runOne | run | runUntilEmpty =>
          cases h
          simp at hstack
      | runUntilComplete handle =>
          simp only [Config.callIface] at h
          split at h
          · cases h
            exact (if_pos ‹_›).trans (congrArg Except.ok (same _ _ _))
          · refine (if_neg ‹_›).trans ?_
            obtain ⟨holder, hindex, h⟩ := Except.bind_eq_ok.mp h
            refine Except.bind_eq_ok.mpr ⟨holder, hindex, ?_⟩
            split at h
            · cases h
              exact (if_pos ‹_›).trans (congrArg Except.ok (same _ _ _))
            · cases h
              simp at hstack
      | eventCount =>
          obtain ⟨count, hlen, h⟩ := Except.bind_eq_ok.mp h
          cases h
          exact Except.bind_eq_ok.mpr ⟨count, hlen, congrArg Except.ok (same _ _ _)⟩
      | sendImpl handle data tp =>
          obtain ⟨sent, hsent, h⟩ := Except.bind_eq_ok.mp h
          have hsent' : (restack stack c).loop.sendImplSender (restack stack c).caller handle data
              tp = .ok sent := by rwa [show (restack stack c).caller = c.caller from hcaller]
          refine Except.bind_eq_ok.mpr ⟨sent, hsent', ?_⟩
          cases sent <;> cases h <;> exact congrArg Except.ok (same _ _ _)
      | postImpl handle data tp =>
          obtain ⟨checked, hcheck, h⟩ := Except.bind_eq_ok.mp h
          refine Except.bind_eq_ok.mpr ⟨checked, hcheck, ?_⟩
          cases checked with
          | error err =>
              cases h
              exact congrArg Except.ok (same _ _ _)
          | ok =>
              cases h
              simp at hstack
      | _ =>
          cases h
          exact congrArg Except.ok (same _ _ _)

end Restack

theorem callScope_answers {c c' : Config Ev} {handle : Handle} {op : ScopeOp}
    (h : c.callScope handle op = .ok c') : c'.stack = c.stack ∧ c'.ctl = c.ctl ∧
      ∃ answer, c'.log = .answered c.caller (.scope op) answer :: c.log := by
  cases op with
  | timeoutAt | timeoutAfter | signal | expectMessage | ioUpdate | ioRemove | child
  | ioRegisterAny =>
      obtain ⟨_, _, h⟩ := Except.bind_eq_ok.mp h
      cases h
      exact ⟨rfl, rfl, _, rfl⟩
  | ioMut =>
      obtain ⟨lent, _, h⟩ := Except.bind_eq_ok.mp h
      cases lent <;> (cases h; exact ⟨rfl, rfl, _, rfl⟩)
  | _ =>
      cases h
      exact ⟨rfl, rfl, _, rfl⟩

/-- An operation answers at once or begins with a frame of its own. -/
theorem callOp_cases {c' : Config Ev} (h : (s.config stack .user).callOp op = .ok c') :
    (c'.stack = stack ∧ c'.ctl = .user ∧
      ∃ answer, c'.log = .answered (callerOf stack) op answer :: s.log) ∨
    ∃ frame, c'.stack = frame :: stack ∧
      Begins (callerOf stack) s op frame c'.ctl c'.state := by
  cases op with
  | owner op =>
      cases hnone : (s.config stack .user).caller with
      | some handle => simp [Config.callOp, hnone] at h
      | none =>
          simp only [Config.callOp, hnone] at h
          replace h := Except.mapError_eq_ok.mp h
          cases op with
          | poolThreadCountSet | signalEnable =>
              obtain ⟨_, _, h⟩ := Except.bind_eq_ok.mp h
              cases h
              exact .inl ⟨rfl, rfl, _, rfl⟩
  | scope op =>
      cases hsome : (s.config stack .user).caller with
      | none => simp [Config.callOp, hsome] at h
      | some handle =>
          simp only [Config.callOp, hsome] at h
          obtain ⟨hstack, hctl, hlog⟩ := callScope_answers (Except.mapError_eq_ok.mp h)
          exact .inl ⟨hstack, hctl, hlog⟩
  | iface op =>
      replace h := Except.mapError_eq_ok.mp h
      cases op with
      | insertExact event growth =>
          obtain ⟨⟨handle, l⟩, hstore, h⟩ := Except.bind_eq_ok.mp h
          cases h
          exact .inr ⟨_, rfl, .insertExact hstore⟩
      | runOne =>
          cases h
          exact .inr ⟨_, rfl, .runOne⟩
      | run =>
          cases h
          exact .inr ⟨_, rfl, .run⟩
      | runUntilEmpty =>
          cases h
          exact .inr ⟨_, rfl, .runUntilEmpty⟩
      | runUntilComplete handle =>
          simp only [Config.callIface] at h
          split at h
          · cases h
            exact .inl ⟨rfl, rfl, _, rfl⟩
          · rename_i halive
            obtain ⟨holder, hindex, h⟩ := Except.bind_eq_ok.mp h
            split at h
            · cases h
              exact .inl ⟨rfl, rfl, _, rfl⟩
            · rename_i hfree
              cases h
              exact .inr ⟨_, rfl, .runUntilComplete (Bool.not_eq_false _ ▸ halive)
                (Except.mapError_eq_ok.mp hindex) (Bool.not_eq_true _ ▸ hfree)⟩
      | eventCount =>
          obtain ⟨_, _, h⟩ := Except.bind_eq_ok.mp h
          cases h
          exact .inl ⟨rfl, rfl, _, rfl⟩
      | sendImpl handle data tp =>
          obtain ⟨sent, _, h⟩ := Except.bind_eq_ok.mp h
          cases sent <;> cases h <;> exact .inl ⟨rfl, rfl, _, rfl⟩
      | postImpl handle data tp =>
          obtain ⟨checked, hcheck, h⟩ := Except.bind_eq_ok.mp h
          cases checked with
          | error err =>
              cases h
              exact .inl ⟨rfl, rfl, _, rfl⟩
          | ok =>
              cases h
              exact .inr ⟨_, rfl, .postImpl hcheck⟩
      | _ =>
          cases h
          exact .inl ⟨rfl, rfl, _, rfl⟩

/-! ## A derivation is a run -/

namespace Path

variable {s₃ : State Ev} {ctl₁ ctl₂ ctl₃ : Ctl}

theorem trans (h : Path stack s₁ ctl₁ s₂ ctl₂) (h' : Path stack s₂ ctl₂ s₃ ctl₃) :
    Path stack s₁ ctl₁ s₃ ctl₃ := Reach.trans h h'

theorem of_step {a : Action Ev} (ha : a.isFinish = false)
    (h : (s₁.config stack ctl₁).step a = .ok (s₂.config stack ctl₂)) :
    Path stack s₁ ctl₁ s₂ ctl₂ := Reach.next .start ⟨le_rfl, fun _ => Action.not_finish ha⟩ h

/-- A frame is put on the stack, and in the end it is taken off again. -/
theorem nest {a b : Action Ev} {s₄ : State Ev} {ctl₄ : Ctl}
    (ha : a.isFinish = false)
    (hpush : (s₁.config stack ctl₁).step a = .ok (s₂.config (frame :: stack) ctl₂))
    (h : Path (frame :: stack) s₂ ctl₂ s₃ ctl₃)
    (hpop : (s₃.config (frame :: stack) ctl₃).step b = .ok (s₄.config stack ctl₄)) :
    Path stack s₁ ctl₁ s₄ ctl₄ := by
  have hdeep : stack.length < (frame :: stack).length := Nat.lt_succ_self _
  have hin := Reach.mono (fun _ _ hstays => Stays.mono hdeep.le hstays) h
  refine Reach.next ((Reach.next .start ⟨le_rfl, fun _ => Action.not_finish ha⟩ hpush).trans hin)
    ?_ hpop
  exact ⟨hdeep.le, fun heq => absurd heq hdeep.ne'⟩

theorem beside (h : Beside s₁ s₂) (ctl : Ctl) : Path stack s₁ ctl s₂ ctl := by
  rcases h with ⟨a, l, hout, rfl⟩
  exact of_step (by cases hout <;> rfl) (outside_step (c := s₁.config stack ctl) hout)

theorem besides (h : Relation.ReflTransGen Beside s₁ s₂) (ctl : Ctl) :
    Path stack s₁ ctl s₂ ctl := by
  induction h with
  | refl => exact Reach.start
  | tail _ hlast ih => exact ih.trans (beside hlast ctl)

end Path

theorem Seek.path (h : Seek s s₁) (stack : List Frame) : Path stack s .runOne s₁ .runOne := by
  induction h with
  | start => exact Reach.start
  | beside _ hbeside ih => exact ih.trans (.beside hbeside _)
  | @gathered _ env _ _ hsched hgather ih =>
      refine ih.trans (.of_step (a := .gather env) rfl ?_)
      simp only [Config.step, State.config, hsched, hgather, Except.ok_bind, Except.pure_eq_ok,
        Except.mapError_ok]
  | dropped _ hsched hdead ih =>
      refine ih.trans (.of_step (a := .tick) rfl ?_)
      simp only [Config.step, Config.tick, State.config, hsched, Config.popTask, hdead,
        Bool.false_eq_true, ↓reduceIte, Except.mapError_ok]

/-- The machine performs the activity, on every stack that it fits on. -/
def Realizes : Activity Ev → State Ev → State Ev → Prop
  | .code caller, s, s' => ∀ stack, callerOf stack = caller → Path stack s .user s' .user
  | .operation caller _ _, s, s' =>
      ∀ stack, callerOf stack = caller → Path stack s .user s' .user
  | .eventCall handle cb result, s, s' => ∀ stack, Path stack s (.call handle cb) s' (.ret result)
  | .callback handle cb resp, s, s' =>
      ∀ stack, Path stack s (.call handle cb) s' (.settle handle resp)
  | .runOne result, s, s' => ∀ stack, Path stack s .runOne s' (.ret result)
  | .turns frame, s, s' => ∀ rest, Path (frame :: rest) s .runOne s' .runOne
  | .rounds frame result, s, s' =>
      (∀ rest, Path (frame :: rest) s .runOne s' (.ret result)) ∧
        (result = .ok () → frame.goesOn s'.loop = false)

theorem resume_again {rest : List Frame} (hgoes : frame.goesOn s.loop = true) :
    (s.config (frame :: rest) (.ret (.ok ()))).step .tick =
      .ok (s.config (frame :: rest) .runOne) := by
  cases frame <;>
    simp_all [Frame.goesOn, Config.step, Config.tick, Config.resume, State.config]

/-- The operation of a frame returns, once its loop has ended. -/
theorem resume_returns {result : Except Error Unit} (hframe : frame.callee = none)
    (hends : result = .ok () → frame.goesOn s.loop = false) :
    (s.config (frame :: stack) (.ret result)).step .tick =
      .ok ((s.returned frame (reply result frame)).config stack .user) := by
  rcases result with err | ⟨⟩
  · cases frame with
    | callback => cases hframe
    | runUntilEmpty => cases err <;> rfl
    | _ => rfl
  · cases frame with
    | callback => cases hframe
    | run | runUntilEmpty | runUntilComplete =>
        have hends := hends rfl
        simp only [Frame.goesOn] at hends
        simp [Config.step, Config.tick, Config.resume, State.config, hends]
        rfl
    | _ => rfl

/-- An operation with a frame of its own, performed by the machine. -/
theorem Begins.path {result : Except Error Unit} (hb : Begins (callerOf stack) s op frame ctl s₁)
    (hrun : Path (frame :: stack) s₁ ctl s₂ (.ret result))
    (hends : result = .ok () → frame.goesOn s₂.loop = false) :
    Path stack s .user (s₂.returned frame (reply result frame)) .user := by
  have hframe : frame.callee = none := by cases hb <;> rfl
  exact .nest (a := .call op) (b := .tick) rfl hb.callOp hrun (resume_returns hframe hends)

theorem Does.realizes {act : Activity Ev} (h : Does act s s₁) : Realizes act s s₁ := by
  induction h with
  | @beside act s s₁ s₂ hact _ hbeside ih =>
      cases act with
      | code caller => exact fun stack hcaller => (ih stack hcaller).trans (.beside hbeside _)
      | eventCall | callback | runOne => exact fun stack => (ih stack).trans (.beside hbeside _)
      | _ => exact hact.elim
  | start => exact fun _ _ => Reach.start
  | operation _ _ ih ihop =>
      exact fun stack hcaller => (ih stack hcaller).trans (ihop stack hcaller)
  | @immediate caller op answer s s' hlog h =>
      exact fun stack hcaller => .of_step (a := .call op) rfl (h stack hcaller)
  | insertExact hstore _ ih =>
      exact fun stack _ => (Begins.insertExact hstore).path (ih _) fun _ => rfl
  | postImpl hcheck _ ih =>
      rintro stack rfl
      exact (Begins.postImpl hcheck).path (ih _) fun _ => rfl
  | runOne _ ih => exact fun stack _ => Begins.runOne.path (ih _) fun _ => rfl
  | run _ ih => exact fun stack _ => Begins.run.path (ih.1 _) ih.2
  | runUntilEmpty _ ih => exact fun stack _ => Begins.runUntilEmpty.path (ih.1 _) ih.2
  | runUntilComplete halive hindex hfree _ ih =>
      exact fun stack _ => (Begins.runUntilComplete halive hindex hfree).path (ih.1 _) ih.2
  | refused hbeside henter =>
      refine fun stack => (Path.besides hbeside _).trans (.of_step (a := .tick) rfl ?_)
      simp only [Config.step, Config.tick, Config.enter, State.config, henter, Except.ok_bind,
        Except.pure_eq_ok, Except.mapError_ok]
  | @called handle cb data event event' l l' resp s s₁ s₂ hbeside henter _ hleave ih =>
      refine fun stack => (Path.besides hbeside _).trans ?_
      have hinside := ih (.callback handle cb data :: stack) rfl
      refine .nest (a := .tick) (b := .finish event' resp) rfl ?_ hinside ?_
      · simp only [Config.step, Config.tick, Config.enter, State.config, henter, Except.ok_bind,
          Except.pure_eq_ok, Except.mapError_ok]
      · simp only [Config.step, State.config, hleave, Except.ok_bind, Except.pure_eq_ok,
          Except.mapError_ok]
  | kept _ ih => exact fun stack => (ih stack).trans (.of_step (a := .settle true (.ok ())) rfl rfl)
  | @killed handle cb deregisters event l s s₁ _ hkill ih =>
      refine fun stack => (ih stack).trans (.of_step (a := .settle deregisters (.ok ())) rfl ?_)
      simp only [Config.step, Config.settle, State.config, hkill, Except.ok_bind,
        Except.pure_eq_ok, Except.mapError_ok]
  | @failed handle cb err handler deregisters event l s s₁ _ hkill ih =>
      refine fun stack => (ih stack).trans (.of_step (a := .settle deregisters handler) rfl ?_)
      simp only [Config.step, Config.settle, State.config, hkill, Except.ok_bind,
        Except.pure_eq_ok, Except.mapError_ok]
  | @gatherFailed err env l s s₁ hseek hsched hgather =>
      refine fun stack => (hseek.path stack).trans (.of_step (a := .gather env) rfl ?_)
      simp only [Config.step, State.config, hsched, hgather, Except.ok_bind, Except.pure_eq_ok,
        Except.mapError_ok]
  | lost hseek hsched halive htask =>
      refine fun stack => (hseek.path stack).trans (.of_step (a := .tick) rfl ?_)
      simp only [Config.step, Config.tick, State.config, hsched, Config.popTask, halive, htask,
        ↓reduceIte, Except.ok_bind, Except.pure_eq_ok, Except.mapError_ok]
  | fired hseek hsched halive htask _ ih =>
      refine fun stack => ((hseek.path stack).trans (.of_step (a := .tick) rfl ?_)).trans
        (ih stack)
      simp only [Config.step, Config.tick, State.config, hsched, Config.popTask, halive, htask,
        ↓reduceIte, Except.ok_bind, Except.pure_eq_ok, Except.mapError_ok]
  | firstTurn => exact fun _ => Reach.start
  | turn _ _ hgoes ih ihrun =>
      exact fun rest => ((ih rest).trans (ihrun _)).trans
        (.of_step (a := .tick) rfl (resume_again hgoes))
  | roundsDone _ _ hends ih ihrun => exact ⟨fun rest => (ih rest).trans (ihrun _), fun _ => hends⟩
  | roundsFailed _ _ ih ihrun =>
      exact ⟨fun rest => (ih rest).trans (ihrun _), fun hok => by cases hok⟩

/-! ## What an operation comes to -/

/-- The operation of a frame that calls one event. -/
theorem Begins.operation_call {caller : Option Handle} {handle : Handle} {cb : Callback}
    {result : Except Error Unit} (hb : Begins caller s op frame (.call handle cb) s₁)
    (hcall : Does (.eventCall handle cb result) s₁ s₂) :
    Does (.operation caller op (reply result frame)) s
      (s₂.returned frame (reply result frame)) := by
  cases hb with
  | insertExact hstore => exact .insertExact hstore hcall
  | postImpl hcheck => exact .postImpl hcheck hcall

/-- The operation of a frame that calls `run_one`, perhaps in a loop. -/
theorem Begins.operation_run {caller : Option Handle} {result : Except Error Unit}
    {s₃ : State Ev} (hb : Begins caller s op frame .runOne s₁) (hturns : Does (.turns frame) s₁ s₂)
    (hrun : Does (.runOne result) s₂ s₃) (hends : result = .ok () → frame.goesOn s₃.loop = false) :
    Does (.operation caller op (reply result frame)) s
      (s₃.returned frame (reply result frame)) := by
  have hrounds : Does (.rounds frame result) s₁ s₃ := by
    cases result with
    | error err => exact .roundsFailed hturns hrun
    | ok => exact .roundsDone hturns hrun (hends rfl)
  cases hb with
  | runOne =>
      cases hturns with
      | firstTurn => exact .runOne hrun
      | turn _ _ hgoes => cases hgoes
      | beside hact => exact hact.elim
  | run => exact .run hrounds
  | runUntilEmpty => exact .runUntilEmpty hrounds
  | runUntilComplete halive hindex hfree => exact .runUntilComplete halive hindex hfree hrounds

end Direct

end Eveboros
