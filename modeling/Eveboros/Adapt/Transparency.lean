import Eveboros.Adapt.Host

/-!
# Adapters are transparent

A loop of adapted events goes the way of the loop with the user's events themselves in it.  The
simulation takes the adapters off everything that the loop holds; it is exact in every step.
-/

namespace Eveboros

open TransitionSystem

variable {Ctx E W : Type} {kind : EventKind Ctx E W}

/-! ## Taking the adapters off -/

def Activation.unwrapped (kind : EventKind Ctx E W) (act : Activation Ctx W) :
    Activation Ctx E where
  event := kind.inner act.event
  scope := loopScope
  waiting := act.waiting.map fun (method, next) =>
    (method.map kind.inner, fun ans => (next ans).relabel (Request.map kind.inner))

def Host.unwrapped (kind : EventKind Ctx E W) (h : Host Ctx E W) : Host Ctx E E where
  conf := h.conf.map kind.inner
  ctx := h.ctx
  acts := h.acts.map (Activation.unwrapped kind)
  seen := h.seen

/-- The same deed in the other loop: what is inserted there is the event inside. -/
def Deed.unwrapped (kind : EventKind Ctx E W) : Deed Ctx E W → Deed Ctx E E
  | .call method => .call (method.map kind.inner)
  | .finish event resp => .finish event resp
  | .other a => .other (a.map kind.inner)

theorem Method.map_plain (method : Method Ctx E) :
    method.map (plain : EventKind Ctx E E).inner = method := by
  cases method with
  | iface op => cases op <;> rfl
  | _ => rfl

namespace Config

variable {c : Config W} {f : W → E}

theorem answered_map : (c.map f).answered = c.answered := by
  have hctl : (c.map f).ctl = c.ctl := rfl
  have hlog : (c.map f).log = c.log.map (Obs.map f) := rfl
  unfold answered
  rw [hctl, hlog]
  cases c.ctl with
  | user =>
      cases c.log with
      | nil => rfl
      | cons o log => cases o <;> rfl
  | _ => rfl

theorem entered_map : (c.map f).entered =
    c.entered.map fun (handle, cb, event) => (handle, cb, f event) := by
  have hctl : (c.map f).ctl = c.ctl := rfl
  have hlog : (c.map f).log = c.log.map (Obs.map f) := rfl
  unfold entered
  rw [hctl, hlog]
  cases c.ctl with
  | user =>
      cases c.log with
      | nil => rfl
      | cons o log => cases o <;> rfl
  | _ => rfl

end Config

theorem serve_map (f : W → E) (s : Config W × Ctx) (question : Request Ctx W) :
    serve (s.1.map f, s.2) (question.map f) =
      (serve s question).map fun out => ((out.1.1.map f, out.1.2), out.2) := by
  cases question with
  | context g => rfl
  | add now after =>
      simp only [Request.map, serve]
      split <;> rfl
  | loop op =>
      have hstep : (s.1.map f).step (.call (op.map f)) = (s.1.step (.call op)).map (Config.map f) :=
        Config.step_map (.call op)
      simp only [Request.map, serve, hstep]
      cases s.1.step (.call op) with
      | error e => rfl
      | ok c =>
          show Except.ok ((c.map f, s.2), (c.map f).answered) = _
          rw [Config.answered_map]
          rfl

/-! ## Every step is the same -/

namespace Host

variable {h : Host Ctx E W}

/-- The user's code holds the scopes that the loop has passed. -/
def Direct (h : Host Ctx E W) : Prop := ∀ act ∈ h.acts, act.scope = loopScope

theorem proceed_unwrapped (act : Activation Ctx W) (rest : List (Activation Ctx W))
    (method : Method Ctx W) (script : MethodScript Ctx W) :
    (h.unwrapped kind).proceed plain (act.unwrapped kind) (rest.map (Activation.unwrapped kind))
        (method.map kind.inner) (script.relabel (Request.map kind.inner)) =
      (h.proceed kind act rest method script).map (Host.unwrapped kind) := by
  have hplay : (script.relabel (Request.map kind.inner)).play serve
        ((h.unwrapped kind).conf, (h.unwrapped kind).ctx) =
      (script.play serve (h.conf, h.ctx)).map fun out =>
        ((out.1.1.map kind.inner, out.1.2), out.2.relabel (Request.map kind.inner)) :=
    Script.play_relabel (g := fun s : Config W × Ctx => (s.1.map kind.inner, s.2))
      (serve_map kind.inner) script (h.conf, h.ctx)
  unfold proceed
  rw [hplay]
  cases script.play serve (h.conf, h.ctx) with
  | error e => rfl
  | ok out =>
      rcases out with ⟨⟨c, ctx⟩, ans | next⟩
      · simp only [Except.map, Script.Paused.relabel, Method.map_plain]
        rfl
      · rfl

theorem arrive_unwrapped (htransparent : kind.Transparent) :
    (h.unwrapped kind).arrive plain = (h.arrive kind).map (Host.unwrapped kind) := by
  have hentered : (h.unwrapped kind).conf.entered =
      h.conf.entered.map fun (handle, cb, event) => (handle, cb, kind.inner event) :=
    Config.entered_map
  have hanswered : (h.unwrapped kind).conf.answered = h.conf.answered := Config.answered_map
  have hacts : (h.unwrapped kind).acts = h.acts.map (Activation.unwrapped kind) := rfl
  unfold arrive
  rw [hentered, hanswered, hacts]
  cases h.conf.entered with
  | some called =>
      obtain ⟨handle, cb, event⟩ := called
      simp only [Option.map_some, htransparent.invoke, plain_transparent.invoke]
      rfl
  | none =>
      cases h.conf.answered with
      | none => rfl
      | some ans =>
          cases h.acts with
          | nil => rfl
          | cons act rest =>
              obtain ⟨event, scope, waiting⟩ := act
              cases waiting with
              | none => rfl
              | some called =>
                  exact proceed_unwrapped ⟨event, scope, some called⟩ rest called.1 (called.2 ans)

theorem callMethod_unwrapped (hdirect : Direct h) (method : Method Ctx W) :
    (h.unwrapped kind).callMethod plain (method.map kind.inner) =
      (h.callMethod kind method).map (Host.unwrapped kind) := by
  have hacts : (h.unwrapped kind).acts = h.acts.map (Activation.unwrapped kind) := rfl
  have hctl : (h.unwrapped kind).conf.ctl = h.conf.ctl := rfl
  unfold callMethod
  rw [hacts, hctl]
  cases hh : h.acts with
  | nil => rfl
  | cons act rest =>
      obtain ⟨event, scope, waiting⟩ := act
      obtain rfl : scope = loopScope := hdirect ⟨event, scope, waiting⟩ (by simp [hh])
      cases waiting with
      | some called => cases h.conf.ctl <;> rfl
      | none =>
          cases h.conf.ctl with
          | user =>
              show (h.unwrapped kind).proceed plain _ _ _ (loopScope.call _) = _
              rw [loopScope_call_map]
              exact proceed_unwrapped ⟨event, loopScope, none⟩ rest method (loopScope.call method)
          | _ => rfl

theorem finish_unwrapped (htransparent : kind.Transparent) (event : E) (resp : Response) :
    (h.unwrapped kind).finish plain event resp =
      (h.finish kind event resp).map (Host.unwrapped kind) := by
  have hacts : (h.unwrapped kind).acts = h.acts.map (Activation.unwrapped kind) := rfl
  unfold finish
  rw [hacts]
  cases h.acts with
  | nil => rfl
  | cons act rest =>
      have hfinish : (h.unwrapped kind).conf.step (.finish event resp) =
          (h.conf.step (.finish (kind.put act.event event) resp)).map (Config.map kind.inner) := by
        rw [← Config.step_map, Action.map, htransparent.inner_put]
        rfl
      simp only [List.map_cons, plain, hfinish]
      cases h.conf.step (.finish (kind.put act.event event) resp) <;> rfl

theorem pass_unwrapped (a : Action W) :
    (h.unwrapped kind).pass (a.map kind.inner) = (h.pass a).map (Host.unwrapped kind) := by
  unfold pass
  rw [show (h.unwrapped kind).conf.step (a.map kind.inner) = _ from Config.step_map a]
  cases h.conf.step a <;> rfl

theorem other_unwrapped (htransparent : kind.Transparent) (a : Action W) :
    (h.unwrapped kind).other plain (a.map kind.inner) =
      (h.other kind a).map (Host.unwrapped kind) := by
  cases a with
  | tick =>
      simp only [other, Action.map]
      rw [show (h.unwrapped kind).pass .tick = _ from pass_unwrapped .tick]
      cases h.pass .tick with
      | error e => rfl
      | ok h' => exact arrive_unwrapped htransparent
  | call op =>
      have hacts : (h.unwrapped kind).acts = h.acts.map (Activation.unwrapped kind) := rfl
      simp only [other, Action.map, hacts]
      cases h.acts with
      | nil => exact pass_unwrapped (.call op)
      | cons act rest => rfl
  | finish event resp => rfl
  | settle deregisters handler => exact pass_unwrapped (.settle deregisters handler)
  | gather env => exact pass_unwrapped (.gather env)
  | dispatch signal => exact pass_unwrapped (.dispatch signal)
  | remote m => exact pass_unwrapped (.remote m)
  | reorderReleased order => exact pass_unwrapped (.reorderReleased order)
  | reorderTimeouts order => exact pass_unwrapped (.reorderTimeouts order)
  | reorderRecipients signum order => exact pass_unwrapped (.reorderRecipients signum order)

/-- A step of the unwrapped loop is the unwrapped step. -/
theorem step_unwrapped (htransparent : kind.Transparent) (hdirect : Direct h) (d : Deed Ctx E W) :
    (h.unwrapped kind).step plain (d.unwrapped kind) =
      (h.step kind d).map (Host.unwrapped kind) := by
  cases d with
  | call method => exact callMethod_unwrapped hdirect method
  | finish event resp => exact finish_unwrapped htransparent event resp
  | other a => exact other_unwrapped htransparent a

/-! ## Scopes are passed on -/

variable {h' : Host Ctx E W}

theorem direct_proceed {act : Activation Ctx W} {rest : List (Activation Ctx W)}
    {method : Method Ctx W} {script : MethodScript Ctx W} (hdirect : Direct h)
    (hacts : h.acts = act :: rest) (hp : h.proceed kind act rest method script = .ok h') :
    Direct h' := by
  have hall (waiting : Option (Method Ctx W × (Answer → MethodScript Ctx W))) :
      ∀ act' ∈ { act with waiting := waiting } :: rest, act'.scope = loopScope := by
    intro act' hmem
    rcases List.mem_cons.mp hmem with rfl | hmem
    · exact hdirect act (by simp [hacts])
    · exact hdirect act' (by simp [hacts, hmem])
  unfold proceed at hp
  split at hp
  · cases hp
  · cases hp
    exact hall none
  · cases hp
    exact hall (some _)

theorem direct_arrive (htransparent : kind.Transparent) (hdirect : Direct h)
    (ha : h.arrive kind = .ok h') : Direct h' := by
  unfold arrive at ha
  split at ha
  · cases ha
    intro act hmem
    rcases List.mem_cons.mp hmem with rfl | hmem
    · rw [htransparent.invoke]
    · exact hdirect act hmem
  · split at ha
    · split at ha
      · exact direct_proceed hdirect ‹_› ha
      · cases ha
    · cases ha
      exact hdirect

theorem pass_acts {a : Action W} (hp : h.pass a = .ok h') : h'.acts = h.acts := by
  unfold pass at hp
  split at hp
  · cases hp
    rfl
  · cases hp

theorem direct_step (htransparent : kind.Transparent) (hdirect : Direct h) {d : Deed Ctx E W}
    (hs : h.step kind d = .ok h') : Direct h' := by
  have hpass {a : Action W} {h₁ : Host Ctx E W} (hp : h.pass a = .ok h₁) : Direct h₁ := by
    intro act hmem
    rw [pass_acts hp] at hmem
    exact hdirect act hmem
  cases d with
  | call method =>
      simp only [step, callMethod] at hs
      split at hs
      · split at hs
        · exact direct_proceed hdirect ‹_› hs
        · cases hs
      · cases hs
  | finish event resp =>
      simp only [step, finish] at hs
      split at hs
      · split at hs
        · cases hs
          exact fun act hmem => hdirect act (by simp_all)
        · cases hs
      · cases hs
  | other a =>
      simp only [step, other] at hs
      split at hs
      · split at hs
        · exact direct_arrive htransparent (hpass ‹_›) hs
        · cases hs
      · split at hs
        · exact hpass hs
        · cases hs
      · cases hs
      · exact hpass hs

end Host

/-! ## Every run is the same -/

/-- The states of the two loops differ in the adapters only, and user code has seen the same. -/
structure SameButAdapters (h : Host Ctx E (Adapted E)) (h' : Host Ctx E E) : Prop where
  conf : h'.conf = h.conf.map Adapted.inner
  ctx : h'.ctx = h.ctx
  seen : h'.seen = h.seen

theorem run_unwrapped (htransparent : kind.Transparent) (now : Nat) (ctx : Ctx)
    (deeds : List (Deed Ctx E W)) :
    run (Host.step plain) (.init now ctx) (deeds.map (Deed.unwrapped kind)) =
      (run (Host.step kind) (.init now ctx) deeds).map (Host.unwrapped kind) := by
  refine run_relabel (I := Host.Direct) (f := Host.unwrapped kind)
    (fun _ _ _ hd hs => Host.direct_step htransparent hd hs)
    (fun _ d hd => Host.step_unwrapped htransparent hd d) deeds (.init now ctx) ?_
  exact fun act hmem => absurd hmem (List.not_mem_nil)

/-- Whatever the events do, and however adapters are nested around them: the loop of adapted events
calls the same callbacks with the same arguments and gets the same responses, the scopes give the
same answers, and the loop is in the same state, as if the events were in the loop themselves. -/
theorem adapters_transparent (now : Nat) (ctx : Ctx) (deeds : List (Deed Ctx E (Adapted E))) :
    (∀ h, run (Host.step adapted) (.init now ctx) deeds = .ok h →
      ∃ h', run (Host.step plain) (.init now ctx) (deeds.map (Deed.unwrapped adapted)) = .ok h' ∧
        SameButAdapters h h') ∧
    ∀ fault, run (Host.step adapted) (.init now ctx) deeds = .error fault →
      run (Host.step plain) (.init now ctx) (deeds.map (Deed.unwrapped adapted)) =
        .error fault := by
  have hsame := run_unwrapped adapted_transparent now ctx deeds
  refine ⟨fun h hrun => ⟨h.unwrapped adapted, ?_, rfl, rfl, rfl⟩, fun fault hrun => ?_⟩
  · rw [hsame, hrun]
    rfl
  · rw [hsame, hrun]
    rfl

/-- An event inside four adapters. -/
def nestedEvent : Adapted Nat :=
  .combined 2 (.selfDynEvent (.combined 0 (.anyDynEvent (.event 7))))

/-- It sets a timeout, and runs the loop until it is empty inside its idle callback. -/
def nestedRun : List (Deed Nat Nat (Adapted Nat)) :=
  [.other (.call (.iface (.insertExact nestedEvent ⟨3, true⟩))), .other .tick,
    .call (.scope (.timeoutAfter 5)), .call (.context (· + 1)), .call (.scope .idle),
    .finish 8 (.ok true), .other (.settle true (.ok ())), .other .tick,
    .other (.call (.iface .runOne)), .other (.gather ⟨0, .ok [], 0, []⟩), .other .tick,
    .other .tick, .call (.iface .runUntilEmpty), .other (.gather ⟨0, .ok [], 6, []⟩),
    .other .tick, .other .tick, .other .tick, .finish 9 (.ok false),
    .other (.settle true (.ok ())), .other .tick]

theorem adapters_transparent_nestedEvent :
    ∃ h h', run (Host.step adapted) (.init 0 0) nestedRun = .ok h ∧ h.seen.length = 8 ∧
      run (Host.step plain) (.init 0 0) (nestedRun.map (Deed.unwrapped adapted)) = .ok h' ∧
      SameButAdapters h h' := by
  obtain ⟨h, hrun, hseen⟩ : ∃ h, run (Host.step adapted) (.init 0 0) nestedRun = .ok h ∧
      h.seen.length = 8 := ⟨_, rfl, rfl⟩
  obtain ⟨h', hrun', hsame⟩ := (adapters_transparent 0 0 nestedRun).1 h hrun
  exact ⟨h, h', hrun, hseen, hrun', hsame⟩

end Eveboros
