import Eveboros.Adapt.Event
import Eveboros.Machine.Visited

/-!
# Loops of adapted events

The machine passes control to user code and back.  Here the way leads through the adapters: the
loop calls the event it holds, the user's code gets what arrives there, and what that code calls
is a method of the scope it was given.  A method that waits for callbacks goes on when the loop
returns to it.
-/

namespace Eveboros

open TransitionSystem

variable {Ctx E W : Type}

/-- A callback of the user that has not returned. -/
structure Activation (Ctx W : Type) where
  event : W
  scope : ScopeObjSafe Ctx W
  /-- The method that the callback waits for, and what is left of it. -/
  waiting : Option (Method Ctx W × (Answer → MethodScript Ctx W))

/-- What the user's code gets to see. -/
inductive Seen (Ctx E : Type)
  | called (handle : Handle) (cb : Callback) (event : E)
  | finished (caller : Option Handle) (event : E) (resp : Response)
  | answered (caller : Option Handle) (method : Method Ctx E) (answer : Answer)

structure Host (Ctx E W : Type) where
  conf : Config W
  ctx : Ctx
  /-- The callbacks on the stack, innermost first. -/
  acts : List (Activation Ctx W)
  /-- Ghost: what the user's code has seen, newest first. -/
  seen : List (Seen Ctx E)

inductive Deed (Ctx E W : Type)
  /-- The innermost callback calls a method of its scope. -/
  | call (method : Method Ctx W)
  /-- It returns, and leaves the event of the user with this value. -/
  | finish (event : E) (resp : Response)
  /-- Everything else: the owner of the loop, the loop itself and its environment. -/
  | other (a : Action W)

namespace Config

/-- The answer of an operation that has just returned to user code. -/
def answered (c : Config W) : Option Answer :=
  match c.ctl, c.log with
  | .user, .answered _ _ ans :: _ => some ans
  | .user, .returned _ ans :: _ => some ans
  | _, _ => none

/-- The callback that has just started, on the event as the loop holds it. -/
def entered (c : Config W) : Option (Handle × Callback × W) :=
  match c.ctl, c.log with
  | .user, .called handle cb event :: _ => some (handle, cb, event)
  | _, _ => none

end Config

/-- The loop and the context serve the requests of a scope; a sum may overflow. -/
def serve (s : Config W × Ctx) : Request Ctx W → Except Fault ((Config W × Ctx) × Option Answer)
  | .loop op =>
      match s.1.step (.call op) with
      | .ok c => .ok ((c, s.2), c.answered)
      | .error e => .error e
  | .context f => .ok ((s.1, f s.2), some (.ok .unit))
  | .add now after =>
      if now + after < INSTANT_END then .ok (s, some (.ok (.nat (now + after))))
      else .error (.panic .instantOverflow)

namespace Host

def init (now : Nat) (ctx : Ctx) : Host Ctx E W := ⟨.init now, ctx, [], []⟩

/-- Serve what is left of a method that the innermost callback has called. -/
def proceed (kind : EventKind Ctx E W) (h : Host Ctx E W) (act : Activation Ctx W)
    (rest : List (Activation Ctx W)) (method : Method Ctx W) (script : MethodScript Ctx W) :
    Except Fault (Host Ctx E W) :=
  match script.play serve (h.conf, h.ctx) with
  | .error e => .error e
  | .ok ((c, ctx), .done ans) => .ok ⟨c, ctx, { act with waiting := none } :: rest,
      .answered c.caller (method.map kind.inner) ans :: h.seen⟩
  | .ok ((c, ctx), .waiting next) =>
      .ok { h with
        conf := c, ctx := ctx, acts := { act with waiting := some (method, next) } :: rest }

/-- After the loop has gone on by itself: it may have called an event, or returned to a method that
waits for it. -/
def arrive (kind : EventKind Ctx E W) (h : Host Ctx E W) : Except Fault (Host Ctx E W) :=
  match h.conf.entered with
  | some (handle, cb, event) =>
      let entry := cb.invoke (kind.methods event) loopScope
      .ok { h with
        acts := ⟨event, entry.scope, none⟩ :: h.acts
        seen := .called handle entry.cb (kind.inner event) :: h.seen }
  | none =>
      match h.conf.answered, h.acts with
      | some ans, act :: rest =>
          match act.waiting with
          | some (method, next) => h.proceed kind act rest method (next ans)
          | none => .error .disabled
      | _, _ => .ok h

def callMethod (kind : EventKind Ctx E W) (h : Host Ctx E W) (method : Method Ctx W) :
    Except Fault (Host Ctx E W) :=
  match h.acts with
  | act :: rest =>
      match h.conf.ctl, act.waiting with
      | .user, none => h.proceed kind act rest method (act.scope.call method)
      | _, _ => .error .disabled
  | [] => .error .disabled

/-- The innermost callback returns; the adapters around the event stay what they are. -/
def finish (kind : EventKind Ctx E W) (h : Host Ctx E W) (event : E) (resp : Response) :
    Except Fault (Host Ctx E W) :=
  match h.acts with
  | act :: rest =>
      match h.conf.step (.finish (kind.put act.event event) resp) with
      | .ok c => .ok { h with
          conf := c, acts := rest, seen := .finished h.conf.caller event resp :: h.seen }
      | .error e => .error e
  | [] => .error .disabled

/-- A step that calls no event and returns to none. -/
def pass (h : Host Ctx E W) (a : Action W) : Except Fault (Host Ctx E W) :=
  match h.conf.step a with
  | .ok c => .ok { h with conf := c }
  | .error e => .error e

def other (kind : EventKind Ctx E W) (h : Host Ctx E W) (a : Action W) :
    Except Fault (Host Ctx E W) :=
  match a with
  | .tick =>
      match h.pass .tick with
      | .ok h' => h'.arrive kind
      | .error e => .error e
  | .call op =>
      -- Operations that do not go through a scope are those of the owner.
      match h.acts with
      | [] => h.pass (.call op)
      | _ :: _ => .error .disabled
  | .finish _ _ => .error .disabled
  | a => h.pass a

def step (kind : EventKind Ctx E W) (h : Host Ctx E W) : Deed Ctx E W → Except Fault (Host Ctx E W)
  | .call method => h.callMethod kind method
  | .finish event resp => h.finish kind event resp
  | .other a => h.other kind a

end Host

/-! ## Hosted loops are loops -/

section Machine

variable {kind : EventKind Ctx E W} {h h' : Host Ctx E W}

theorem serve_reachable {s s' : Config W × Ctx} {question : Request Ctx W} {ans : Option Answer}
    (hr : s.1.Reachable) (hs : serve s question = .ok (s', ans)) : s'.1.Reachable := by
  cases question with
  | context f =>
      cases hs
      exact hr
  | loop op =>
      simp only [serve] at hs
      split at hs
      · cases hs
        exact hr.step ‹_›
      · cases hs
  | add now after =>
      simp only [serve] at hs
      split at hs
      · cases hs
        exact hr
      · cases hs

namespace Host

theorem proceed_reachable {act : Activation Ctx W} {rest : List (Activation Ctx W)}
    {method : Method Ctx W} {script : MethodScript Ctx W} (hr : h.conf.Reachable)
    (hp : h.proceed kind act rest method script = .ok h') : h'.conf.Reachable := by
  have hplay {out : Config W × Ctx} {paused : Script.Paused (Request Ctx W) Answer Answer}
      (hout : script.play serve (h.conf, h.ctx) = .ok (out, paused)) : out.1.Reachable :=
    Script.play_keeps (Q := fun s => s.1.Reachable) serve_reachable hr hout
  unfold proceed at hp
  split at hp
  · cases hp
  · cases hp
    exact hplay ‹_›
  · cases hp
    exact hplay ‹_›

theorem arrive_reachable (hr : h.conf.Reachable) (ha : h.arrive kind = .ok h') :
    h'.conf.Reachable := by
  unfold arrive at ha
  split at ha
  · cases ha
    exact hr
  · split at ha
    · split at ha
      · exact proceed_reachable hr ha
      · cases ha
    · cases ha
      exact hr

theorem pass_reachable {a : Action W} (hr : h.conf.Reachable) (hp : h.pass a = .ok h') :
    h'.conf.Reachable := by
  unfold pass at hp
  split at hp
  · cases hp
    exact hr.step ‹_›
  · cases hp

theorem step_reachable {d : Deed Ctx E W} (hr : h.conf.Reachable)
    (hs : h.step kind d = .ok h') : h'.conf.Reachable := by
  cases d with
  | call method =>
      simp only [step, callMethod] at hs
      split at hs
      · split at hs
        · exact proceed_reachable hr hs
        · cases hs
      · cases hs
  | finish event resp =>
      simp only [step, finish] at hs
      split at hs
      · split at hs
        · cases hs
          exact hr.step ‹_›
        · cases hs
      · cases hs
  | other a =>
      simp only [step, other] at hs
      split at hs
      · split at hs
        · exact arrive_reachable (pass_reachable hr ‹_›) hs
        · cases hs
      · split at hs
        · exact pass_reachable hr hs
        · cases hs
      · cases hs
      · exact pass_reachable hr hs

/-- Whatever the adapters make of the events, the loop inside a host is in a state that the loop
reaches. -/
theorem reachable_conf {now : Nat} {ctx : Ctx}
    (hreach : Reach (step kind) (fun _ _ => True) (.init now ctx) h) : h.conf.Reachable :=
  hreach.invariant ⟨now, .start⟩ fun _ _ _ hr _ hs => step_reachable hr hs

end Host

/-! ## Provided methods and operations -/

variable {c c' : Config W}

theorem answered_answer (hctl : c.ctl = .user) (l : Loop W) (op : Op W) (ans : Answer) :
    (c.answer l op ans).answered = some ans := by
  simp [Config.answered, Config.answer, hctl]

/-- The provided `timeout_after` does to the loop what the operation of this name does. -/
theorem play_timeoutAfter {after : Nat} {ctx : Ctx}
    (hc : c.step (.call (.scope (.timeoutAfter after))) = .ok c') :
    ∃ c₁ ans, (loopScope.timeoutAfter after).play serve (c, ctx) = .ok ((c₁, ctx), .done ans) ∧
      c'.answered = some ans ∧ c₁.loop = c'.loop ∧ c₁.stack = c'.stack := by
  have hctl : c.ctl = .user := by
    cases hctl : c.ctl <;> simp_all [Config.step]
  obtain ⟨handle, hcaller⟩ : ∃ handle, c.caller = some handle := by
    cases hcaller : c.caller <;> simp_all [Config.step, Config.callOp]
  simp only [Config.step, hctl, Config.callOp, hcaller, Except.mapError_eq_ok, Config.callScope]
    at hc
  obtain ⟨⟨id, l⟩, hset, hc⟩ := Except.bind_eq_ok.mp hc
  cases hc
  obtain ⟨hpast, hset⟩ : c.loop.now + after < INSTANT_END ∧
      c.loop.timeoutAt handle (c.loop.now + after) = .ok (id, l) := by
    unfold Loop.timeoutAfter at hset
    split at hset
    · exact ⟨‹_›, hset⟩
    · cases hset
  -- The script asks for the time first; that leaves the loop as it is.
  let asked := c.answer c.loop (.iface .now) (.ok (.nat c.loop.now))
  have hnow : c.step (.call (.iface .now)) = .ok asked := by
    simp only [Config.step, hctl, Config.callOp, Config.callIface]
    rfl
  let set := asked.answer l (.scope (.timeoutAt (c.loop.now + after))) (.ok (.timeoutId id))
  have hat : asked.step (.call (.scope (.timeoutAt (c.loop.now + after)))) = .ok set := by
    have hcaller' : asked.caller = some handle := hcaller
    have hset' : asked.loop.timeoutAt handle (c.loop.now + after) = .ok (id, l) := hset
    simp only [Config.step, show asked.ctl = .user from hctl, Config.callOp, hcaller',
      Config.callScope, hset']
    rfl
  have hasked : asked.answered = some (.ok (.nat c.loop.now)) := answered_answer hctl _ _ _
  have hanswered : set.answered = some (.ok (.timeoutId id)) :=
    answered_answer (c := asked) hctl _ _ _
  refine ⟨set, .ok (.timeoutId id), ?_, answered_answer hctl _ _ _, rfl, rfl⟩
  simp only [ScopeObjSafe.timeoutAfter, loopScope, Script.request, Script.bind, Script.play, serve,
    hnow, hasked, hpast, ↓reduceIte, hat, hanswered]

/-- The operation `run_until_empty` goes on when `run` does; where that returns, it returns what
the provided method makes of the answer. -/
theorem resume_runUntilEmpty (c : Config W) (rest : List Frame) (result : Except Error Unit) :
    ∃ next, (loopScope : ScopeObjSafe Ctx W).runUntilEmpty = .ask (.loop (.iface .run)) next ∧
      ((({ c with stack := .run :: rest }).resume result =
            .ok { c with stack := .run :: rest, ctl := .runOne } ∧
          ({ c with stack := .runUntilEmpty :: rest }).resume result =
            .ok { c with stack := .runUntilEmpty :: rest, ctl := .runOne }) ∨
        ∃ ans ans', ({ c with stack := .run :: rest }).resume result =
            .ok (c.giveBack .run rest ans) ∧
          ({ c with stack := .runUntilEmpty :: rest }).resume result =
            .ok (c.giveBack .runUntilEmpty rest ans') ∧ next ans = .done ans') := by
  refine ⟨_, rfl, ?_⟩
  cases result with
  | error err =>
      refine .inr ?_
      cases err <;> exact ⟨_, _, rfl, rfl, rfl⟩
  | ok u =>
      cases hactive : c.loop.active with
      | true => exact .inl (by simp [Config.resume, hactive])
      | false =>
          exact .inr ⟨.ok .unit, .ok .unit, by simp [Config.resume, hactive, Config.giveBack],
            by simp [Config.resume, hactive, Config.giveBack], rfl⟩

end Machine

end Eveboros
