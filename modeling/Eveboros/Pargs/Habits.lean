import Eveboros.Pargs
import Eveboros.Runs.Completion
import Eveboros.Runs.Exits
import Eveboros.Runs.Requests

/-!
# What the program never does

The program calls few operations.  So the loop under it takes few of the steps that a loop can
take, and most of them leave its events and the exits they wait for alone.
-/

namespace Eveboros

open Config Loop TransitionSystem

/-! ## What the program never does -/

def Op.Own {Ev : Type} : Op Ev → Prop
  | .iface (.insertExact _ _) => True
  | .iface .runUntilEmpty => True
  | .scope (.child _) => True
  | _ => False

def Action.Own {Ev : Type} (a : Action Ev) : Prop := ∀ op, a = .call op → op.Own

namespace Pargs

variable {c c' : Config Runner} {a : Action Runner} {handle : Handle} {cb : Callback}

/-- Nothing was asked for but the exits of children. -/
def OnlyChildren (log : List (Obs Runner)) : Prop :=
  ∀ caller op ans, .answered caller op ans ∈ log →
    ∃ pid, op = .scope (.child pid) ∧ ans = .ok .unit

theorem OnlyChildren.cons {log : List (Obs Runner)} (q : OnlyChildren log) {o : Obs Runner}
    (ho : ∀ caller op ans, o = .answered caller op ans →
      ∃ pid, op = .scope (.child pid) ∧ ans = .ok .unit) :
    OnlyChildren (o :: log) := by
  intro caller op ans hmem
  rcases List.mem_cons.mp hmem with heq | hold
  · exact ho caller op ans heq.symm
  · exact q caller op ans hold

/-- So nobody is called for anything else. -/
theorem asked_kind (q : OnlyChildren c.log) (h : c.Asked handle cb) :
    cb = .init ∨ ∃ pid exit, cb = .child pid exit := by
  obtain ⟨o, hmem, hasked⟩ := h
  have hother {caller : Option Handle} {op : Op Runner} {ans : Answer}
      (ho : o = .answered caller op ans) : ∃ pid, op = .scope (.child pid) ∧ ans = .ok .unit :=
    q caller op ans (ho ▸ hmem)
  cases cb with
  | init => exact .inl rfl
  | child pid exit => exact .inr ⟨pid, exit, rfl⟩
  | io id ready =>
      obtain ⟨growth, ho⟩ := hasked
      obtain ⟨_, ⟨⟩, _⟩ := hother ho
  | timeout id =>
      obtain ⟨op, ho⟩ := hasked
      obtain ⟨_, _, ⟨⟩⟩ := hother ho
  | signal sig =>
      obtain ⟨_, ⟨⟩, _⟩ := hother hasked
  | idle =>
      obtain ⟨_, ⟨⟩, _⟩ := hother hasked
  | message m =>
      simp only [Callback.AskedBy, Message.entitlement] at hasked
      split at hasked
      · obtain ⟨_, ⟨⟩, _⟩ := hother hasked
      · obtain ⟨_, ⟨⟩, _⟩ := hother hasked

/-! ## What a step leaves alone -/

/-- An error that comes from the operating system. -/
def LowLevel : Error → Prop
  | .io _ => True
  | .nix _ => True
  | _ => False

/-- No event dies, and the loop is not told to stop. -/
structure Alive (c c' : Config Runner) : Prop where
  reachable : c'.Reachable
  alive (handle : Handle) : c.loop.eventAlive handle = true → c'.loop.eventAlive handle = true
  active : c.loop.active = true → c'.loop.active = true

/-- The events wait for the same exits as before. -/
structure Steady (c c' : Config Runner) : Prop extends Alive c c' where
  awaited : c'.awaited = c.awaited

/-- A step outside of the program and the loop, or a gather. -/
structure Quiet (c c' : Config Runner) : Prop extends Steady c c' where
  stack : c'.stack = c.stack
  log : c'.log = c.log
  events : c.ctl ≠ .runOne → c'.loop.events = c.loop.events
  ctl : c'.ctl = c.ctl ∨ c.ctl = .runOne ∧ ∃ err, c'.ctl = .ret (.error err) ∧
    (err = .empty ∧ c'.loop.NoEvents ∨ LowLevel err)

/-- What neither user code does nor the loop by itself, apart from gathers. -/
def IsOther (a : Action Runner) : Prop :=
  match a with
  | .call _ | .finish _ _ | .settle _ _ | .tick => False
  | _ => True

theorem active_step (hs : c.step a = .ok c') (own : a.Own) (h : c.loop.active = true) :
    c'.loop.active = true := by
  by_cases hbegin : BeginsRun a
  · exact (step_begins hs hbegin).2
  · rw [step_active hs hbegin fun ha => own _ ha, h]

/-- Only calls of `child`, ticks and the end of an event change what the events wait for. -/
theorem awaited_same (hv : Visited Anything c) (e : Edit a c c')
    (hchild : ∀ pid, a ≠ .call (.scope (.child pid))) (htick : a ≠ .tick)
    (hsettle : ¬a.IsSettle) : c'.awaited = c.awaited := by
  cases e.awaits hv.discipline hv.registries with
  | same h => exact h
  | asked _ pid ha => exact absurd ha (hchild pid)
  | heard _ _ ha | dropped _ ha => exact absurd ha htick
  | died _ _ ha => exact absurd ha hsettle

theorem steady_edit (hr : c.Reachable) (hs : c.step a = .ok c') (e : Edit a c c') (own : a.Own)
    (hctl : ∀ handle resp, c.ctl ≠ .settle handle resp) (hawaited : c'.awaited = c.awaited) :
    Steady c c' where
  reachable := hr.step hs
  alive handle halive := e.eventAlive hr.visited.discipline halive (hctl handle)
  active := active_step hs own
  awaited := hawaited

theorem quiet_gather (hr : c.Reachable) {env : GatherEnv} (hs : c.step (.gather env) = .ok c') :
    Quiet c c' := by
  obtain ⟨hctl, hsched⟩ := gather_enabled (.ok c') hs
  have hend : c'.ctl = c.ctl ∨ ∃ err, c'.ctl = .ret (.error err) := by
    have hs' := hs
    simp only [Config.step, hctl, hsched] at hs'
    obtain ⟨⟨result, l⟩, _, hs'⟩ := Except.bind_eq_ok.mp hs'
    cases result with
    | ok _ =>
        cases hs'
        exact .inl hctl.symm
    | error err =>
        cases hs'
        exact .inr ⟨err, rfl⟩
  have hkeep (s s' : Config Runner) (q : Visited Anything s ∧ s.awaited = c.awaited)
      (_ : Anything s (.gather env)) (e : Edit (.gather env) s s') :
      Visited Anything s' ∧ s'.awaited = c.awaited :=
    ⟨.edit q.1 trivial e, (awaited_same q.1 e (by simp) (by simp) id).trans q.2⟩
  have hr' := hr.step hs
  refine ⟨⟨⟨hr', fun handle halive => ?_, fun hactive => ?_⟩, ?_⟩, ?_, ?_, ?_, ?_⟩
  · rw [← halive]
    exact gather_frame (fun c => c.loop.eventAlive handle)
      (fun _ _ e => e.eventAlive_of_gather handle) hs
  · rw [← hactive]
    exact step_active hs (by simp [BeginsRun]) (by simp)
  · have hedits := gather_edits hs
    exact (keep_edits gatherStable_anything hkeep ⟨hr.visited, rfl⟩ trivial hedits).1.2
  · exact gather_frame Config.stack (fun _ _ => Edit.stack_of_gather) hs
  · exact gather_frame Config.log (fun _ _ => Edit.log_of_gather) hs
  · exact fun hne => absurd hctl hne
  · refine hend.imp_right fun hret => ⟨hctl, ?_⟩
    obtain ⟨err, hret⟩ := hret
    refine ⟨err, hret, ?_⟩
    rcases gather_error hs hret with hempty | ⟨kind, rfl⟩ | ⟨e, rfl⟩
    · exact .inl hempty
    · exact .inr trivial
    · exact .inr trivial

theorem quiet_other (hr : c.Reachable) (ha : IsOther a) (hs : c.step a = .ok c') : Quiet c c' := by
  cases a with
  | call | finish | settle | tick => exact ha.elim
  | gather env => exact quiet_gather hr hs
  | _ =>
      have hr' := hr.step hs
      simp only [Config.step] at hs
      split at hs
      · cases hs
        exact ⟨⟨⟨hr', fun _ h => h, fun h => h⟩, rfl⟩, rfl, rfl, fun _ => rfl, .inl rfl⟩
      · cases hs

end Pargs

end Eveboros
