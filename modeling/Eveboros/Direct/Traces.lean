import Eveboros.Direct.AtOnce
import Eveboros.Direct.Equivalence
import Eveboros.Lib.Brackets

/-!
# What an operation leaves in the history

The part of the history that an operation adds, without what happens inside the callbacks that it
fires itself: their start and their end stand for all of it.  The shape of that surface is the
contract of the operation.  `run_one` fires at most one callback, `insert` calls `init` and nothing
else, `run` is a sequence of `run_one`.
-/

namespace Eveboros

variable {Ev : Type}

def Obs.opens : Obs Ev → Bool
  | .called _ _ _ => true
  | _ => false

def Obs.closes : Obs Ev → Bool
  | .finished _ _ _ => true
  | _ => false

namespace Direct

/-- What stands outside the callbacks in a piece of history, oldest first. -/
def surface (piece : List (Obs Ev)) : List (Obs Ev) := Brackets.surface Obs.opens Obs.closes 0 piece

/-- The piece leaves every callback that it enters. -/
def Level (piece : List (Obs Ev)) : Prop := Brackets.Level Obs.opens Obs.closes piece

/-! ## Contracts -/

inductive CallTrace (handle : Handle) (cb : Callback) : Except Error Unit → List (Obs Ev) → Prop
  | refused (err : Error) : CallTrace handle cb (.error err) [.refused handle cb err]
  | kept (event event' : Ev) : CallTrace handle cb (.ok ())
      [.called handle cb event, .finished handle event' (.ok true)]
  | killed (event event' : Ev) : CallTrace handle cb (.ok ())
      [.called handle cb event, .finished handle event' (.ok false), .killed handle]
  | failed (event event' : Ev) (err : Error) (handler : Except Error Unit) :
      CallTrace handle cb handler
        [.called handle cb event, .finished handle event' (.error err), .killed handle]

/-- `run_one`: it drops tasks of dead events until a gather fails or it takes a task. -/
inductive RoundTrace : Except Error Unit → List (Obs Ev) → Prop
  | gatherFailed (dead : List Task) (err : Error) :
      RoundTrace (.error err) (dead.map .dropped)
  | lost (dead : List Task) (task : Task) (id : IoId) (ready : Ready) (source : Nat)
      (hparam : task.param = .io id ready source) :
      RoundTrace (.ok ()) (dead.map .dropped ++ [.dispatched task])
  | fired (dead : List Task) (task : Task) {result : Except Error Unit} {trace : List (Obs Ev)}
      (h : CallTrace task.recipient task.param.callback result trace) :
      RoundTrace result (dead.map .dropped ++ .dispatched task :: trace)

inductive TurnsTrace : List (Obs Ev) → Prop
  | start : TurnsTrace []
  | turn {turns round : List (Obs Ev)} (h : TurnsTrace turns) (hround : RoundTrace (.ok ()) round) :
      TurnsTrace (turns ++ round)

/-- An operation that is called on this loop. -/
inductive OpTrace (l : Loop Ev) (caller : Option Handle) : Op Ev → Answer → List (Obs Ev) → Prop
  | immediate (op : Op Ev) (answer : Answer) (h : AtOnce l caller op answer) :
      OpTrace l caller op answer [.answered caller op answer]
  | insertExact (event : Ev) (growth : Growth) (handle : Handle) {result : Except Error Unit}
      {trace : List (Obs Ev)} (hfresh : l.eventAlive handle = false)
      (h : CallTrace handle .init result trace) :
      OpTrace l caller (.iface (.insertExact event growth)) (result.map fun _ => .handle handle)
        (.stored handle event :: trace ++
          [.returned (.insertExact handle) (result.map fun _ => .handle handle)])
  | postImpl (handle : Handle) (data : AnyBox) (tp : TypeId) {result : Except Error Unit}
      {trace : List (Obs Ev)} (hwilling : ∀ err, ¬l.TurnsAway handle tp err)
      (h : CallTrace handle (.message ⟨data, tp, .post caller⟩) result trace) :
      OpTrace l caller (.iface (.postImpl handle data tp)) (result.map fun _ => .unit)
        (trace ++ [.returned .postImpl (result.map fun _ => .unit)])
  | runOne {result : Except Error Unit} {trace : List (Obs Ev)} (h : RoundTrace result trace) :
      OpTrace l caller (.iface .runOne) (result.map fun _ => .unit)
        (trace ++ [.returned .runOne (result.map fun _ => .unit)])
  | run {result : Except Error Unit} {turns round : List (Obs Ev)} (h : TurnsTrace turns)
      (hround : RoundTrace result round) :
      OpTrace l caller (.iface .run) (result.map fun _ => .unit)
        (turns ++ round ++ [.returned .run (result.map fun _ => .unit)])
  | runUntilEmpty {result : Except Error Unit} {turns round : List (Obs Ev)} (h : TurnsTrace turns)
      (hround : RoundTrace result round) :
      OpTrace l caller (.iface .runUntilEmpty) (emptyIsFine result)
        (turns ++ round ++ [.returned .runUntilEmpty (emptyIsFine result)])
  | runUntilComplete (handle : Handle) {result : Except Error Unit} {turns round : List (Obs Ev)}
      (halive : l.eventAlive handle = true) (h : TurnsTrace turns)
      (hround : RoundTrace result round) :
      OpTrace l caller (.iface (.runUntilComplete handle)) (result.map fun _ => .unit)
        (turns ++ round ++ [.returned (.runUntilComplete handle) (result.map fun _ => .unit)])

/-- The contract of an activity that begins with this loop. -/
def Shape (l : Loop Ev) : Activity Ev → List (Obs Ev) → Prop
  | .code _, _ => True
  | .operation caller op answer, trace => OpTrace l caller op answer trace
  | .eventCall handle cb result, trace => CallTrace handle cb result trace
  | .callback handle cb resp, trace =>
      ∃ event event', trace = [.called handle cb event, .finished handle event' resp]
  | .runOne result, trace => RoundTrace result trace
  | .turns _, trace => TurnsTrace trace
  | .rounds _ result, trace =>
      ∃ turns round, TurnsTrace turns ∧ RoundTrace result round ∧ trace = turns ++ round

/-! ## Pieces of history -/

/-- Between the two states the history grows by a piece with this surface. -/
def Adds (s s' : State Ev) (P : List (Obs Ev) → Prop) : Prop :=
  ∃ piece, s'.log = piece.reverse ++ s.log ∧ Level piece ∧ P (surface piece)

namespace Adds

variable {s s₁ s₂ : State Ev} {P Q R : List (Obs Ev) → Prop}

theorem mono (h : Adds s s₁ P) (hPQ : ∀ trace, P trace → Q trace) : Adds s s₁ Q := by
  rcases h with ⟨piece, hlog, hlevel, hp⟩
  exact ⟨piece, hlog, hlevel, hPQ _ hp⟩

theorem trans (h : Adds s s₁ P) (h' : Adds s₁ s₂ Q)
    (hPQ : ∀ trace trace', P trace → Q trace' → R (trace ++ trace')) : Adds s s₂ R := by
  rcases h with ⟨piece, hlog, hlevel, hp⟩
  rcases h' with ⟨piece', hlog', hlevel', hq⟩
  refine ⟨piece ++ piece', ?_, hlevel.append hlevel', ?_⟩
  · rw [hlog', hlog, List.reverse_append, List.append_assoc]
  · rw [surface, hlevel.surface_append]
    exact hPQ _ _ hp hq

/-- Nothing is added. -/
theorem none (hlog : s₁.log = s.log) (hp : P []) : Adds s s₁ P :=
  ⟨[], hlog, Brackets.level_nil, hp⟩

/-- An entry that is no part of a callback. -/
theorem one {o : Obs Ev} (hopen : o.opens = false) (hclose : o.closes = false)
    (hlog : s₁.log = o :: s.log) (hp : P [o]) : Adds s s₁ P := by
  refine ⟨[o], hlog, Brackets.level_plain hopen hclose, ?_⟩
  rw [surface, Brackets.surface_plain hopen hclose]
  exact hp

/-- The same piece between states with the same histories. -/
theorem congr {s' s₁' : State Ev} (h : Adds s s₁ P) (hlog : s'.log = s.log)
    (hlog' : s₁'.log = s₁.log) : Adds s' s₁' P := by
  rcases h with ⟨piece, heq, hlevel, hp⟩
  exact ⟨piece, by rw [hlog', heq, hlog], hlevel, hp⟩

end Adds

/-! ## Derivations keep the contracts -/

section

variable {s s₁ : State Ev}

theorem Beside.log (h : Beside s s₁) : s₁.log = s.log := by
  rcases h with ⟨a, l, _, rfl⟩
  rfl

theorem besides_log (h : Relation.ReflTransGen Beside s s₁) : s₁.log = s.log := by
  induction h with
  | refl => rfl
  | tail _ hlast ih => exact hlast.log.trans ih

theorem Seek.adds (h : Seek s s₁) : Adds s s₁ fun trace => ∃ dead : List Task,
    trace = dead.map .dropped := by
  induction h with
  | start => exact .none rfl ⟨[], rfl⟩
  | beside _ hbeside ih => exact ih.congr rfl hbeside.log
  | gathered _ _ _ ih => exact ih.congr rfl rfl
  | @dropped s₁ task rest _ _ _ ih =>
      refine ih.trans (.one (P := fun trace => trace = [.dropped task]) rfl rfl rfl rfl) ?_
      rintro _ _ ⟨dead, rfl⟩ rfl
      exact ⟨dead ++ [task], by simp⟩

/-- The callback is the one that the task asks for; only the readiness of an IO may get lost. -/
theorem taskCallback_kind {l l' : Loop Ev} {task : Task} {cb : Option Callback}
    (h : Config.taskCallback l task = .ok (l', cb)) :
    cb = some task.param.callback ∨
      cb = none ∧ ∃ id ready source, task.param = .io id ready source := by
  unfold Config.taskCallback at h
  split at h
  · rename_i id ready source hparam
    obtain ⟨holder, _, h⟩ := Except.bind_eq_ok.mp h
    cases h
    split
    · exact .inl (by rw [hparam]; rfl)
    · exact .inr ⟨rfl, id, ready, source, hparam⟩
  · rename_i id hparam
    obtain ⟨_, _, h⟩ := Except.bind_eq_ok.mp h
    obtain ⟨_, _, h⟩ := Except.bind_eq_ok.mp h
    obtain ⟨_, _, h⟩ := Except.bind_eq_ok.mp h
    cases h
    exact .inl (by rw [hparam]; rfl)
  all_goals
    rename_i hparam
    cases h
    exact .inl (by rw [hparam]; rfl)

/-- A callback: what happens inside is not on the surface. -/
theorem adds_callback {handle : Handle} {cb : Callback} {event event' : Ev} {resp : Response}
    {s₂ s₃ : State Ev} (hin : Adds s₁ s₂ fun _ => True)
    (hcalled : s₁.log = .called handle cb event :: s.log)
    (hfinished : s₃.log = .finished handle event' resp :: s₂.log) :
    Adds s s₃ fun trace => trace = [.called handle cb event, .finished handle event' resp] := by
  rcases hin with ⟨piece, hlog, hlevel, _⟩
  refine ⟨.called handle cb event :: piece ++ [.finished handle event' resp], ?_,
    Brackets.level_bracket rfl rfl rfl hlevel, ?_⟩
  · rw [hfinished, hlog, hcalled]
    simp
  · exact Brackets.surface_bracket (a := .called handle cb event)
      (b := .finished handle event' resp) rfl rfl rfl hlevel

/-- Code in the name of anybody runs on some stack. -/
theorem exists_callerOf (caller : Option Handle) : ∃ stack, callerOf stack = caller := by
  cases caller with
  | none => exact ⟨[], rfl⟩
  | some handle => exact ⟨[.callback handle .init ⟨⟨0, 0⟩⟩], rfl⟩

theorem atOnce_of_immediate {caller : Option Handle} {op : Op Ev} {answer : Answer}
    (hlog : s₁.log = .answered caller op answer :: s.log)
    (h : ∀ stack, (s.config stack .user).caller = caller →
      (s.config stack .user).callOp op = .ok (s₁.config stack .user)) :
    AtOnce s.loop caller op answer := by
  obtain ⟨stack, hcaller⟩ := exists_callerOf caller
  replace hcaller : (s.config stack .user).caller = caller := hcaller
  obtain ⟨answer', hanswer, hlog'⟩ := atOnce_of_callOp (h stack hcaller) rfl
  rw [hcaller] at hanswer hlog'
  cases hlog.symm.trans hlog'
  exact hanswer

theorem fresh_of_store {l l' : Loop Ev} {event : Ev} {growth : Growth} {handle : Handle}
    (h : l.storeEvent event growth = .ok (handle, l')) : l.eventAlive handle = false := by
  obtain ⟨_, hstore, ⟨⟩⟩ := Except.bind_eq_ok.mp h
  have hstored := Recycler.store_ok (Except.mapError_eq_ok.mp hstore)
  simp [Loop.eventAlive, hstored.vacant]

theorem Does.adds {act : Activity Ev} (h : Does act s s₁) : Adds s s₁ (Shape s.loop act) := by
  induction h with
  | beside _ _ hbeside ih => exact ih.congr rfl hbeside.log
  | start => exact .none rfl trivial
  | operation _ _ ih ihop => exact ih.trans ihop fun _ _ _ _ => trivial
  | immediate hlog himm =>
      exact .one rfl rfl hlog (.immediate _ _ (atOnce_of_immediate hlog himm))
  | @insertExact caller event growth handle l result s s₁ hstore _ ih =>
      have hstored : Adds s { s with loop := l, log := .stored handle event :: s.log }
          fun trace => trace = [.stored handle event] := .one rfl rfl rfl rfl
      refine (hstored.trans ih (R := fun trace => ∃ call, CallTrace handle .init result call ∧
        trace = .stored handle event :: call) ?_).trans
        (.one (P := fun trace => trace = [_]) rfl rfl rfl rfl) ?_
      · rintro _ call rfl hcall
        exact ⟨call, hcall, rfl⟩
      · rintro _ _ ⟨call, hcall, rfl⟩ rfl
        exact .insertExact event growth handle (fresh_of_store hstore) hcall
  | postImpl hcheck _ ih =>
      refine ih.trans (.one (P := fun trace => trace = [_]) rfl rfl rfl rfl) ?_
      rintro _ _ hcall rfl
      refine .postImpl _ _ _ (fun err haway => ?_) hcall
      cases (Loop.turnsAway_iff.mp haway).symm.trans hcheck
  | runOne _ ih =>
      refine ih.trans (.one (P := fun trace => trace = [_]) rfl rfl rfl rfl) ?_
      rintro _ _ hround rfl
      exact .runOne hround
  | run _ ih =>
      refine (ih.congr rfl rfl).trans (.one (P := fun trace => trace = [_]) rfl rfl rfl rfl) ?_
      rintro _ _ ⟨turns, round, hturns, hround, rfl⟩ rfl
      exact .run hturns hround
  | runUntilEmpty _ ih =>
      refine (ih.congr rfl rfl).trans (.one (P := fun trace => trace = [_]) rfl rfl rfl rfl) ?_
      rintro _ _ ⟨turns, round, hturns, hround, rfl⟩ rfl
      exact .runUntilEmpty hturns hround
  | runUntilComplete halive _ _ _ ih =>
      refine ih.trans (.one (P := fun trace => trace = [_]) rfl rfl rfl rfl) ?_
      rintro _ _ ⟨turns, round, hturns, hround, rfl⟩ rfl
      exact .runUntilComplete _ halive hturns hround
  | refused hbeside _ =>
      exact (Adds.one rfl rfl rfl (.refused _)).congr (besides_log hbeside).symm rfl
  | called hbeside _ _ _ ih =>
      refine (adds_callback ih rfl rfl).congr (besides_log hbeside).symm rfl |>.mono ?_
      rintro _ rfl
      exact ⟨_, _, rfl⟩
  | kept _ ih =>
      refine ih.mono ?_
      rintro _ ⟨event, event', rfl⟩
      exact .kept event event'
  | killed _ _ ih =>
      refine ih.trans (.one (P := fun trace => trace = [_]) rfl rfl rfl rfl) ?_
      rintro _ _ ⟨event, event', rfl⟩ rfl
      exact .killed event event'
  | failed _ _ ih =>
      refine ih.trans (.one (P := fun trace => trace = [_]) rfl rfl rfl rfl) ?_
      rintro _ _ ⟨event, event', rfl⟩ rfl
      exact .failed event event' _ _
  | gatherFailed hseek _ _ =>
      refine (hseek.adds.congr rfl rfl).mono ?_
      rintro _ ⟨dead, rfl⟩
      exact .gatherFailed dead _
  | lost hseek _ _ htask =>
      refine hseek.adds.trans (.one (P := fun trace => trace = [_]) rfl rfl rfl rfl) ?_
      rintro _ _ ⟨dead, rfl⟩ rfl
      obtain ⟨id, ready, source, hparam⟩ := ((taskCallback_kind htask).resolve_left nofun).2
      exact .lost dead _ id ready source hparam
  | @fired task rest cb l result s s₁ s₂ hseek _ _ htask _ ih =>
      have hcb : cb = task.param.callback :=
        Option.some.inj ((taskCallback_kind htask).resolve_right fun h => nomatch h.1)
      have hone : Adds s₁ { s₁ with loop := l, log := .dispatched task :: s₁.log }
          fun trace => trace = [.dispatched task] := .one rfl rfl rfl rfl
      refine (hseek.adds.trans hone (R := fun trace => ∃ dead : List Task,
        trace = dead.map .dropped ++ [.dispatched task]) ?_).trans ih ?_
      · rintro _ _ ⟨dead, rfl⟩ rfl
        exact ⟨dead, rfl⟩
      · rintro _ _ ⟨dead, rfl⟩ hcall
        rw [List.append_assoc]
        exact .fired dead task (hcb ▸ hcall)
  | firstTurn => exact .none rfl .start
  | turn _ _ _ ih ihrun => exact ih.trans ihrun fun _ _ => .turn
  | roundsDone _ _ _ ih ihrun | roundsFailed _ _ ih ihrun =>
      exact ih.trans ihrun fun turns round hturns hround => ⟨turns, round, hturns, hround, rfl⟩

end

end Direct

end Eveboros
