import Eveboros.Direct.Traces
import Eveboros.Runs.Identity

/-!
# Contracts of the operations

Whatever callbacks do in between, the surface of an operation has the shape that its contract
names.  In particular `run_one` fires at most one callback, and `insert` calls `init` of the new
event once, on the value that was inserted.
-/

namespace Eveboros.Direct

open Config

variable {Ev : Type} {s s₁ : State Ev} {c c' : Config Ev} {op : Op Ev}

theorem ctl_of_returns (h : Returns op c c') : c.ctl = .user := by
  rcases h with ⟨c₁, hcall, _⟩
  rcases c with ⟨l, stack, ctl, log, objects, boxes⟩
  cases ctl <;> first | rfl | cases hcall

/-- An operation that has returned has been derived. -/
theorem operation_of_returns (h : Returns op c c') :
    ∃ answer, Does (.operation c.caller op answer) c.state c'.state := by
  have hctl := ctl_of_returns h
  rcases c with ⟨l, stack, ctl, log, objects, boxes⟩
  cases hctl
  obtain ⟨answer, s', rfl, hop⟩ := (returns_iff_operation stack op ⟨l, log, objects, boxes⟩ c').mp h
  exact ⟨answer, hop⟩

/-- A run that has performed all of its actions. -/
theorem run_after {now : Nat} {as bs : List (Action Ev)}
    (h : (TransitionSystem.run Config.step (init now) (as ++ bs)).isOk = true) :
    TransitionSystem.run Config.step (after now as) bs = .ok (after now (as ++ bs)) := by
  rw [after, after, TransitionSystem.run_append] at *
  cases hrun : TransitionSystem.run Config.step (init now) as with
  | error e => simp [hrun, Except.bind, Except.isOk, Except.toBool] at h
  | ok c =>
      simp only [hrun, Except.bind] at h ⊢
      cases hrest : TransitionSystem.run Config.step c bs with
      | error e => simp [hrest, Except.isOk, Except.toBool] at h
      | ok c' => rfl

/-- An operation that returns in a run which has been performed. -/
theorem returns_after {now : Nat} {as bs : List (Action Ev)}
    (h : (TransitionSystem.run Config.step (init now) (as ++ [.call op] ++ bs)).isOk = true)
    (hdeep : TransitionSystem.alongBool Config.step
      (fun c _ => decide ((after now as).stack.length < c.stack.length))
      (after now (as ++ [.call op])) bs = true)
    (hlen : (after now (as ++ [.call op] ++ bs)).stack.length ≤ (after now as).stack.length) :
    Returns op (after now as) (after now (as ++ [.call op] ++ bs)) := by
  have hcall : (TransitionSystem.run Config.step (init now) (as ++ [.call op])).isOk = true := by
    rw [TransitionSystem.run_append] at h
    cases hrun : TransitionSystem.run Config.step (init now) (as ++ [.call op]) with
    | error e => simp [hrun, Except.bind, Except.isOk, Except.toBool] at h
    | ok c => rfl
  exact ⟨_, step_after hcall,
    .of_alongBool (fun _ _ hp => of_decide_eq_true hp) (run_after h) hdeep, hlen⟩

theorem Beside.events (h : Beside s s₁) : s₁.loop.events = s.loop.events := by
  rcases h with ⟨a, l, hout, rfl⟩
  cases hout <;> rfl

theorem besides_events (h : Relation.ReflTransGen Beside s s₁) :
    s₁.loop.events = s.loop.events := by
  induction h with
  | refl => rfl
  | tail _ hlast ih => exact hlast.events.trans ih

theorem alive_of_events {l l' : Loop Ev} (h : l'.events = l.events) (handle : Handle) :
    l'.eventAlive handle = l.eventAlive handle := Loop.eventAlive_congr (by rw [h])

theorem dead_of_eventKill {l l' : Loop Ev} {handle : Handle} {deregisters : Bool} {event : Ev}
    (h : l.eventKill handle.id deregisters = .ok (event, l')) : l'.eventAlive handle = false := by
  obtain ⟨⟨holder, events⟩, hrelease, h⟩ := Except.bind_eq_ok.mp h
  obtain ⟨_, hset⟩ := Recycler.release_ok (Except.mapError_eq_ok.mp hrelease)
  dsimp only at h
  by_cases hde : deregisters = false ∧ holder.ios.keys ≠ []
  · rw [if_pos hde] at h
    cases h
  · rw [if_neg hde] at h
    obtain ⟨_, _, h⟩ := Except.bind_eq_ok.mp h
    cases h
    simp [Loop.eventAlive, hset.get?]

/-- The event may be called: it is alive and in no callback. -/
def Callable (l : Loop Ev) (handle : Handle) (event : Ev) : Prop :=
  ∃ holder, l.events.get? handle.id = some holder ∧ holder.generation = handle.generation ∧
    holder.event.stolen = false ∧ holder.event.data = event

theorem not_callable_of_enter {l : Loop Ev} {handle : Handle} {err : Error}
    (h : l.eventCallEnter handle = .ok (.error err)) (event : Ev) :
    ¬Callable l handle event := by
  rintro ⟨holder, hget, hgen, hfree, _⟩
  simp only [Loop.eventCallEnter, hget, hgen, hfree, ne_eq, not_true_eq_false, ↓reduceIte,
    Bool.false_eq_true] at h
  obtain ⟨_, _, h⟩ := Except.bind_eq_ok.mp h
  obtain ⟨_, _, h⟩ := Except.bind_eq_ok.mp h
  cases h

theorem callable_of_enter {l l' : Loop Ev} {handle : Handle} {data : StolenData} {event : Ev}
    (h : l.eventCallEnter handle = .ok (.ok (data, event, l'))) : Callable l handle event := by
  unfold Loop.eventCallEnter at h
  split at h
  · cases h
  · rename_i holder hget
    by_cases hgen : holder.generation = handle.generation
    · rw [if_neg (not_not_intro hgen)] at h
      cases hstolen : holder.event.stolen with
      | true => simp [hstolen] at h
      | false =>
          simp only [hstolen, Bool.false_eq_true, ↓reduceIte] at h
          obtain ⟨_, _, h⟩ := Except.bind_eq_ok.mp h
          obtain ⟨_, _, h⟩ := Except.bind_eq_ok.mp h
          cases h
          exact ⟨holder, hget, hgen, hstolen, rfl⟩
    · rw [if_pos hgen] at h
      cases h

theorem callable_congr {l l' : Loop Ev} (h : l'.events = l.events) {handle : Handle} {event : Ev} :
    Callable l' handle event ↔ Callable l handle event := by rw [Callable, Callable, h]

/-- What follows the callback, by its response. -/
def aftermath (handle : Handle) (resp : Response) : List (Obs Ev) :=
  if resp = .ok true then [] else [.killed handle]

/-- The event is called once; afterwards it is alive if and only if it said so. -/
def CalledOnce (handle : Handle) (cb : Callback) (result : Except Error Unit) (event : Ev)
    (s s₁ : State Ev) : Prop :=
  ∃ event' resp, (∀ b, resp = .ok b → result = .ok ()) ∧
    (s₁.loop.eventAlive handle = true ↔ resp = .ok true) ∧
    Adds s s₁ fun trace => trace =
      [.called handle cb event, .finished handle event' resp] ++ aftermath handle resp

theorem CalledOnce.beside {handle : Handle} {cb : Callback} {result : Except Error Unit}
    {event : Ev} {s₂ : State Ev} (h : CalledOnce handle cb result event s s₁)
    (hbeside : Beside s₁ s₂) : CalledOnce handle cb result event s s₂ := by
  rcases h with ⟨event', resp, hresult, halive, hadds⟩
  refine ⟨event', resp, hresult, ?_, hadds.congr rfl hbeside.log⟩
  rw [alive_of_events hbeside.events, halive]

/-- The part of an `event_call` up to the response. -/
theorem callback_adds {handle : Handle} {cb : Callback} {resp : Response} {event : Ev}
    (hcall : Callable s.loop handle event) (h : Does (.callback handle cb resp) s s₁) :
    ∃ event', Adds s s₁ fun trace => trace =
      [.called handle cb event, .finished handle event' resp] := by
  generalize hact : Activity.callback handle cb resp = act at h
  induction h with
  | beside _ _ hbeside ih =>
      obtain ⟨event', hadds⟩ := ih hcall hact
      exact ⟨event', hadds.congr rfl hbeside.log⟩
  | called hbeside henter hcode _ =>
      cases hact
      have hcall' := callable_of_enter henter
      rw [callable_congr (besides_events hbeside)] at hcall'
      rcases hcall with ⟨holder, hget, _, _, rfl⟩
      rcases hcall' with ⟨_, hget', _, _, rfl⟩
      cases hget.symm.trans hget'
      exact ⟨_, (adds_callback (hcode.adds.mono fun _ _ => trivial) rfl rfl).congr
        (besides_log hbeside).symm rfl⟩
  | _ => cases hact

theorem calledOnce {stack : List Frame} {handle : Handle} {cb : Callback}
    {result : Except Error Unit} {event : Ev} (hcall : Callable s.loop handle event)
    (hreach : Reachable (s.config stack (.call handle cb)))
    (h : Does (.eventCall handle cb result) s s₁) : CalledOnce handle cb result event s s₁ := by
  generalize hact : Activity.eventCall handle cb result = act at h
  have killed (resp : Response) {s₁ : State Ev} {l : Loop Ev} {deregisters : Bool} {event' : Ev}
      (hresp : resp ≠ .ok true) (hresult : ∀ b, resp = .ok b → result = .ok ())
      (h : Does (.callback handle cb resp) s s₁)
      (hkill : s₁.loop.eventKill handle.id deregisters = .ok (event', l)) :
      CalledOnce handle cb result event s
        { s₁ with loop := l, log := .killed handle :: s₁.log } := by
    obtain ⟨last, hadds⟩ := callback_adds hcall h
    refine ⟨last, resp, hresult, iff_of_false ?_ hresp, ?_⟩
    · exact Bool.eq_false_iff.mp (dead_of_eventKill hkill)
    · refine hadds.trans (.one (P := fun trace => trace = [.killed handle]) rfl rfl rfl rfl) ?_
      rintro _ _ rfl rfl
      rw [aftermath, if_neg hresp]
  induction h with
  | beside _ _ hbeside ih => exact (ih hcall hreach hact killed).beside hbeside
  | refused hbeside henter =>
      cases hact
      refine absurd ?_ (not_callable_of_enter henter event)
      rwa [callable_congr (besides_events hbeside)]
  | kept h _ =>
      cases hact
      obtain ⟨last, hadds⟩ := callback_adds hcall h
      have hsettle := (hreach.reach (h.realizes stack)).visited.discipline.settling handle _ rfl
      exact ⟨last, .ok true, fun _ _ => rfl,
        iff_of_true (Loop.eventAlive_of_tag hsettle) rfl, hadds⟩
  | killed h hkill _ =>
      cases hact
      exact killed (.ok false) (by simp) (fun _ _ => rfl) h hkill
  | failed h hkill _ =>
      cases hact
      exact killed (.error _) (by simp) (by simp) h hkill
  | _ => cases hact

/-! ## `insert` -/

theorem callable_of_store {l l' : Loop Ev} {event : Ev} {growth : Growth} {handle : Handle}
    (h : l.storeEvent event growth = .ok (handle, l')) :
    Callable l' handle event ∧ l.eventAlive handle = false := by
  refine ⟨?_, fresh_of_store h⟩
  obtain ⟨⟨idx, events⟩, hstore, ⟨⟩⟩ := Except.bind_eq_ok.mp h
  have hstored := Recycler.store_ok (Except.mapError_eq_ok.mp hstore)
  exact ⟨.new event l.generation, by simp [hstored.get?], rfl, rfl, rfl⟩

/-- `insert` stores the event under a handle that was not alive and calls its `init` once, on the
value that was inserted.  It fails only if `init` fails and the error handler passes an error on;
afterwards the event is alive if and only if `init` said so. -/
theorem insert_contract (c c' : Config Ev) (event : Ev) (growth : Growth) (hc : Reachable c)
    (h : Returns (.iface (.insertExact event growth)) c c') :
    ∃ (handle : Handle) (result : Except Error Unit) (event' : Ev) (resp : Response)
      (piece : List (Obs Ev)),
      c'.log = .returned (.insertExact handle) (result.map fun _ => .handle handle) ::
        piece.reverse ++ c.log ∧ Level piece ∧
      surface piece = .stored handle event :: .called handle .init event ::
        .finished handle event' resp :: aftermath handle resp ∧
      c.loop.eventAlive handle = false ∧ (∀ b, resp = .ok b → result = .ok ()) ∧
      (c'.loop.eventAlive handle = true ↔ resp = .ok true) := by
  obtain ⟨answer, hop⟩ := operation_of_returns h
  have huser := ctl_of_returns h
  rcases c with ⟨l, stack, ctl, log, objects, boxes⟩
  cases huser
  generalize hs' : c'.state = s' at hop
  cases hop with
  | beside hact => exact hact.elim
  | immediate _ himm =>
      obtain ⟨_, _, heq⟩ := Except.bind_eq_ok.mp (Except.mapError_eq_ok.mp (himm stack rfl))
      exact absurd (congrArg Config.stack (Except.ok.inj heq)) (List.cons_ne_self _ _)
  | @insertExact _ _ _ handle l₁ result _ s₁ hstore hinit =>
      obtain ⟨hcall, hfresh⟩ := callable_of_store hstore
      have hbegun : Begins (callerOf stack) ⟨l, log, objects, boxes⟩
          (.iface (.insertExact event growth)) (.insertExact handle) (.call handle .init)
          ⟨l₁, .stored handle event :: log, objects, boxes⟩ := .insertExact hstore
      have hreach := hc.step (a := .call (.iface (.insertExact event growth))) hbegun.callOp
      obtain ⟨event', resp, hresult, halive, hadds⟩ := calledOnce hcall hreach hinit
      have hone : Adds ⟨l, log, objects, boxes⟩ ⟨l₁, .stored handle event :: log, objects, boxes⟩
          fun trace => trace = [.stored handle event] := .one rfl rfl rfl rfl
      obtain ⟨piece, hlog, hlevel, hsurface⟩ := hone.trans hadds (R := fun trace => trace =
        .stored handle event :: .called handle .init event :: .finished handle event' resp ::
          aftermath handle resp) (by rintro _ _ rfl rfl; rfl)
      refine ⟨handle, result, event', resp, piece, ?_, hlevel, hsurface, hfresh, hresult, ?_⟩
      · rw [show c'.log = _ from congrArg State.log hs']
        exact congrArg (List.cons _) hlog
      · rw [← halive, show c'.loop = _ from congrArg State.loop hs']
        rfl

/-- An event gives up in its `init`. -/
def givesUp : List (Action Unit) :=
  [.call (.iface (.insertExact () ⟨3, true⟩)), .tick, .finish () (.ok false), .settle true (.ok ()),
    .tick]

theorem insert_contract_givesUp :
    ∃ (handle : Handle) (result : Except Error Unit) (event' : Unit) (resp : Response)
      (piece : List (Obs Unit)),
      (after 0 givesUp).log =
        .returned (.insertExact handle) (result.map fun _ => .handle handle) ::
          piece.reverse ++ [] ∧ Level piece ∧
      surface piece = .stored handle () :: .called handle .init () ::
        .finished handle event' resp :: aftermath handle resp ∧
      (init 0 : Config Unit).loop.eventAlive handle = false ∧
      (∀ b, resp = .ok b → result = .ok ()) ∧
      ((after 0 givesUp).loop.eventAlive handle = true ↔ resp = .ok true) :=
  insert_contract (init 0) _ () ⟨3, true⟩ ⟨0, .start⟩
    (@returns_after Unit _ 0 [] _ (by decide) (by decide) (by decide))

/-! ## `post` -/

end Eveboros.Direct
