import Eveboros.Machine.Edit

/-!
# Operations and calls of events

Each operation that user code may call, each part of an `event_call` and each round of `run_one` is
one elementary change, or it panics for a reason that `Fail` lists.  No later module unfolds these
functions.
-/

namespace Eveboros.Config

open Loop

variable {Ev : Type}

/-! ## Operations -/

/-- The computation is one elementary change, or panics for a reason that is listed. -/
def Sound (a : Action Ev) (c : Config Ev) : Except Panic (Config Ev) → Prop
  | .ok c' => Edit a c c'
  | .error p => Fail a c p

theorem Sound.of_edit {a : Action Ev} {c c' : Config Ev} (h : Edit a c c') : Sound a c (.ok c') := h

theorem Sound.of_fail {a : Action Ev} {c : Config Ev} {p : Panic} (h : Fail a c p) :
    Sound a c (.error p) := h

theorem callIface_sound (c : Config Ev) (op : IfaceOp Ev) (hctl : c.ctl = .user) :
    Sound (.call (.iface op)) c (c.callIface op) := by
  cases op with
  | insertExact event growth =>
      obtain ⟨idx, events, hs, spec⟩ :=
        c.loop.events.store_spec (.new event c.loop.generation) growth
      simp only [callIface, storeEvent, hs, Except.ok_bind, Except.pure_eq_ok, Except.mapError_ok]
      exact .of_edit (.stored event growth idx events rfl hctl spec)
  | runOne => exact .of_edit (.beganRunOne rfl hctl)
  | runUntilComplete handle =>
      cases hget : c.loop.events.get? handle.id with
      | none =>
          have hdead : c.loop.eventAlive handle = false := by simp [eventAlive, hget]
          simp only [callIface, hdead, ↓reduceIte]
          exact .of_edit (.query _ _ rfl hctl trivial)
      | some holder =>
          by_cases hgen : holder.generation = handle.generation
          · have halive : c.loop.eventAlive handle = true := by simp [eventAlive, hget, hgen]
            simp only [callIface, halive, Bool.true_eq_false, ↓reduceIte,
              Recycler.index_eq_ok.mpr hget, Except.ok_bind, Except.pure_eq_ok, Except.mapError_ok]
            cases hstolen : holder.event.stolen with
            | true => exact .of_edit (.refusal _ _ rfl hctl trivial)
            | false => exact .of_edit (.beganUntilComplete handle holder rfl hctl hget hgen hstolen)
          · have hdead : c.loop.eventAlive handle = false := by simp [eventAlive, hget, hgen]
            simp only [callIface, hdead, ↓reduceIte]
            exact .of_edit (.query _ _ rfl hctl trivial)
  | run => exact .of_edit (.beganRun .run (.inl ⟨rfl, rfl⟩) hctl)
  | runUntilEmpty => exact .of_edit (.beganRun .runUntilEmpty (.inr ⟨rfl, rfl⟩) hctl)
  | stop => exact .of_edit (.stopped rfl hctl)
  | eventAlive handle => exact .of_edit (.query _ _ rfl hctl trivial)
  | eventCount =>
      simp only [callIface, Recycler.len_spec, Except.ok_bind, Except.pure_eq_ok,
        Except.mapError_ok]
      exact .of_edit (.query _ _ rfl hctl trivial)
  | now => exact .of_edit (.query _ _ rfl hctl trivial)
  | sendImpl handle data tp =>
      rcases msgTypeCheck_cases c.loop handle tp with
        ⟨_, hcheck⟩ | ⟨holder, hget, hgen, ⟨_, hcheck⟩ | ⟨hmem, hcheck⟩⟩
      · simp only [callIface, sendImplSender, hcheck, Except.ok_bind, Except.pure_eq_ok, Except.map]
        exact .of_edit (.refusal _ _ rfl hctl trivial)
      · simp only [callIface, sendImplSender, hcheck, Except.ok_bind, Except.pure_eq_ok, Except.map]
        exact .of_edit (.refusal _ _ rfl hctl trivial)
      · simp only [callIface, sendImplSender, hcheck, Except.ok_bind, Except.pure_eq_ok, Except.map]
        exact .of_edit (.sent handle data tp holder rfl hctl hget hgen hmem)
  | postImpl handle data tp =>
      rcases msgTypeCheck_cases c.loop handle tp with
        ⟨_, hcheck⟩ | ⟨holder, hget, hgen, ⟨_, hcheck⟩ | ⟨hmem, hcheck⟩⟩
      · simp only [callIface, hcheck, Except.ok_bind, Except.pure_eq_ok]
        exact .of_edit (.refusal _ _ rfl hctl trivial)
      · simp only [callIface, hcheck, Except.ok_bind, Except.pure_eq_ok]
        exact .of_edit (.refusal _ _ rfl hctl trivial)
      · simp only [callIface, hcheck, Except.ok_bind, Except.pure_eq_ok]
        exact .of_edit (.posted handle data tp holder rfl hctl hget hgen hmem)
  | channel handle => exact .of_edit (.query _ _ rfl hctl trivial)

/-- The loop runs `timeout_at` for the event on top of the stack. -/
theorem timeoutAt_sound (c : Config Ev) (op : ScopeOp) (handle : Handle) (when : Nat)
    (hctl : c.ctl = .user) (hcaller : c.caller = some handle)
    (hop : op.deadline c.loop.now = some when) :
    Sound (.call (.scope op)) c (do
      let (id, l) ← c.loop.timeoutAt handle when
      return c.answer l (.scope op) (.ok (.timeoutId id))) := by
  cases hget : c.loop.events.get? handle.id with
  | none =>
      obtain ⟨e, he⟩ := Recycler.modify_of_none
        (f := fun h : EvHolder Ev => { h with timeouts := h.timeouts + 1 }) hget
      simp only [timeoutAt, he, Except.error_bind, Except.mapError_error]
      exact .of_fail (.scopeVacant handle e hctl hcaller hget)
  | some holder =>
      obtain ⟨events, hs, hset⟩ := Recycler.modify_spec
        (fun h : EvHolder Ev => { h with timeouts := h.timeouts + 1 }) hget
      simp only [timeoutAt, hs, Except.ok_bind, Except.pure_eq_ok, Except.mapError_ok]
      exact .of_edit (.timer op handle when holder events rfl hctl hcaller hop hget hset)

theorem ioIdx_cases (l : Loop Ev) (handle : Handle) (id : IoId) :
    (l.events.get? handle.id = none ∧ ∃ e, l.ioIdx handle id = .error (.events e)) ∨
      ∃ holder, l.events.get? handle.id = some holder ∧
        ((id.idx ∈ holder.ios ∧ l.ioIdx handle id = .ok (.ok id.idx)) ∨
          (id.idx ∉ holder.ios ∧ l.ioIdx handle id = .ok (.error .missingIo))) := by
  cases hget : l.events.get? handle.id with
  | none =>
      obtain ⟨e, he⟩ := Recycler.index_of_none hget
      exact .inl ⟨rfl, e, by simp [ioIdx, he, Except.mapError_error]⟩
  | some holder =>
      refine .inr ⟨holder, rfl, ?_⟩
      by_cases hmem : id.idx ∈ holder.ios
      · exact .inl ⟨hmem, by simp [ioIdx, Recycler.index_eq_ok.mpr hget, hmem, Except.ok_bind,
          Except.pure_eq_ok, Except.mapError_ok]⟩
      · exact .inr ⟨hmem, by simp [ioIdx, Recycler.index_eq_ok.mpr hget, hmem, Except.ok_bind,
          Except.pure_eq_ok, Except.mapError_ok]⟩

theorem ioRegisterAny_sound (c : Config Ev) (handle : Handle) (growth : Growth)
    (outcome : Option IoErrorKind) (hctl : c.ctl = .user) (hcaller : c.caller = some handle) :
    Sound (.call (.scope (.ioRegisterAny growth outcome))) c
      (c.callScope handle (.ioRegisterAny growth outcome)) := by
  obtain ⟨idx, ios, hs, spec⟩ := c.loop.ios.store_spec handle growth
  cases outcome with
  | some err =>
      have hidx : ios.get? idx = some handle := by simp [spec.get? idx]
      obtain ⟨ios', hr, hset⟩ := Recycler.release_spec hidx
      simp only [callScope, ioRegisterAny, hs, hr, Except.ok_bind, Except.pure_eq_ok,
        Except.mapError_ok, Except.map]
      refine .of_edit (.ioRefused growth err handle ios' rfl hctl hcaller fun other => ?_)
      by_cases heq : other = idx
      · subst heq
        simp [hset.get? other, spec.vacant]
      · simp [hset.get? other, spec.get? other, heq]
  | none =>
      cases hget : c.loop.events.get? handle.id with
      | none =>
          obtain ⟨e, he⟩ := Recycler.modify_of_none
            (f := fun h : EvHolder Ev => { h with ios := h.ios.insert idx ⟨handle, c.objects⟩ })
            hget
          simp only [callScope, ioRegisterAny, hs, he, Except.ok_bind, Except.error_bind,
            Except.mapError_ok, Except.mapError_error]
          exact .of_fail (.scopeVacant handle e hctl hcaller hget)
      | some holder =>
          obtain ⟨events, he, hset⟩ := Recycler.modify_spec
            (fun h : EvHolder Ev => { h with ios := h.ios.insert idx ⟨handle, c.objects⟩ }) hget
          simp only [callScope, ioRegisterAny, hs, he, Except.ok_bind, Except.pure_eq_ok,
            Except.mapError_ok, Except.map]
          exact .of_edit
            (.ioRegistered growth handle holder idx ios events rfl hctl hcaller hget hs hset)

theorem ioRemove_sound (c : Config Ev) (handle : Handle) (id : IoId)
    (outcome : Option IoErrorKind) (hctl : c.ctl = .user) (hcaller : c.caller = some handle) :
    Sound (.call (.scope (.ioRemove id outcome))) c
      (c.callScope handle (.ioRemove id outcome)) := by
  rcases ioIdx_cases c.loop handle id with
    ⟨hget, e, hidx⟩ | ⟨holder, hget, ⟨hmem, hidx⟩ | ⟨_, hidx⟩⟩
  · simp only [callScope, ioRemove, hidx, Except.error_bind]
    exact .of_fail (.scopeVacant handle e hctl hcaller hget)
  · obtain ⟨events, he, hset⟩ := Recycler.modify_spec
      (fun h : EvHolder Ev => { h with ios := h.ios.erase id.idx }) hget
    cases hio : c.loop.ios.get? id.idx with
    | none =>
        obtain ⟨e, hr⟩ := Recycler.release_of_none hio
        simp only [callScope, ioRemove, hidx, he, hr, Except.ok_bind, Except.error_bind,
          Except.mapError_ok, Except.mapError_error]
        exact .of_fail (.removeVacant id outcome handle holder e rfl hctl hcaller hget hmem hio)
    | some owner =>
        obtain ⟨ios, hr, hios⟩ := Recycler.release_spec hio
        simp only [callScope, ioRemove, hidx, he, hr, Except.ok_bind, Except.pure_eq_ok,
          Except.mapError_ok]
        exact .of_edit
          (.ioRemoved id outcome handle holder ios events _ rfl hctl hcaller hget hmem hset hios)
  · simp only [callScope, ioRemove, hidx, Except.ok_bind, Except.pure_eq_ok, Except.map]
    exact .of_edit (.refusal _ _ rfl hctl trivial)

/-- A signal that is on already stays on. -/
theorem signalEnable_cases (l : Loop Ev) (signal : Signal) :
    ((l.signalsEnabled signal.num = true ∨ signal.uncatchable = false) ∧
      l.signalEnable signal =
        .ok { l with signalsEnabled := Function.update l.signalsEnabled signal.num true }) ∨
      l.signalsEnabled signal.num = false ∧ signal.uncatchable = true ∧
        l.signalEnable signal = .error .sigaction := by
  cases hon : l.signalsEnabled signal.num with
  | true =>
      refine .inl ⟨.inl rfl, ?_⟩
      simp only [signalEnable, hon, ↓reduceIte]
      rw [← hon, Function.update_eq_self]
  | false => cases hsignal : signal.uncatchable <;> simp [signalEnable, hon, hsignal]

theorem signalEnable_sigchld (l : Loop Ev) : l.signalEnable .SIGCHLD =
    .ok { l with signalsEnabled := Function.update l.signalsEnabled Signal.SIGCHLD.num true } := by
  rcases signalEnable_cases l .SIGCHLD with ⟨_, h⟩ | ⟨_, h, _⟩
  · exact h
  · cases h

theorem poolThreadCountSet_eq (l : Loop Ev) {cnt : Nat} (h : cnt ≠ 0) : l.poolThreadCountSet cnt =
    .ok { l with threadpool := some { l.threadpool.getD ⟨cnt, []⟩ with threads := cnt } } := by
  unfold poolThreadCountSet
  rw [if_neg h]
  cases l.threadpool <;> rfl

theorem child_sound (c : Config Ev) (handle : Handle) (pid : Pid) (hctl : c.ctl = .user)
    (hcaller : c.caller = some handle) :
    Sound (.call (.scope (.child pid))) c (c.callScope handle (.child pid)) := by
  by_cases hmem : pid ∈ c.loop.children
  · simp only [callScope, Loop.child, signalEnable_sigchld, Except.ok_bind, hmem, ↓reduceIte,
      Except.error_bind]
    exact .of_fail (.childTracked pid rfl hmem)
  · cases hget : c.loop.events.get? handle.id with
    | none =>
        obtain ⟨e, he⟩ := Recycler.modify_of_none
          (f := fun h : EvHolder Ev => { h with children := h.children.insert pid }) hget
        simp only [callScope, Loop.child, signalEnable_sigchld, Except.ok_bind, hmem, ↓reduceIte,
          he, Except.error_bind, Except.mapError_error]
        exact .of_fail (.scopeVacant handle e hctl hcaller hget)
    | some holder =>
        obtain ⟨events, he, hset⟩ := Recycler.modify_spec
          (fun h : EvHolder Ev => { h with children := h.children.insert pid }) hget
        simp only [callScope, Loop.child, signalEnable_sigchld, Except.ok_bind, hmem, ↓reduceIte,
          he, Except.pure_eq_ok, Except.mapError_ok]
        exact .of_edit (.tracked pid handle holder events rfl hctl hcaller hget hmem hset)

theorem callScope_sound (c : Config Ev) (handle : Handle) (op : ScopeOp) (hctl : c.ctl = .user)
    (hcaller : c.caller = some handle) :
    Sound (.call (.scope op)) c (c.callScope handle op) := by
  cases op with
  | handle => exact .of_edit (.query _ _ rfl hctl trivial)
  | timeoutAt when => exact timeoutAt_sound c _ handle when hctl hcaller rfl
  | timeoutAfter after =>
      by_cases hpast : c.loop.now + after < INSTANT_END
      · simp only [callScope, Loop.timeoutAfter, hpast, ↓reduceIte]
        exact timeoutAt_sound c _ handle _ hctl hcaller rfl
      · simp only [callScope, Loop.timeoutAfter, hpast, ↓reduceIte, Except.error_bind]
        exact .of_fail (.overflow after rfl (Nat.le_of_not_lt hpast))
  | signal signal =>
      rcases signalEnable_cases c.loop signal with ⟨hon, henable⟩ | ⟨hoff, hsignal, henable⟩
      · simp only [callScope, Loop.signal, henable, Except.ok_bind, Except.pure_eq_ok]
        exact .of_edit (.signalled signal handle rfl hctl hcaller hon)
      · simp only [callScope, Loop.signal, henable, Except.error_bind]
        exact .of_fail (.uncatchable signal (.inl rfl) hoff hsignal)
  | idle => exact .of_edit (.idled handle rfl hctl hcaller)
  | expectMessage tp =>
      cases hget : c.loop.events.get? handle.id with
      | none =>
          obtain ⟨e, he⟩ := Recycler.modify_of_none (f := fun h : EvHolder Ev =>
            { h with expectedMessages := h.expectedMessages.insert tp }) hget
          simp only [callScope, Loop.expectMessage, he, Except.error_bind, Except.mapError_error]
          exact .of_fail (.scopeVacant handle e hctl hcaller hget)
      | some holder =>
          obtain ⟨events, he, hset⟩ := Recycler.modify_spec (fun h : EvHolder Ev =>
            { h with expectedMessages := h.expectedMessages.insert tp }) hget
          simp only [callScope, Loop.expectMessage, he, Except.ok_bind, Except.pure_eq_ok,
            Except.mapError_ok]
          exact .of_edit (.expected tp handle holder events rfl hctl hcaller hget hset)
  | ioRegisterAny growth outcome => exact ioRegisterAny_sound c handle growth outcome hctl hcaller
  | ioMut id left =>
      cases hget : c.loop.events.get? handle.id with
      | none =>
          obtain ⟨e, he⟩ := Recycler.index_of_none hget
          simp only [callScope, Loop.ioMut, he, Except.error_bind, Except.mapError_error]
          exact .of_fail (.scopeVacant handle e hctl hcaller hget)
      | some holder =>
          cases hheld : holder.ios.lookup id.idx with
          | none =>
              simp only [callScope, Loop.ioMut, Recycler.index_eq_ok.mpr hget, hheld,
                Except.ok_bind, Except.pure_eq_ok, Except.mapError_ok]
              exact .of_edit (.refusal _ _ rfl hctl trivial)
          | some io =>
              simp only [callScope, Loop.ioMut, Recycler.index_eq_ok.mpr hget, hheld,
                Except.ok_bind, Except.pure_eq_ok, Except.mapError_ok]
              exact .of_edit (.lent id left handle holder io rfl hctl hcaller hget hheld)
  | ioUpdate id outcome =>
      rcases ioIdx_cases c.loop handle id with
        ⟨hget, e, hidx⟩ | ⟨holder, hget, ⟨_, hidx⟩ | ⟨_, hidx⟩⟩
      · simp only [callScope, Loop.ioUpdate, hidx, Except.error_bind]
        exact .of_fail (.scopeVacant handle e hctl hcaller hget)
      · cases outcome with
        | none =>
            simp only [callScope, Loop.ioUpdate, hidx, Except.ok_bind, Except.pure_eq_ok,
              Except.map]
            exact .of_edit (.query _ _ rfl hctl trivial)
        | some err =>
            simp only [callScope, Loop.ioUpdate, hidx, Except.ok_bind, Except.pure_eq_ok,
              Except.map]
            exact .of_edit (.refusal _ _ rfl hctl trivial)
      · simp only [callScope, Loop.ioUpdate, hidx, Except.ok_bind, Except.pure_eq_ok, Except.map]
        exact .of_edit (.refusal _ _ rfl hctl trivial)
  | ioRemove id outcome => exact ioRemove_sound c handle id outcome hctl hcaller
  | backgroundSubmit => exact .of_edit (.submitted handle rfl hctl hcaller)
  | child pid => exact child_sound c handle pid hctl hcaller

theorem callOwner_sound (c : Config Ev) (op : OwnerOp) (hctl : c.ctl = .user) :
    Sound (.call (.owner op)) c (c.callOwner op) := by
  cases op with
  | poolThreadCountSet cnt =>
      cases cnt with
      | zero => exact .of_fail (.poolEmpty rfl)
      | succ n =>
          simp only [callOwner, poolThreadCountSet_eq c.loop (Nat.succ_ne_zero n), Except.ok_bind,
            Except.pure_eq_ok]
          exact .of_edit (.poolSet (n + 1) rfl hctl)
  | signalEnable signal =>
      rcases signalEnable_cases c.loop signal with ⟨hon, henable⟩ | ⟨hoff, hsignal, henable⟩
      · simp only [callOwner, henable, Except.ok_bind, Except.pure_eq_ok]
        exact .of_edit (.enabled signal rfl hctl hon)
      · simp only [callOwner, henable, Except.error_bind]
        exact .of_fail (.uncatchable signal (.inr rfl) hoff hsignal)

/-! ## Calls of events -/

theorem enter_sound (c : Config Ev) (handle : Handle) (cb : Callback)
    (hctl : c.ctl = .call handle cb) : Sound .tick c (c.enter handle cb) := by
  cases hget : c.loop.events.get? handle.id with
  | none =>
      simp only [enter, eventCallEnter, hget, Except.ok_bind, Except.pure_eq_ok]
      exact .of_edit (.turnedAway handle cb .missing rfl hctl
        (.inl ⟨rfl, by simp [eventAlive, hget]⟩))
  | some holder =>
      by_cases hgen : holder.generation = handle.generation
      · cases hstolen : holder.event.stolen with
        | true =>
            simp only [enter, eventCallEnter, hget, hgen, hstolen, ne_eq, not_true_eq_false,
              ↓reduceIte, Except.ok_bind, Except.pure_eq_ok]
            exact .of_edit (.turnedAway handle cb .busy rfl hctl
              (.inr ⟨rfl, holder, hget, hgen, hstolen⟩))
        | false =>
            obtain ⟨events, he, hset⟩ := Recycler.modify_spec (fun h : EvHolder Ev =>
              { h with event := { holder.event with stolen := true } }) hget
            simp only [enter, eventCallEnter, hget, hgen, hstolen, StolenCell.steal, he, ne_eq,
              not_true_eq_false, Bool.false_eq_true, ↓reduceIte, Except.ok_bind, Except.pure_eq_ok,
              Except.mapError_ok]
            exact .of_edit (.entered handle cb holder events rfl hctl hget hgen hstolen hset)
      · simp only [enter, eventCallEnter, hget, hgen, ne_eq, not_false_eq_true, ↓reduceIte,
          Except.ok_bind, Except.pure_eq_ok]
        exact .of_edit (.turnedAway handle cb .missing rfl hctl
          (.inl ⟨rfl, by simp [eventAlive, hget, hgen]⟩))

/-- `event_kill` of the event that a callback has just returned from. -/
theorem eventKill_sound (c : Config Ev) (handle : Handle) (resp : Response)
    (result : Except Error Unit) (deregisters : Bool) (handler : Except Error Unit)
    (hctl : c.ctl = .settle handle resp)
    (hresp : (resp = .ok false ∧ result = .ok ()) ∨
      ∃ err, resp = .error err ∧ result = handler) :
    Sound (.settle deregisters handler) c (do
      let (_, l) ← c.loop.eventKill handle.id deregisters
      return { c with loop := l, ctl := .ret result, log := .killed handle :: c.log }) := by
  cases hget : c.loop.events.get? handle.id with
  | none =>
      obtain ⟨e, he⟩ := Recycler.release_of_none hget
      simp only [eventKill, he, Except.error_bind, Except.mapError_error]
      exact .of_fail (.settleVacant handle resp e hctl hget)
  | some holder =>
      obtain ⟨events, he, hset⟩ := Recycler.release_spec hget
      by_cases hde : deregisters = false ∧ holder.ios.keys ≠ []
      · simp only [eventKill, he, hde, ne_eq, not_false_eq_true, and_self, ↓reduceIte,
          Except.ok_bind, Except.error_bind, Except.mapError_ok]
        exact .of_fail (.deregister handler rfl)
      · cases hstolen : holder.event.stolen with
        | true =>
            simp only [eventKill, he, hde, ↓reduceIte, StolenCell.intoInner, hstolen,
              Except.ok_bind, Except.error_bind, Except.mapError_ok, Except.mapError_error]
            exact .of_fail (.settleStolen handle resp holder hctl hget hstolen)
        | false =>
            simp only [eventKill, he, hde, ↓reduceIte, StolenCell.intoInner, hstolen,
              Bool.false_eq_true, Except.ok_bind, Except.pure_eq_ok, Except.mapError_ok]
            exact .of_edit (.killed handle resp result holder events deregisters handler rfl hctl
              hresp hget hstolen hset)

theorem settle_sound (c : Config Ev) (handle : Handle) (resp : Response) (deregisters : Bool)
    (handler : Except Error Unit) (hctl : c.ctl = .settle handle resp) :
    Sound (.settle deregisters handler) c (c.settle handle resp deregisters handler) := by
  rcases resp with err | _ | _
  · exact eventKill_sound c handle _ _ deregisters handler hctl (.inr ⟨err, rfl, rfl⟩)
  · exact eventKill_sound c handle _ _ deregisters handler hctl (.inl ⟨rfl, rfl⟩)
  · exact .of_edit (.kept handle trivial hctl)

/-! ## Tasks of the queue -/

theorem popTask_sound (c : Config Ev) (task : Task) (rest : List Task) (hctl : c.ctl = .runOne)
    (hsched : c.loop.scheduled = task :: rest) : Sound .tick c (c.popTask task rest) := by
  have halive : ({ c.loop with scheduled := rest } : Loop Ev).eventAlive task.recipient =
      c.loop.eventAlive task.recipient := rfl
  cases hdead : c.loop.eventAlive task.recipient with
  | false =>
      simp only [popTask, halive, hdead, Bool.false_eq_true, ↓reduceIte]
      exact .of_edit (.dropped task rest rfl hctl hsched hdead)
  | true =>
      obtain ⟨holder, hget, hgen⟩ := eventAlive_iff.mp hdead
      rcases task with ⟨recipient, param⟩
      simp only at hget hgen
      cases param with
      | io id ready source =>
          by_cases hmem : id.idx ∈ holder.ios
          · simp only [popTask, halive, hdead, ↓reduceIte, taskCallback,
              Recycler.index_eq_ok.mpr hget, hmem, Except.ok_bind, Except.pure_eq_ok,
              Except.mapError_ok]
            refine .of_edit (.passed _ rest holder rfl hctl hsched hget hgen (fun h => h) ?_)
            rintro _ _ _ ⟨⟩
            exact hmem
          · simp only [popTask, halive, hdead, ↓reduceIte, taskCallback,
              Recycler.index_eq_ok.mpr hget, hmem, Except.ok_bind, Except.pure_eq_ok,
              Except.mapError_ok]
            exact .of_edit (.lost _ rest id ready source holder rfl hctl hsched rfl hget hgen hmem)
      | timeout id =>
          cases hleft : holder.timeouts with
          | zero =>
              simp only [popTask, halive, hdead, ↓reduceIte, taskCallback,
                Recycler.index_eq_ok.mpr hget, hleft, checkedSub, Except.ok_bind,
                Except.mapError_ok]
              exact .of_fail (.fireUnderflow _ rest id holder hctl hsched rfl hget hgen hleft)
          | succ left =>
              obtain ⟨events, he, hset⟩ := Recycler.modify_spec (fun h : EvHolder Ev =>
                { h with timeouts := left }) hget
              simp only [popTask, halive, hdead, ↓reduceIte, taskCallback,
                Recycler.index_eq_ok.mpr hget, hleft, checkedSub, Nat.le_add_left, he,
                Nat.add_sub_cancel, Except.ok_bind, Except.pure_eq_ok, Except.mapError_ok]
              exact .of_edit
                (.fired _ rest id left holder events rfl hctl hsched rfl hget hgen hleft hset)
      | _ =>
          simp only [popTask, halive, hdead, ↓reduceIte, taskCallback, Except.ok_bind,
            Except.pure_eq_ok]
          exact .of_edit (.passed _ rest holder rfl hctl hsched hget hgen (fun h => h)
            nofun)

theorem resume_edit {c c' : Config Ev} {result : Except Error Unit} (hctl : c.ctl = .ret result)
    (h : c.resume result = .ok c') : Edit .tick c c' := by
  unfold resume at h
  split at h
  · rename_i frame rest hstack
    have back (ans : Answer) (hf : frame.callee = none) :
        Edit .tick c (c.giveBack frame rest ans) :=
      .gaveBack frame rest result ans rfl hctl hstack hf
    cases frame with
    | callback handle cb data => cases h
    | insertExact handle => cases h; exact back _ rfl
    | postImpl => cases h; exact back _ rfl
    | runOne => cases h; exact back _ rfl
    | run =>
        cases result with
        | error err => cases h; exact back _ rfl
        | ok u =>
            simp only at h
            split at h
            · cases h; exact .again rfl hctl
            · cases h; exact back _ rfl
    | runUntilEmpty =>
        cases result with
        | error err =>
            cases err <;> (cases h; exact back _ rfl)
        | ok u =>
            simp only at h
            split at h
            · cases h; exact .again rfl hctl
            · cases h; exact back _ rfl
    | runUntilComplete handle =>
        cases result with
        | error err => cases h; exact back _ rfl
        | ok u =>
            simp only at h
            split at h
            · cases h; exact .again rfl hctl
            · cases h; exact back _ rfl
  · cases h

theorem resume_error {c : Config Ev} {result : Except Error Unit} {f : Fault}
    (h : c.resume result = .error f) : f = .disabled := by
  unfold resume at h
  repeat' split at h
  all_goals first | cases h; rfl | cases h
end Eveboros.Config
