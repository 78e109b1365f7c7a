import Eveboros.Machine.Edit

/-!
# Gathering

A gather is a sequence of elementary changes.  Its parts are functions of the loop alone, so each is
described by the changes that lead from the loop it got to the one it leaves.
-/

namespace Eveboros.Config

open Loop

variable {Ev : Type}

/-- A part of a gather, started on the loop `l`, is made of elementary changes that put no timeout
into the queue. -/
def Traces {β : Type} (a : Action Ev) (c : Config Ev) (l : Loop Ev) (loopOf : β → Loop Ev) :
    Except Panic β → Prop
  | .ok b => Edits a { c with loop := l } { c with loop := loopOf b } ∧
      (l.NoTimeouts → (loopOf b).NoTimeouts)
  | .error p => ∃ c', Edits a { c with loop := l } c' ∧ Fail a c' p

section Traces

variable {β γ : Type} {a : Action Ev} {c : Config Ev} {l : Loop Ev}

theorem Traces.same {loopOf : β → Loop Ev} {b : β} (h : loopOf b = l) :
    Traces a c l loopOf (.ok b) := by
  rw [Traces, h]
  exact ⟨.refl, id⟩

theorem Traces.of_edit {loopOf : β → Loop Ev} {b : β}
    (h : Edit a { c with loop := l } { c with loop := loopOf b })
    (hq : l.NoTimeouts → (loopOf b).NoTimeouts) : Traces a c l loopOf (.ok b) :=
  ⟨.single h, hq⟩

theorem Traces.of_fail {loopOf : β → Loop Ev} {p : Panic}
    (h : Fail a { c with loop := l } p) : Traces a c l loopOf (.error p) :=
  ⟨_, .refl, h⟩

theorem Traces.bind {loopOf : β → Loop Ev} {loopOf' : γ → Loop Ev} {x : Except Panic β}
    {f : β → Except Panic γ} (hx : Traces a c l loopOf x)
    (hf : ∀ b, x = .ok b → Traces a c (loopOf b) loopOf' (f b)) :
    Traces a c l loopOf' (x >>= f) := by
  cases x with
  | error p => exact hx
  | ok b =>
      rcases hx with ⟨hsteps, hqueue⟩
      have hb := hf b rfl
      change Traces a c l loopOf' (f b)
      cases hfb : f b with
      | error p =>
          rw [hfb] at hb
          rcases hb with ⟨c', hsteps', hfail⟩
          exact ⟨c', hsteps.trans hsteps', hfail⟩
      | ok d =>
          rw [hfb] at hb
          exact ⟨hsteps.trans hb.1, fun h => hb.2 (hqueue h)⟩

/-- Put a first part in front. -/
theorem Traces.after {loopOf : β → Loop Ev} {loopOf' : γ → Loop Ev} {b : β}
    {x : Except Panic γ} (hfirst : Traces a c l loopOf (.ok b))
    (hthen : Traces a c (loopOf b) loopOf' x) : Traces a c l loopOf' x := by
  change Traces a c l loopOf' (Except.ok b >>= fun _ => x)
  refine hfirst.bind fun _ h => ?_
  cases h
  exact hthen

end Traces

theorem noTimeouts_schedule {l : Loop Ev} {recipient : Handle} {param : TaskParam}
    (h : l.NoTimeouts) (hp : ¬param.IsTimeout) : (l.schedule recipient param).NoTimeouts := by
  intro task ht
  rcases List.mem_append.mp ht with ht | ht
  · exact h task ht
  · obtain rfl := List.mem_singleton.mp ht
    exact hp

theorem releaseIds_ok {ids : List Nat} {ios ios' : Recycler Handle} (hnd : ids.Nodup)
    (h : releaseIds ids ios = .ok ios') :
    (∀ idx ∈ ids, ios.get? idx ≠ none) ∧
      ∀ idx, ios'.get? idx = if idx ∈ ids then none else ios.get? idx := by
  induction ids generalizing ios with
  | nil => cases h; simp
  | cons id rest ih =>
      obtain ⟨hid, hrest⟩ := List.nodup_cons.mp hnd
      obtain ⟨⟨owner, mid⟩, hrel, h⟩ := Except.bind_eq_ok.mp h
      obtain ⟨hget, hset⟩ := Recycler.release_ok (Except.mapError_eq_ok.mp hrel)
      obtain ⟨hheld, hios⟩ := ih hrest h
      constructor
      · intro idx hidx
        rcases List.mem_cons.mp hidx with rfl | hidx
        · simp [hget]
        · have hne : idx ≠ id := fun heq => hid (heq ▸ hidx)
          simpa [hset.get? idx, hne] using hheld idx hidx
      · intro idx
        by_cases heq : idx = id
        · subst heq
          simp [hios idx, hset.get? idx]
        · simp [hios idx, hset.get? idx, heq]

theorem releaseIds_error {ids : List Nat} {ios : Recycler Handle} {p : Panic} (hnd : ids.Nodup)
    (h : releaseIds ids ios = .error p) : ∃ idx ∈ ids, ios.get? idx = none ∧ ∃ e, p = .ios e := by
  induction ids generalizing ios with
  | nil => cases h
  | cons id rest ih =>
      obtain ⟨hid, hrest⟩ := List.nodup_cons.mp hnd
      rcases Except.bind_eq_error.mp h with hrel | ⟨⟨owner, mid⟩, hrel, h⟩
      · obtain ⟨e, he, rfl⟩ := Except.mapError_eq_error.mp hrel
        exact ⟨id, by simp, Recycler.release_error he, e, rfl⟩
      · obtain ⟨_, hset⟩ := Recycler.release_ok (Except.mapError_eq_ok.mp hrel)
        obtain ⟨idx, hidx, hnone, he⟩ := ih hrest h
        have hne : idx ≠ id := fun heq => hid (heq ▸ hidx)
        exact ⟨idx, by simp [hidx], by simpa [hset.get? idx, hne] using hnone, he⟩

variable {c : Config Ev} {env : GatherEnv}

/-- A child that nobody waits for is thrown away. -/
theorem childPush_untracked {l : Loop Ev} {pid : Pid} (exit : ChildExit)
    (hlookup : l.children.lookup pid = none) : l.childPush pid exit = .ok l := by
  simp only [childPush, hlookup]

theorem childPush_tracked {l : Loop Ev} {pid : Pid} {handle : Handle} {holder : EvHolder Ev}
    (exit : ChildExit) (hlookup : l.children.lookup pid = some handle)
    (hget : l.events.get? handle.id = some holder) (hmem : pid ∈ holder.children) :
    ∃ events, l.events.Sets handle.id
        (some { holder with children := holder.children.erase pid }) events ∧
      l.childPush pid exit = .ok ({ l with
        children := l.children.erase pid, events := events }.schedule handle
          (.child pid exit)) := by
  obtain ⟨events, he, hset⟩ := Recycler.modify_spec (fun h : EvHolder Ev =>
    { h with children := h.children.erase pid }) hget
  refine ⟨events, hset, ?_⟩
  simp only [childPush, hlookup, Recycler.index_eq_ok.mpr hget, hmem, not_true_eq_false,
    ↓reduceIte, he, Except.ok_bind, Except.pure_eq_ok, Except.mapError_ok]

theorem childPush_traces (hctl : c.ctl = .runOne) (l : Loop Ev) (pid : Pid) (exit : ChildExit) :
    Traces (.gather env) c l id (l.childPush pid exit) := by
  cases hlookup : l.children.lookup pid with
  | none =>
      rw [childPush_untracked exit hlookup]
      exact .same rfl
  | some handle =>
      cases hget : l.events.get? handle.id with
      | none =>
          obtain ⟨e, he⟩ := Recycler.index_of_none hget
          simp only [childPush, hlookup, he, Except.error_bind, Except.mapError_error]
          exact .of_fail (.childVacant pid handle e hlookup hget)
      | some holder =>
          by_cases hmem : pid ∈ holder.children
          · obtain ⟨events, hset, hpush⟩ := childPush_tracked exit hlookup hget hmem
            rw [hpush]
            exact .of_edit
              (.reaped pid exit handle holder events trivial hctl hlookup hget hmem hset)
              fun h => noTimeouts_schedule h fun h => h
          · simp only [childPush, hlookup, Recycler.index_eq_ok.mpr hget, hmem, not_false_eq_true,
              ↓reduceIte, Except.ok_bind, Except.mapError_ok]
            exact .of_fail (.childUnlinked pid handle holder hlookup hget hmem)

theorem childrenGather_traces (hctl : c.ctl = .runOne) (waits : List WaitResult)
    (hwaits : waits ⊆ env.waits) (l : Loop Ev) :
    Traces (.gather env) c l Prod.snd (childrenGather waits l) := by
  induction waits generalizing l with
  | nil => exact .same rfl
  | cons answer answers ih =>
      obtain ⟨hanswer, hanswers⟩ := List.cons_subset.mp hwaits
      unfold childrenGather
      split
      · exact .same rfl
      · exact .same rfl
      · exact .same rfl
      · exact .same rfl
      · exact (childPush_traces hctl l _ _).bind fun l' _ => ih hanswers l'
      · exact (childPush_traces hctl l _ _).bind fun l' _ => ih hanswers l'
      · exact .of_fail (.undecodable env _ _ rfl hanswer)
      · exact ih hanswers l

theorem broadcast_traces (hctl : c.ctl = .runOne) (l : Loop Ev) (signal : Signal) :
    Traces (.gather env) c l Prod.snd
      (.ok ((.ok () : Except Error Unit), l.scheduleSignal signal)) := by
  refine .of_edit (.broadcast signal trivial hctl) fun h task ht => ?_
  rcases List.mem_append.mp ht with ht | ht
  · exact h task ht
  · obtain ⟨_, _, rfl⟩ := List.mem_map.mp ht
    exact fun h => h

theorem scanSignal_traces (hctl : c.ctl = .runOne) {waits : List WaitResult}
    (hwaits : waits ⊆ env.waits) (l : Loop Ev) (signum : Nat) :
    Traces (.gather env) c l Prod.snd (l.scanSignal waits signum) := by
  unfold scanSignal
  cases hflag : l.signalFlags signum with
  | false =>
      simp only [Bool.false_eq_true, ↓reduceIte]
      exact .same rfl
  | true =>
      simp only [↓reduceIte]
      have hclear : Traces (.gather env) c l id (.ok (l.clearFlag signum)) :=
        .of_edit (.flagCleared signum trivial hctl) id
      cases hsig : Signal.fromCInt signum with
      | none => exact hclear
      | some signal =>
          apply hclear.after
          by_cases hchld : signal = .SIGCHLD
          · simp only [hchld, ↓reduceIte]
            apply (childrenGather_traces hctl waits hwaits _).bind
            rintro ⟨_ | _, l'⟩ _
            · exact .same rfl
            · exact broadcast_traces hctl l' _
          · simp only [hchld, ↓reduceIte, Except.ok_bind, Except.pure_eq_ok]
            exact broadcast_traces hctl _ signal

theorem scanSignals_traces (hctl : c.ctl = .runOne) {waits : List WaitResult}
    (hwaits : waits ⊆ env.waits) (signums : List Nat) (l : Loop Ev) :
    Traces (.gather env) c l Prod.snd (scanSignals waits signums l) := by
  induction signums generalizing l with
  | nil => exact .same rfl
  | cons signum rest ih =>
      apply (scanSignal_traces hctl hwaits l signum).bind
      rintro ⟨scanned, l'⟩ _
      cases scanned with
      | error err => exact .same rfl
      | ok u => exact ih l'

/-- A message that is not a result is scheduled if the recipient expects it. -/
theorem gatherMessage_of_expected {l : Loop Ev} {m : RemoteMessage}
    (hmode : ∀ id, m.mode ≠ .background id)
    (hcheck : l.msgTypeCheck m.recipient m.realType = .ok (.ok ())) :
    l.gatherMessage m = .ok (l.schedule m.recipient (.message ⟨m.data, m.realType, m.mode⟩)) := by
  unfold gatherMessage
  cases hm : m.mode with
  | background id => exact absurd hm (hmode id)
  | _ => simp only [hcheck, Except.ok_bind, Except.pure_eq_ok]

/-- Otherwise it is dropped. -/
theorem gatherMessage_of_refused {l : Loop Ev} {m : RemoteMessage} {err : Error}
    (hmode : ∀ id, m.mode ≠ .background id)
    (hcheck : l.msgTypeCheck m.recipient m.realType = .ok (.error err)) :
    l.gatherMessage m = .ok l := by
  unfold gatherMessage
  cases hm : m.mode with
  | background id => exact absurd hm (hmode id)
  | _ => simp only [hcheck, Except.ok_bind, Except.pure_eq_ok]

theorem gatherMessage_traces (hctl : c.ctl = .runOne) (l : Loop Ev) (m : RemoteMessage)
    (rest : List RemoteMessage) (hrecv : l.receiver = m :: rest) :
    Traces (.gather env) c l id ({ l with receiver := rest }.gatherMessage m) := by
  have pass (hpass : (∃ id, m.mode = .background id) ∨
      ∃ holder, l.events.get? m.recipient.id = some holder ∧
        holder.generation = m.recipient.generation ∧ m.realType ∈ holder.expectedMessages) :
      Traces (.gather env) c l id (.ok ({ l with receiver := rest }.schedule m.recipient
        (.message ⟨m.data, m.realType, m.mode⟩))) :=
    .of_edit (.received m rest trivial hctl hrecv hpass) fun h => noTimeouts_schedule h fun h => h
  have drop (haway : ∃ err, l.TurnsAway m.recipient m.realType err) :
      Traces (.gather env) c l id (.ok { l with receiver := rest }) :=
    .of_edit (.ignored m rest trivial hctl hrecv haway) id
  have checked (h : ∀ id, m.mode ≠ .background id) :
      Traces (.gather env) c l id ({ l with receiver := rest }.gatherMessage m) := by
    rcases msgTypeCheck_cases { l with receiver := rest } m.recipient m.realType with
      ⟨hdead, hcheck⟩ | ⟨holder, hget, hgen, ⟨hnot, hcheck⟩ | ⟨hmem, hcheck⟩⟩
    · exact gatherMessage_of_refused h hcheck ▸ drop ⟨_, .missing hdead⟩
    · exact gatherMessage_of_refused h hcheck ▸ drop ⟨_, .unexpected holder hget hgen hnot⟩
    · exact gatherMessage_of_expected h hcheck ▸ pass (.inr ⟨holder, hget, hgen, hmem⟩)
  cases hm : m.mode with
  | background id =>
      have hmode : { l with receiver := rest }.gatherMessage m =
          .ok ({ l with receiver := rest }.schedule m.recipient
            (.message ⟨m.data, m.realType, m.mode⟩)) := by
        unfold gatherMessage
        simp [hm, Except.ok_bind, Except.pure_eq_ok]
      rw [hmode]
      exact pass (.inl ⟨id, hm⟩)
  | post sender => exact checked (by simp [hm])
  | send sender => exact checked (by simp [hm])
  | remote => exact checked (by simp [hm])

/-- Reading one message leaves the others in the channel. -/
theorem gatherMessage_receiver {l l' : Loop Ev} {m : RemoteMessage}
    (h : l.gatherMessage m = .ok l') : l'.receiver = l.receiver := by
  unfold gatherMessage at h
  cases hm : m.mode <;> simp only [hm] at h <;>
    (obtain ⟨passed, _, hl⟩ := Except.bind_eq_ok.mp h; cases passed <;> (cases hl; rfl))

theorem gatherMessages_traces (hctl : c.ctl = .runOne) (ms : List RemoteMessage) (l : Loop Ev)
    (hrecv : l.receiver = ms) : Traces (.gather env) c l id (gatherMessages ms l) := by
  induction ms generalizing l with
  | nil => exact .same rfl
  | cons m rest ih =>
      exact (gatherMessage_traces hctl l m rest hrecv).bind fun l' hl' =>
        ih l' (gatherMessage_receiver hl')

theorem gatherEvent_traces (hctl : c.ctl = .runOne) {polled : List PollEvent}
    (hpoll : env.poll = .ok polled) (l : Loop Ev) (ev : PollEvent) (hev : ev ∈ polled) :
    Traces (.gather env) c l Prod.snd (l.gatherEvent env.waits ev) := by
  unfold gatherEvent
  split
  · exact (gatherMessages_traces hctl _ l rfl).bind fun l' _ => .same rfl
  · split
    · have hwake : Traces (.gather env) c l id (.ok { l with signalWakeup := false }) :=
        .of_edit (.wakeupTaken trivial hctl) id
      exact hwake.after (scanSignals_traces hctl (List.Subset.refl _) _ _)
    rename_i hchannel hsignal
    cases hget : l.ios.get? (⟨ev.token, shift_le_token hchannel hsignal⟩ : IoId).idx with
    | none =>
        obtain ⟨e, he⟩ := Recycler.index_of_none hget
        simp only [he, Except.error_bind, Except.mapError_error]
        exact .of_fail (.tokenVacant env ev polled _ e rfl hctl hpoll hev rfl hget)
    | some handle =>
        simp only [Recycler.index_eq_ok.mpr hget, Except.ok_bind, Except.pure_eq_ok,
          Except.mapError_ok]
        exact .of_edit (.ready env ev polled _ handle rfl hctl hpoll hev rfl hget)
          fun h => noTimeouts_schedule h fun h => h

theorem tasksGatherIo_traces (hctl : c.ctl = .runOne) {polled : List PollEvent}
    (hpoll : env.poll = .ok polled) (evs : List PollEvent) (l : Loop Ev) (hevs : evs ⊆ polled) :
    Traces (.gather env) c l Prod.snd (tasksGatherIo env.waits evs l) := by
  induction evs generalizing l with
  | nil => exact .same rfl
  | cons ev rest ih =>
      obtain ⟨hev, hrest⟩ := List.cons_subset.mp hevs
      apply (gatherEvent_traces hctl hpoll l ev hev).bind
      rintro ⟨gathered, l'⟩ _
      cases gathered with
      | error err => exact .same rfl
      | ok u => exact ih l' hrest

theorem drainReleased_traces (hctl : c.ctl = .runOne) (l : Loop Ev) (hsched : l.scheduled = []) :
    Traces (.gather env) c l id l.drainReleased := by
  unfold drainReleased
  cases hrel : releaseIds l.iosReleased.toList l.ios with
  | error p =>
      obtain ⟨idx, hmem, hnone, e, rfl⟩ := releaseIds_error l.iosReleased.nodup hrel
      exact .of_fail (.drainVacant idx e hctl hmem hnone)
  | ok ios =>
      obtain ⟨hheld, hios⟩ := releaseIds_ok l.iosReleased.nodup hrel
      exact .of_edit (.drained ios trivial hctl hsched hheld hios) id

/-- The loop at the end of the poll. -/
def polledLoop : Polled Ev → Loop Ev
  | .ended _ l => l
  | .woken l => l

variable (env) in
theorem tasksPoll_traces (hctl : c.ctl = .runOne) (l : Loop Ev) (hsched : l.scheduled = []) :
    Traces (.gather env) c l polledLoop (l.tasksPoll env) := by
  unfold tasksPoll
  simp only [hsched, ne_eq, not_true_eq_false, ↓reduceIte]
  refine (drainReleased_traces hctl l hsched).bind fun l₁ _ => ?_
  simp only [Recycler.isEmpty, Recycler.len_spec, Except.ok_bind, Except.pure_eq_ok,
    Except.mapError_ok]
  split
  · exact .same rfl
  · have hprune : Traces (.gather env) c l₁ id (.ok (l₁.timeoutMin env.now).2) :=
      .of_edit (.pruned trivial hctl) id
    apply hprune.after
    cases hpoll : env.poll with
    | error err => cases err <;> exact .same rfl
    | ok polled =>
        have hwake : Traces (.gather env) c (l₁.timeoutMin env.now).2 id
            (.ok { (l₁.timeoutMin env.now).2 with now := env.wake }) :=
          .of_edit (.woke env rfl hctl) id
        refine hwake.after ((tasksGatherIo_traces hctl hpoll polled _ (List.Subset.refl _)).bind ?_)
        rintro ⟨gathered, l'⟩ _
        cases gathered <;> exact .same rfl

theorem timersCleanup_edit (hctl : c.ctl = .runOne) (l l' : Loop Ev)
    (hqueue : l.NoTimeouts) (h : l.timersCleanup = .ok l') :
    Edit (.gather env) { c with loop := l } { c with loop := l' } := by
  obtain ⟨⟨dead, alive⟩, hstats, h⟩ := Except.bind_eq_ok.mp h
  simp only at h
  split at h
  · rename_i hmany
    cases h
    exact .rebuilt dead alive trivial hctl hqueue hstats hmany
  · rename_i hfew
    cases h
    exact .cleaned dead alive trivial hctl hqueue hstats hfew

/-- The cleanup fails only in the statistics. -/
theorem timersCleanup_error {l : Loop Ev} {p : Panic} (h : l.timersCleanup = .error p) :
    l.timerStats = .error p := by
  unfold timersCleanup at h
  rcases Except.bind_eq_error.mp h with hstats | ⟨⟨stillDead, stillAlive⟩, _, h⟩
  · exact hstats
  · simp only at h
    split at h <;> cases h

theorem checkedSub_error {a b : Nat} {p : Panic} (h : checkedSub a b = .error p) :
    p = .underflow := by
  unfold checkedSub at h
  split at h
  · cases h
  · cases h; rfl

theorem timerStats_error {l : Loop Ev} {p : Panic} (h : l.timerStats = .error p) :
    p = .underflow := by
  rcases Except.bind_eq_error.mp h with h | ⟨handled, _, h⟩
  · exact checkedSub_error h
  rcases Except.bind_eq_error.mp h with h | ⟨handledDead, _, h⟩
  · exact checkedSub_error h
  rcases Except.bind_eq_error.mp h with h | ⟨stillDead, _, h⟩
  · exact checkedSub_error h
  rcases Except.bind_eq_error.mp h with h | ⟨stillAlive, _, h⟩
  · exact checkedSub_error h
  · cases h

theorem gatherIdle_edits (hctl : c.ctl = .runOne) (l : Loop Ev) :
    Edits (.gather env) { c with loop := l } { c with loop := l.gatherIdle } := by
  unfold gatherIdle
  split
  · rename_i hsched
    split
    · rename_i handle rest hpop
      exact .single (.idleTaken handle rest trivial hctl hsched hpop)
    · exact .refl
  · exact .refl

variable (env) in
theorem tasksGather_sound (hctl : c.ctl = .runOne) (hsched : c.loop.scheduled = []) :
    match c.loop.tasksGather env with
    | .ok (_, l) => Edits (.gather env) c { c with loop := l }
    | .error p => ∃ c', Edits (.gather env) c c' ∧ Fail (.gather env) c' p := by
  have hpoll := tasksPoll_traces env hctl c.loop hsched
  unfold tasksGather
  cases hp : c.loop.tasksPoll env with
  | error p =>
      rw [hp] at hpoll
      exact hpoll
  | ok polled =>
      rw [hp] at hpoll
      rcases hpoll with ⟨hedits, hqueue⟩
      cases polled with
      | ended result l => exact hedits
      | woken l =>
          have hnone : l.NoTimeouts := hqueue fun task ht => by simp [hsched] at ht
          change match (do
              let l ← l.timersCleanup
              return (.ok (), l.tasksGatherTimers.gatherIdle) :
                Except Panic (Except Error Unit × Loop Ev)) with
            | .ok (_, l) => Edits (.gather env) c { c with loop := l }
            | .error p => ∃ c', Edits (.gather env) c c' ∧ Fail (.gather env) c' p
          cases hclean : l.timersCleanup with
          | error p =>
              have hstats := timersCleanup_error hclean
              obtain rfl := timerStats_error hstats
              exact ⟨_, hedits, .statsUnderflow hctl hnone hstats⟩
          | ok l' =>
              have hcleaned : Edit (.gather env) { c with loop := l } { c with loop := l' } :=
                timersCleanup_edit hctl l l' hnone hclean
              have htimed : Edit (.gather env) { c with loop := l' }
                  { c with loop := l'.tasksGatherTimers } := .timed trivial hctl
              exact ((hedits.tail hcleaned).tail htimed).trans (gatherIdle_edits hctl _)
end Eveboros.Config
