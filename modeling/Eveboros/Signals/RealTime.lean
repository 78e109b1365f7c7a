import Eveboros.Recycler.History
import Eveboros.Signals.FailedGather

/-!
# Children killed by a real-time signal

`waitpid` panics over a child that died of a real-time signal.  A gather asks for the children only
after SIGCHLD, and up to the first answer that is not about a child.
-/

namespace Eveboros.Loop

universe u

variable {Ev : Type} {l l' : Loop Ev} {waits : List WaitResult}

/-- Reaping comes to a child whose status cannot be decoded. -/
def undecodable : List WaitResult → Bool
  | [] => false
  | answer :: answers =>
      match answer with
      | .ok (.realTime _ _) => true
      | .ok (.exited _ _) | .ok (.signaled _ _ _) | .ok .other => undecodable answers
      | .ok .stillAlive | .error _ => false

/-- `x` fails over `waitpid` only if `P`, and does not end well if `P`. -/
structure StopsIf {β : Type u} (P : Prop) (x : Except Panic β) : Prop where
  only : x = .error .waitpid → P
  whenever : P → ∀ b, x ≠ .ok b

namespace StopsIf

variable {β γ : Type u} {P Q : Prop} {x : Except Panic β}

theorem of_ok {b : β} (h : ¬P) : StopsIf P (.ok b : Except Panic β) :=
  ⟨nofun, fun hp => absurd hp h⟩

theorem congr (h : StopsIf P x) (hiff : P ↔ Q) : StopsIf Q x :=
  ⟨fun hx => hiff.mp (h.only hx), fun hq => h.whenever (hiff.mpr hq)⟩

theorem bind {f : β → Except Panic γ} (hx : x = .error .waitpid → P)
    (hf : ∀ b, x = .ok b → StopsIf P (f b)) : StopsIf P (x >>= f) where
  only h := by
    rcases Except.bind_eq_error.mp h with h | ⟨b, hb, h⟩
    · exact hx h
    · exact (hf b hb).only h
  whenever hp c h := by
    obtain ⟨b, hb, h⟩ := Except.bind_eq_ok.mp h
    exact (hf b hb).whenever hp c h

/-- After something that has nothing to do with `waitpid`. -/
theorem after {f : β → Except Panic γ} (hx : x ≠ .error .waitpid)
    (hf : ∀ b, x = .ok b → StopsIf P (f b)) : StopsIf P (x >>= f) :=
  .bind (fun h => absurd h hx) hf

end StopsIf

/-! ## What does not ask `waitpid` -/

theorem mapError_ne_waitpid {ε β : Type*} {f : ε → Panic} (hf : ∀ e, f e ≠ .waitpid)
    (x : Except ε β) : x.mapError f ≠ .error .waitpid := by
  intro h
  obtain ⟨e, _, he⟩ := Except.mapError_eq_error.mp h
  exact hf e he

theorem childPush_ne_waitpid (l : Loop Ev) (pid : Pid) (exit : ChildExit) :
    l.childPush pid exit ≠ .error .waitpid := by
  intro h
  unfold childPush at h
  split at h
  · cases h
  · rcases Except.bind_eq_error.mp h with h | ⟨holder, _, h⟩
    · exact mapError_ne_waitpid (by simp) _ h
    · split at h
      · cases h
      · rcases Except.bind_eq_error.mp h with h | ⟨_, _, h⟩
        · exact mapError_ne_waitpid (by simp) _ h
        · cases h

theorem gatherMessage_ne_waitpid (l : Loop Ev) (m : RemoteMessage) :
    l.gatherMessage m ≠ .error .waitpid := by
  intro h
  unfold gatherMessage at h
  split at h
  · cases h
  · rcases Except.bind_eq_error.mp h with h | ⟨_, _, h⟩
    · unfold msgTypeCheck at h
      split at h
      · cases h
      · rcases Except.bind_eq_error.mp h with h | ⟨_, _, h⟩
        · exact mapError_ne_waitpid (by simp) _ h
        · cases h
    · cases h

theorem gatherMessages_ne_waitpid (ms : List RemoteMessage) (l : Loop Ev) :
    gatherMessages ms l ≠ .error .waitpid := by
  induction ms generalizing l with
  | nil => nofun
  | cons m rest ih =>
      intro h
      rcases Except.bind_eq_error.mp h with h | ⟨l₁, _, h⟩
      · exact gatherMessage_ne_waitpid _ m h
      · exact ih l₁ h

theorem releaseIds_ne_waitpid (ids : List Nat) (ios : Recycler Handle) :
    releaseIds ids ios ≠ .error .waitpid := by
  induction ids generalizing ios with
  | nil => nofun
  | cons id rest ih =>
      intro h
      rcases Except.bind_eq_error.mp h with h | ⟨p, _, h⟩
      · exact mapError_ne_waitpid (by simp) _ h
      · exact ih p.2 h

theorem drainReleased_ne_waitpid (l : Loop Ev) : l.drainReleased ≠ .error .waitpid := by
  intro h
  rcases Except.bind_eq_error.mp h with h | ⟨_, _, h⟩
  · exact releaseIds_ne_waitpid _ _ h
  · cases h

theorem timersCleanup_ne_waitpid (l : Loop Ev) : l.timersCleanup ≠ .error .waitpid := by
  intro h
  cases Config.timerStats_error (Config.timersCleanup_error h)

/-! ## Reaping -/

theorem childrenGather_stops (waits : List WaitResult) (l : Loop Ev) :
    StopsIf (undecodable waits = true) (childrenGather waits l) := by
  induction waits generalizing l with
  | nil => exact .of_ok nofun
  | cons answer answers ih =>
      unfold childrenGather
      split
      · exact .of_ok nofun
      · exact .of_ok nofun
      · exact .of_ok nofun
      · exact .of_ok nofun
      · exact .after (childPush_ne_waitpid l _ _) fun l₁ _ => ih l₁
      · exact .after (childPush_ne_waitpid l _ _) fun l₁ _ => ih l₁
      · exact ⟨fun _ => rfl, nofun⟩
      · exact ih l

theorem scanSignal_reaps (waits : List WaitResult) (l : Loop Ev) (signum : Nat) :
    StopsIf (signum = Signal.SIGCHLD.num ∧ l.signalFlags signum = true ∧ undecodable waits = true)
      (l.scanSignal waits signum) := by
  unfold scanSignal
  split
  · rename_i hflag
    cases hsignal : Signal.fromCInt signum with
    | none =>
        refine .of_ok fun h => ?_
        rw [h.1, Signal.fromCInt_num] at hsignal
        cases hsignal
    | some signal =>
        have hnum := Signal.num_of_fromCInt hsignal
        simp only
        split
        · rename_i hchld
          subst hchld
          refine (StopsIf.bind (childrenGather_stops waits (l.clearFlag signum)).only
            fun b hb => .of_ok fun h => ?_).congr ?_
          · exact (childrenGather_stops waits _).whenever h b hb
          · simp [hflag, hnum]
        · rename_i hother
          refine .of_ok fun h => hother (Signal.eq_of_num ?_)
          rw [hnum, h.1]
  · rename_i hflag
    exact .of_ok fun h => hflag h.2.1

theorem scanSignals_reaps (waits : List WaitResult) {signums : List Nat}
    (hknown : ∀ signum ∈ signums, l.signalFlags signum = true → Signal.fromCInt signum ≠ none) :
    StopsIf (Signal.SIGCHLD.num ∈ signums ∧ l.signalFlags Signal.SIGCHLD.num = true ∧
      undecodable waits = true) (scanSignals waits signums l) := by
  induction signums generalizing l with
  | nil => exact .of_ok fun h => absurd h.1 List.not_mem_nil
  | cons signum rest ih =>
      have hscan := scanSignal_reaps waits l signum
      refine .bind (fun h => ?_) ?_
      · obtain ⟨rfl, hflag, hwaits⟩ := hscan.only h
        exact ⟨List.mem_cons_self, hflag, hwaits⟩
      rintro ⟨scanned, l₁⟩ hok
      have hfine := fun h => hscan.whenever h _ hok
      cases scanned with
      | error err =>
          refine .of_ok fun h => ?_
          rcases scanSignal_cases hok with ⟨_, ⟨⟩, _⟩ | ⟨hflag, _, _, hwent⟩
          obtain ⟨_, _, _, hnone | hchld⟩ := hwent.resolve_left (by rintro ⟨_, _, ⟨⟩, _⟩)
          · exact hknown signum List.mem_cons_self hflag hnone
          · exact hfine ⟨hchld, hflag, h.2.2⟩
      | ok _ =>
          have hflags := (scanSignal_swaps hok).flags
          refine (ih fun n hmem hset => hknown n (List.mem_cons_of_mem _ hmem) ?_).congr ?_
          · rw [hflags, Function.update_apply] at hset
            split at hset
            · cases hset
            · exact hset
          by_cases hchld : signum = Signal.SIGCHLD.num
          · -- The flag was clear, or all the answers could be decoded.
            subst hchld
            rw [hflags, Function.update_self]
            exact ⟨fun h => (nomatch h.2.1), fun h => (hfine ⟨rfl, h.2⟩).elim⟩
          · rw [hflags, Function.update_of_ne (Ne.symm hchld)]
            simp [Ne.symm hchld]

/-! ## The whole gather -/

theorem mem_range_sigchld : Signal.SIGCHLD.num ∈ List.range SIG_COUNT := by decide

/-- Zero is the only number in the range that is no signal. -/
theorem known_of_zero (hzero : l.signalFlags 0 = false) :
    ∀ signum ∈ List.range SIG_COUNT, l.signalFlags signum = true →
      Signal.fromCInt signum ≠ none := by
  intro signum hmem hset hnone
  have hpos : 0 < signum := by
    apply Nat.pos_of_ne_zero
    rintro rfl
    rw [hzero] at hset
    cases hset
  simp [Signal.fromCInt, hpos, List.mem_range.mp hmem] at hnone

theorem gatherEvent_ne_waitpid (waits : List WaitResult) (l : Loop Ev) {ev : PollEvent}
    (hsignal : ev.token ≠ SIGNAL_TOK) : l.gatherEvent waits ev ≠ .error .waitpid := by
  intro h
  unfold gatherEvent at h
  split at h
  · rcases Except.bind_eq_error.mp h with h | ⟨_, _, h⟩
    · exact gatherMessages_ne_waitpid _ _ h
    · cases h
  · rcases Except.bind_eq_error.mp h with h | ⟨_, _, h⟩
    · exact mapError_ne_waitpid (by simp) _ h
    · cases h

theorem gatherEvent_deaf {ev : PollEvent} {gathered : Except Error Unit}
    (hsignal : ev.token ≠ SIGNAL_TOK) (h : l.gatherEvent waits ev = .ok (gathered, l')) :
    gathered = .ok () ∧ Deaf l l' := by
  unfold gatherEvent at h
  split at h
  · obtain ⟨l₁, hread, h⟩ := Except.bind_eq_ok.mp h
    cases h
    exact ⟨rfl, allowsMessages_deaf.gatherMessages hread⟩
  · obtain ⟨recipient, _, h⟩ := Except.bind_eq_ok.mp h
    cases h
    exact ⟨rfl, .schedule l recipient (by simp)⟩

theorem tasksGatherIo_reaps (waits : List WaitResult) (evs : List PollEvent)
    (hzero : l.signalFlags 0 = false) :
    StopsIf ((∃ ev ∈ evs, ev.token = SIGNAL_TOK) ∧
      l.signalFlags Signal.SIGCHLD.num = true ∧ undecodable waits = true)
      (tasksGatherIo waits evs l) := by
  induction evs generalizing l with
  | nil => exact .of_ok (by simp)
  | cons ev rest ih =>
      by_cases hsignal : ev.token = SIGNAL_TOK
      · have hev : l.gatherEvent waits ev =
            scanSignals waits (List.range SIG_COUNT) { l with signalWakeup := false } := by
          simp [gatherEvent, hsignal, CHANNEL_TOK, SIGNAL_TOK]
        have hscan := scanSignals_reaps waits (l := { l with signalWakeup := false })
          (known_of_zero hzero)
        refine .bind (fun h => ⟨⟨ev, List.mem_cons_self, hsignal⟩, ?_⟩) ?_
        · exact (hscan.only (hev ▸ h)).2
        rintro ⟨gathered, l₁⟩ hok
        rw [hev] at hok
        have hfine := fun h => hscan.whenever ⟨mem_range_sigchld, h⟩ _ hok
        cases gathered with
        | error err => exact .of_ok fun h => hfine h.2
        | ok _ =>
            obtain ⟨hkept, hcleared⟩ := scanSignals_clears hok
            refine (ih (hkept 0 hzero)).congr ⟨fun h => ?_, fun h => absurd h.2 hfine⟩
            rw [hcleared _ mem_range_sigchld] at h
            cases h.2.1
      · refine .after (gatherEvent_ne_waitpid waits l hsignal) ?_
        rintro ⟨gathered, l₁⟩ hok
        obtain ⟨rfl, hdeaf⟩ := gatherEvent_deaf hsignal hok
        refine (ih (hdeaf.flags ▸ hzero)).congr ?_
        simp [hdeaf.flags, hsignal]

/-- The gather comes to a child that a real-time signal has killed. -/
structure ReapsRealTime (l : Loop Ev) (env : GatherEnv) : Prop where
  /-- The gather gets to the poll. -/
  occupied : l.events.isEmpty = .ok false
  wakeup : ∃ polled, env.poll = .ok polled ∧ ∃ ev ∈ polled, ev.token = SIGNAL_TOK
  flag : l.signalFlags Signal.SIGCHLD.num = true
  undecodable : undecodable env.waits = true

theorem tasksGather_reaps {env : GatherEnv} (hsched : l.scheduled = [])
    (hzero : l.signalFlags 0 = false) : StopsIf (l.ReapsRealTime env) (l.tasksGather env) := by
  unfold tasksGather tasksPoll
  simp only [hsched, ne_eq, not_true_eq_false, ↓reduceIte, bind_assoc]
  refine .after (drainReleased_ne_waitpid l) fun l₁ hdrain => ?_
  obtain ⟨ios, _, ⟨⟩⟩ := Except.bind_eq_ok.mp hdrain
  refine .after (mapError_ne_waitpid (by simp) _) fun empty hempty => ?_
  replace hempty : l.events.isEmpty = .ok empty := Except.mapError_eq_ok.mp hempty
  cases empty with
  | true =>
      refine .of_ok fun h => ?_
      cases hempty.symm.trans h.occupied
  | false =>
      cases hpoll : env.poll with
      | error err =>
          have hnone : ¬l.ReapsRealTime env := fun h => by
            obtain ⟨polled, hok, _⟩ := h.wakeup
            cases hpoll.symm.trans hok
          cases err <;> exact .of_ok hnone
      | ok polled =>
          simp only [Bool.false_eq_true, ↓reduceIte, bind_assoc]
          have hiff : l.ReapsRealTime env ↔ (∃ ev ∈ polled, ev.token = SIGNAL_TOK) ∧
              l.signalFlags Signal.SIGCHLD.num = true ∧ undecodable env.waits = true := by
            constructor
            · rintro ⟨_, ⟨_, hok, hev⟩, hflag, hwaits⟩
              cases hpoll.symm.trans hok
              exact ⟨hev, hflag, hwaits⟩
            · rintro ⟨hev, hflag, hwaits⟩
              exact ⟨hempty, ⟨polled, hpoll, hev⟩, hflag, hwaits⟩
          have hio := (tasksGatherIo_reaps env.waits polled
            (l := { ({ l with ios := ios, iosReleased := ∅ }.timeoutMin env.now).2 with
              now := env.wake }) hzero).congr hiff.symm
          refine .bind hio.only ?_
          rintro ⟨gathered, l₂⟩ hok
          have hfine := fun h => hio.whenever h _ hok
          cases gathered with
          | error err => exact .of_ok hfine
          | ok _ =>
              show StopsIf _ (l₂.timersCleanup >>= _)
              exact .after (timersCleanup_ne_waitpid l₂) fun l₃ _ => .of_ok hfine

end Eveboros.Loop
