import Eveboros.Signals.Wakeup

/-!
# When the scan of the signals fails

The scan stops at the first error.  What it has done before stays done, but the wake-up is taken,
the flag at which it stopped is clear, and the flags after it are set with nobody to notice.
-/

namespace Eveboros.Loop

open Watch

variable {Ev : Type} {l l' l'' : Loop Ev} {waits : List WaitResult} {err : Error}

/-- Each recipient of the signal has got one task for it. -/
def Told (l l' : Loop Ev) (signal : Signal) : Prop :=
  ∀ handle ∈ l.signalRecipients signal.num, l'.scheduled.count ⟨handle, .signal signal⟩ =
    l.scheduled.count ⟨handle, .signal signal⟩ + 1

/-- The next gather will find the signal. -/
def StillPending (l : Loop Ev) (signal : Signal) : Prop :=
  l.signalFlags signal.num = true ∧ l.signalWakeup = true

/-- No signal that was pending in `l` got lost on the way to `l'`. -/
def KeepsSignals (l l' : Loop Ev) : Prop :=
  ∀ signal : Signal, l.signalFlags signal.num = true → Told l l' signal ∨ StillPending l' signal

/-- The number at which the scan of these flags can fail.  Zero is not a signal. -/
def faultySignal (l : Loop Ev) : Nat := if l.signalFlags 0 then 0 else Signal.SIGCHLD.num

/-! ## Steps that have nothing to do with signals -/

/-- The notifier is left alone, and no signal is passed on. -/
structure Deaf (l l' : Loop Ev) : Prop where
  flags : l'.signalFlags = l.signalFlags
  recipients : l'.signalRecipients = l.signalRecipients
  count (handle : Handle) (signal : Signal) : l'.scheduled.count ⟨handle, .signal signal⟩ =
    l.scheduled.count ⟨handle, .signal signal⟩

theorem Deaf.refl (l : Loop Ev) : Deaf l l := ⟨rfl, rfl, fun _ _ => rfl⟩

theorem Deaf.trans (h : Deaf l l') (h' : Deaf l' l'') : Deaf l l'' :=
  ⟨h'.flags.trans h.flags, h'.recipients.trans h.recipients,
    fun handle signal => (h'.count handle signal).trans (h.count handle signal)⟩

theorem Deaf.schedule (l : Loop Ev) (recipient : Handle) {param : TaskParam}
    (h : ∀ signal, param ≠ .signal signal) : Deaf l (l.schedule recipient param) := by
  refine ⟨rfl, rfl, fun handle signal => ?_⟩
  have hne : (⟨recipient, param⟩ : Task) ≠ ⟨handle, .signal signal⟩ := fun heq =>
    h signal (Task.mk.inj heq).2
  simp [Loop.schedule, List.count_append, hne]

theorem Deaf.of_reaps (h : Reaps l l') : Deaf l l' := by
  obtain ⟨exits, hsched, hexits⟩ := h.scheduled
  refine ⟨h.flags, h.recipients, fun handle signal => ?_⟩
  have hnone : exits.count ⟨handle, .signal signal⟩ = 0 := by
    apply List.count_eq_zero.mpr
    intro hmem
    obtain ⟨pid, exit, ⟨⟩⟩ := hexits _ hmem
  rw [hsched, List.count_append, hnone, Nat.add_zero]

theorem allowsMessages_deaf : AllowsMessages (Deaf : Loop Ev → Loop Ev → Prop) where
  refl := .refl
  trans := .trans
  reads _ _ := ⟨rfl, rfl, fun _ _ => rfl⟩
  hands l recipient _ := .schedule l recipient nofun

/-! ## One flag -/

/-- The three ways a swap of a flag can go. -/
theorem scanSignal_cases {signum : Nat} {out : Except Error Unit}
    (h : l.scanSignal waits signum = .ok (out, l')) :
    (l.signalFlags signum = false ∧ out = .ok () ∧ l' = l) ∨
      l.signalFlags signum = true ∧ ∃ l₁, Reaps (l.clearFlag signum) l₁ ∧
        ((∃ signal : Signal, signal.num = signum ∧ out = .ok () ∧ l' = l₁.scheduleSignal signal) ∨
          ∃ err, out = .error err ∧ l' = l₁ ∧
            (Signal.fromCInt signum = none ∨ signum = Signal.SIGCHLD.num)) := by
  cases hflag : l.signalFlags signum with
  | false =>
      obtain ⟨rfl, rfl⟩ := scanSignal_unset hflag h
      exact .inl ⟨rfl, rfl, rfl⟩
  | true =>
      refine .inr ⟨rfl, ?_⟩
      simp only [scanSignal, hflag, ↓reduceIte] at h
      cases hsig : Signal.fromCInt signum with
      | none =>
          simp only [hsig, Except.ok.injEq, Prod.mk.injEq] at h
          obtain ⟨rfl, rfl⟩ := h
          exact ⟨_, .refl _, .inr ⟨_, rfl, rfl, .inl rfl⟩⟩
      | some signal =>
          have hnum := Signal.num_of_fromCInt hsig
          simp only [hsig] at h
          split at h
          · rename_i hchld
            obtain ⟨⟨reaped, l₁⟩, hreap, h⟩ := Except.bind_eq_ok.mp h
            have hreaps := allowsReaping_reaps.childrenGather hreap
            cases reaped with
            | error err =>
                cases h
                exact ⟨_, hreaps, .inr ⟨err, rfl, rfl, .inr (hchld ▸ hnum.symm)⟩⟩
            | ok _ =>
                cases h
                exact ⟨l₁, hreaps, .inl ⟨signal, hnum, rfl, rfl⟩⟩
          · cases h
            exact ⟨_, .refl _, .inl ⟨signal, hnum, rfl, rfl⟩⟩

/-- The swap of this flag went well. -/
structure Swapped (signum : Nat) (l l' : Loop Ev) : Prop where
  flags : l'.signalFlags = Function.update l.signalFlags signum false
  recipients : l'.signalRecipients = l.signalRecipients
  wakeup : l'.signalWakeup = l.signalWakeup
  known : l.signalFlags signum = true → ∃ signal : Signal, signal.num = signum
  count (handle : Handle) (signal : Signal) : l'.scheduled.count ⟨handle, .signal signal⟩ =
    l.scheduled.count ⟨handle, .signal signal⟩ +
      if signal.num = signum ∧ l.signalFlags signal.num = true ∧
        handle ∈ l.signalRecipients signal.num then 1 else 0

/-- The scan ended with an error at this number. -/
structure StoppedAt (signums : List Nat) (l l' : Loop Ev) (stop : Nat) : Prop where
  mem : stop ∈ signums
  flag : l.signalFlags stop = true
  cause : Signal.fromCInt stop = none ∨ stop = Signal.SIGCHLD.num
  known : ∀ signum ∈ signums, signum < stop → l.signalFlags signum = true →
    ∃ signal : Signal, signal.num = signum
  wakeup : l'.signalWakeup = l.signalWakeup
  count (handle : Handle) (signal : Signal) : l'.scheduled.count ⟨handle, .signal signal⟩ =
    l.scheduled.count ⟨handle, .signal signal⟩ +
      if signal.num ∈ signums ∧ signal.num < stop ∧ l.signalFlags signal.num = true ∧
        handle ∈ l.signalRecipients signal.num then 1 else 0

theorem scanSignal_swaps {signum : Nat} (h : l.scanSignal waits signum = .ok (.ok (), l')) :
    Swapped signum l l' := by
  rcases scanSignal_cases h with ⟨hflag, _, rfl⟩ | ⟨hflag, l₁, hreaps, hwent⟩
  · refine ⟨(Function.update_eq_self_iff.mpr hflag.symm).symm, rfl, rfl, fun hset => ?_,
      fun handle signal => ?_⟩
    · simp [hflag] at hset
    · rw [if_neg]
      · rfl
      · rintro ⟨rfl, hset, _⟩
        simp [hflag] at hset
  · obtain ⟨signal, rfl, _, rfl⟩ := hwent.resolve_right (by rintro ⟨err, ⟨⟩, _⟩)
    have hdeaf := Deaf.of_reaps hreaps
    refine ⟨hreaps.flags, hreaps.recipients, hreaps.wakeup, fun _ => ⟨signal, rfl⟩,
      fun handle other => ?_⟩
    by_cases heq : other.num = signal.num
    · obtain rfl := Signal.eq_of_num heq
      rw [count_scheduleSignal, hdeaf.count, hdeaf.recipients]
      simp only [clearFlag, hflag, true_and]
      congr
    · have hnone : ((l₁.signalRecipients signal.num).toList.map
          fun handle => (⟨handle, .signal signal⟩ : Task)).count ⟨handle, .signal other⟩ = 0 := by
        apply List.count_eq_zero.mpr
        intro hmem
        obtain ⟨_, _, htask⟩ := List.mem_map.mp hmem
        exact heq (congrArg Signal.num (TaskParam.signal.inj (Task.mk.inj htask).2)).symm
      rw [scheduleSignal, List.count_append, hnone, hdeaf.count, if_neg fun h => heq h.1]
      rfl

theorem scanSignal_stops {signum : Nat} {rest : List Nat}
    (h : l.scanSignal waits signum = .ok (.error err, l')) (hlt : ∀ n ∈ rest, signum < n) :
    StoppedAt (signum :: rest) l l' signum := by
  rcases scanSignal_cases h with ⟨_, ⟨⟩, _⟩ | ⟨hflag, l₁, hreaps, hwent⟩
  obtain ⟨_, _, rfl, hcause⟩ := hwent.resolve_left (by rintro ⟨_, _, ⟨⟩, _⟩)
  have hfirst (n : Nat) (hmem : n ∈ signum :: rest) : signum ≤ n :=
    (List.mem_cons.mp hmem).elim (fun heq => Nat.le_of_eq heq.symm)
      fun hrest => Nat.le_of_lt (hlt n hrest)
  refine ⟨List.mem_cons_self, hflag, hcause, fun n hmem hstop => ?_, hreaps.wakeup,
    fun handle signal => ?_⟩
  · exact absurd (hfirst n hmem) (Nat.not_le_of_gt hstop)
  · rw [(Deaf.of_reaps hreaps).count, if_neg]
    · rfl
    · rintro ⟨hmem, hstop, _⟩
      exact absurd (hfirst _ hmem) (Nat.not_le_of_gt hstop)

/-! ## The whole scan -/

/-- A swap before the rest of a scan that fails. -/
theorem StoppedAt.cons {signum stop : Nat} {rest : List Nat} (hfirst : Swapped signum l l')
    (hrest : StoppedAt rest l' l'' stop) (hlt : ∀ n ∈ rest, signum < n) :
    StoppedAt (signum :: rest) l l'' stop := by
  have hother {n : Nat} (hn : n ∈ rest) : l'.signalFlags n = l.signalFlags n := by
    rw [hfirst.flags, Function.update_of_ne (Nat.ne_of_gt (hlt n hn))]
  refine ⟨List.mem_cons_of_mem _ hrest.mem, hother hrest.mem ▸ hrest.flag, hrest.cause, ?_,
    hrest.wakeup.trans hfirst.wakeup, fun handle signal => ?_⟩
  · intro n hmem hstop hflag
    rcases List.mem_cons.mp hmem with rfl | hn
    · exact hfirst.known hflag
    · exact hrest.known n hn hstop ((hother hn).trans hflag)
  · rw [hrest.count, hfirst.count, hfirst.recipients, Nat.add_assoc]
    congr 1
    by_cases heq : signal.num = signum
    · -- It was passed on by the swap, and its flag is clear in the rest of the scan.
      have hclear : l'.signalFlags signal.num = false := by
        rw [hfirst.flags, heq, Function.update_self]
      have hbefore : signal.num < stop := heq ▸ hlt stop hrest.mem
      simp [heq ▸ hclear, heq, heq ▸ hbefore]
    · have hsame : l'.signalFlags signal.num = l.signalFlags signal.num := by
        rw [hfirst.flags, Function.update_of_ne heq]
      simp [heq, hsame]

theorem scanSignals_stops {signums : List Nat} (hsorted : signums.Pairwise (· < ·))
    (h : scanSignals waits signums l = .ok (.error err, l')) :
    ∃ stop, StoppedAt signums l l' stop := by
  induction signums generalizing l with
  | nil => cases h
  | cons signum rest ih =>
      obtain ⟨⟨scanned, l₁⟩, hscan, h⟩ := Except.bind_eq_ok.mp h
      obtain ⟨hlt, hrest⟩ := List.pairwise_cons.mp hsorted
      cases scanned with
      | error _ =>
          cases h
          exact ⟨signum, scanSignal_stops hscan hlt⟩
      | ok _ =>
          obtain ⟨stop, hstop⟩ := ih hrest h
          exact ⟨stop, hstop.cons (scanSignal_swaps hscan) hlt⟩

/-- A scan that went well leaves no flag set. -/
theorem scanSignals_clears {signums : List Nat}
    (h : scanSignals waits signums l = .ok (.ok (), l')) :
    (∀ signum, l.signalFlags signum = false → l'.signalFlags signum = false) ∧
      ∀ signum ∈ signums, l'.signalFlags signum = false := by
  induction signums generalizing l with
  | nil =>
      cases h
      exact ⟨fun _ h => h, nofun⟩
  | cons signum rest ih =>
      obtain ⟨⟨scanned, l₁⟩, hscan, h⟩ := Except.bind_eq_ok.mp h
      cases scanned with
      | error _ => cases h
      | ok _ =>
          have hflags := (scanSignal_swaps hscan).flags
          obtain ⟨hkept, hcleared⟩ := ih h
          refine ⟨fun n hn => hkept n ?_, fun n hmem => ?_⟩
          · rw [hflags, Function.update_apply]
            split
            · rfl
            · exact hn
          · rcases List.mem_cons.mp hmem with rfl | hrest
            · exact hkept n (by rw [hflags, Function.update_self])
            · exact hcleared n hrest

/-! ## The whole poll -/

/-- Where the scan of the flags ended in `tasks_gather_io`, whose wake-up was taken. -/
abbrev Stopped (l l' : Loop Ev) : Nat → Prop :=
  StoppedAt (List.range SIG_COUNT) { l with signalWakeup := false } l'

theorem Stopped.after {stop : Nat} (hfirst : Deaf l l') (hstop : Stopped l' l'' stop) :
    Stopped l l'' stop where
  mem := hstop.mem
  flag := hfirst.flags ▸ hstop.flag
  cause := hstop.cause
  known n hmem hn hflag := hstop.known n hmem hn ((congrFun hfirst.flags n).trans hflag)
  wakeup := hstop.wakeup
  count handle signal := by
    have hcount := hstop.count handle signal
    simp only [hfirst.count, hfirst.flags, hfirst.recipients] at hcount
    exact hcount

theorem tasksGatherIo_stops {evs : List PollEvent}
    (h : tasksGatherIo waits evs l = .ok (.error err, l')) : ∃ stop, Stopped l l' stop := by
  induction evs generalizing l with
  | nil => cases h
  | cons ev rest ih =>
      obtain ⟨⟨gathered, l₁⟩, hev, h⟩ := Except.bind_eq_ok.mp h
      unfold gatherEvent at hev
      split at hev
      · obtain ⟨l₂, hread, hev⟩ := Except.bind_eq_ok.mp hev
        cases hev
        obtain ⟨stop, hstop⟩ := ih h
        exact ⟨stop, hstop.after (allowsMessages_deaf.gatherMessages hread)⟩
      · split at hev
        · cases gathered with
          | error _ =>
              cases h
              exact scanSignals_stops List.pairwise_lt_range hev
          | ok _ =>
              -- No flag is left at which the rest of the poll could fail.
              obtain ⟨stop, hstop⟩ := ih h
              have hclear := (scanSignals_clears hev).2 stop hstop.mem
              have hflag : l₁.signalFlags stop = true := hstop.flag
              rw [hclear] at hflag
              cases hflag
        · obtain ⟨recipient, _, hev⟩ := Except.bind_eq_ok.mp hev
          cases hev
          obtain ⟨stop, hstop⟩ := ih h
          exact ⟨stop, hstop.after (.schedule l recipient (by simp))⟩

theorem Stopped.eq_faultySignal {stop : Nat} (h : Stopped l l' stop) : stop = l.faultySignal := by
  unfold faultySignal
  have hlt := List.mem_range.mp h.mem
  cases hzero : l.signalFlags 0 with
  | true =>
      rw [if_pos rfl]
      by_contra hne
      obtain ⟨signal, hnum⟩ := h.known 0 (by decide) (Nat.pos_of_ne_zero hne) hzero
      exact absurd hnum (Nat.ne_of_gt signal.pos)
  | false =>
      rw [if_neg nofun]
      refine h.cause.resolve_left fun hnone => ?_
      have hpos : 0 < stop := by
        apply Nat.pos_of_ne_zero
        rintro rfl
        have hflag : l.signalFlags 0 = true := h.flag
        rw [hzero] at hflag
        cases hflag
      simp [Signal.fromCInt, hpos, hlt] at hnone

/-- What becomes of a pending signal depends on which side of the failure it is on. -/
theorem Stopped.told_iff {stop : Nat} (h : Stopped l l' stop) (signal : Signal)
    (hflag : l.signalFlags signal.num = true) :
    Told l l' signal ↔ (stop ≤ signal.num → (l.signalRecipients signal.num).toList = []) := by
  have hmem : signal.num ∈ List.range SIG_COUNT := List.mem_range.mpr signal.lt
  constructor
  · intro htold hle
    apply List.eq_nil_iff_forall_not_mem.mpr
    intro handle hhandle
    have hcount := h.count handle signal
    rw [htold handle hhandle, if_neg fun hlt => absurd hle (Nat.not_le_of_gt hlt.2.1)] at hcount
    simp at hcount
  · intro hempty handle hhandle
    have hlt : signal.num < stop := by
      by_contra hge
      have hnil := hempty (Nat.le_of_not_lt hge)
      rw [ListSet.mem_def, hnil] at hhandle
      cases hhandle
    rw [h.count, if_pos ⟨hmem, hlt, hflag, hhandle⟩]

/-- A gather that fails over the signals keeps them all exactly if nobody is a recipient of a signal
that is pending and at or past the failure. -/
theorem failed_gather_keeps_signals_iff (l l' : Loop Ev) (waits : List WaitResult)
    (evs : List PollEvent) (err : Error)
    (h : tasksGatherIo waits evs l = .ok (.error err, l')) :
    KeepsSignals l l' ↔ ∀ signal : Signal, l.signalFlags signal.num = true →
      l.faultySignal ≤ signal.num → (l.signalRecipients signal.num).toList = [] := by
  obtain ⟨stop, hstop⟩ := tasksGatherIo_stops h
  rw [← hstop.eq_faultySignal]
  refine forall_congr' fun signal => forall_congr' fun hflag => ?_
  rw [← hstop.told_iff signal hflag]
  refine or_iff_left fun hpending => ?_
  have htaken : l'.signalWakeup = false := hstop.wakeup
  rw [hpending.2] at htaken
  cases htaken

/-! ## Two failures -/

/-- A poll that reports the wake-up, after which `waitpid` is interrupted. -/
def interruptedReaping : GatherEnv :=
  ⟨1, .ok [⟨SIGNAL_TOK, ⟨1⟩, 0⟩], 1, [.error (.sys (.other 4))]⟩

/-- An event that does this in its `init`, after which two signals arrive. -/
def signalled (ops : List ScopeOp) (signal signal' : Signal) : List (Action Unit) :=
  [.call (.iface (.insertExact () ⟨4, false⟩)), .tick] ++ ops.map (fun op => .call (.scope op)) ++
    [.finish () (.ok true), .settle true (.ok ()), .tick, .dispatch signal, .dispatch signal',
      .call (.iface .run)]

/-- SIGTERM goes to the event, SIGCHLD to nobody. -/
def termAndChild : List (Action Unit) :=
  signalled [.signal ⟨15, by decide, by decide⟩, .child 7] ⟨15, by decide, by decide⟩ .SIGCHLD

theorem failed_gather_keeps_signals_iff_termAndChild :
    ∃ l', tasksGatherIo interruptedReaping.waits [⟨SIGNAL_TOK, ⟨1⟩, 0⟩]
        (Config.after 0 termAndChild).loop = .ok (.error (.nix (.sys (.other 4))), l') ∧
      KeepsSignals (Config.after 0 termAndChild).loop l' := by
  obtain ⟨l', h⟩ : ∃ l', tasksGatherIo interruptedReaping.waits [⟨SIGNAL_TOK, ⟨1⟩, 0⟩]
      (Config.after 0 termAndChild).loop = .ok (.error (.nix (.sys (.other 4))), l') := ⟨_, rfl⟩
  have hempty : ∀ signum ∈ List.range SIG_COUNT,
      (Config.after 0 termAndChild).loop.signalFlags signum = true → 17 ≤ signum →
        ((Config.after 0 termAndChild).loop.signalRecipients signum).toList = [] := by decide
  refine ⟨l', h, (failed_gather_keeps_signals_iff _ _ _ _ _ h).mpr fun signal hflag hle => ?_⟩
  exact hempty signal.num (List.mem_range.mpr signal.lt) hflag hle

/-- The event wants both SIGCHLD and SIGWINCH. -/
def childAndWinch : List (Action Unit) :=
  signalled [.signal .SIGCHLD, .signal ⟨28, by decide, by decide⟩] .SIGCHLD
    ⟨28, by decide, by decide⟩

/-- Both signals are swallowed: nothing is scheduled, and no wake-up is left for the next gather. -/
theorem interrupted_reaping_swallows :
    Config.Reachable (Config.after 0 childAndWinch) ∧
      ∃ c', (Config.after 0 childAndWinch).step (.gather interruptedReaping) = .ok c' ∧
        c'.ctl = .ret (.error (.nix (.sys (.other 4)))) ∧ c'.loop.scheduled = [] ∧
        c'.loop.signalWakeup = false ∧
        ¬KeepsSignals (Config.after 0 childAndWinch).loop c'.loop := by
  obtain ⟨c', hstep, hctl, hsched, hwakeup, hflag, hmem⟩ :
      ∃ c', (Config.after 0 childAndWinch).step (.gather interruptedReaping) = .ok c' ∧
        c'.ctl = .ret (.error (.nix (.sys (.other 4)))) ∧ c'.loop.scheduled = [] ∧
        c'.loop.signalWakeup = false ∧
        (Config.after 0 childAndWinch).loop.signalFlags Signal.SIGCHLD.num = true ∧
        ⟨0, 0⟩ ∈ (Config.after 0 childAndWinch).loop.signalRecipients Signal.SIGCHLD.num :=
    ⟨_, rfl, rfl, rfl, rfl, rfl, by decide⟩
  refine ⟨Config.reachable_after 0 childAndWinch, c', hstep, hctl, hsched, hwakeup,
    fun hkeeps => ?_⟩
  rcases hkeeps .SIGCHLD hflag with htold | hpending
  · have hcount := htold ⟨0, 0⟩ hmem
    rw [hsched] at hcount
    cases hcount
  · rw [hpending.2] at hwakeup
    cases hwakeup

end Eveboros.Loop
