import Eveboros.World.Projection

/-!
# Signals reach every loop that wants them

The dispatcher knows exactly the loops that have enabled a signal, each once, also while it is in
the middle of a dispatch.  So a dispatch notifies every one of them that is still there, once, and
no other.
-/

namespace Eveboros

open TransitionSystem

variable {Ev : Type}

/-! ## Enabling -/

namespace Config

variable {c c' : Config Ev} {a : Action Ev}

theorem enables_refused {op : Op Ev} (hr : op.CanRefuse) : World.enables (.call op) = none := by
  rcases op with op | op | op
  · rfl
  · cases op <;> first | rfl | exact hr.elim
  · exact hr.elim

theorem enables_query {op : Op Ev} (hq : op.IsQuery) : World.enables (.call op) = none := by
  rcases op with op | op | op
  · rfl
  · cases op <;> first | rfl | exact hq.elim
  · exact hq.elim

theorem enables_deadline {op : ScopeOp} {now when : Nat} (hop : op.deadline now = some when) :
    World.enables (.call (.scope op) : Action Ev) = none := by
  cases op <;> first | rfl | cases hop

theorem enables_settle (ha : a.IsSettle) : World.enables a = none := by
  cases a <;> first | rfl | exact ha.elim

/-- Signals are enabled by the operations that do so, and stay enabled. -/
theorem edit_enabled (e : Edit a c c') (hgather : ¬a.IsGather) (n : Nat) :
    c'.loop.signalsEnabled n = (c.loop.signalsEnabled n ||
      (World.enables a).any fun signal => signal.num == n) := by
  have enable (signal : Signal) (hen : World.enables a = some signal)
      (hafter : c'.loop.signalsEnabled =
        Function.update c.loop.signalsEnabled signal.num true) :
      c'.loop.signalsEnabled n = (c.loop.signalsEnabled n ||
        (World.enables a).any fun signal => signal.num == n) := by
    rw [hafter, hen, Function.update_apply]
    by_cases heq : n = signal.num
    · simp [heq]
    · simp [heq, Ne.symm heq]
  have same (hen : World.enables a = none)
      (hafter : c'.loop.signalsEnabled = c.loop.signalsEnabled) :
      c'.loop.signalsEnabled n = (c.loop.signalsEnabled n ||
        (World.enables a).any fun signal => signal.num == n) := by
    rw [hafter, hen, Option.any_none, Bool.or_false]
  cases e with
  | signalled signal handle ha | enabled signal ha =>
      subst ha
      exact enable signal rfl rfl
  | tracked pid handle holder events ha =>
      subst ha
      exact enable .SIGCHLD rfl rfl
  | refusal op err ha hctl hr =>
      subst ha
      exact same (enables_refused hr) rfl
  | query op v ha hctl hq =>
      subst ha
      exact same (enables_query hq) rfl
  | timer op handle when holder events ha hctl hcaller hop =>
      subst ha
      exact same (enables_deadline hop) rfl
  | beganRun frame ha => rcases ha with ⟨rfl, _⟩ | ⟨rfl, _⟩ <;> exact same rfl rfl
  | kept handle ha => exact same (enables_settle ha) rfl
  | drained _ ha | pruned ha | received _ _ ha | ignored _ _ ha | wakeupTaken ha | flagCleared _ ha
  | broadcast _ ha | cleaned _ _ ha | rebuilt _ _ ha | timed ha | idleTaken _ _ ha
  | gatherFailed _ ha | reaped _ _ _ _ _ ha => exact absurd ha hgather
  | _ =>
      subst_vars
      exact same rfl rfl

theorem step_enabled (h : c.step a = .ok c') (n : Nat) :
    c'.loop.signalsEnabled n = (c.loop.signalsEnabled n ||
      (World.enables a).any fun signal => signal.num == n) := by
  by_cases hgather : a.IsGather
  · obtain ⟨env, rfl⟩ := hgather.env
    rw [gather_frame (fun c => c.loop.signalsEnabled n) (fun c c' e => ?_) h]
    · simp [World.enables]
    · cases e <;> first | rfl | simp_all
  · rcases step_cases h with ⟨env, rfl⟩ | e
    · exact absurd trivial hgather
    · exact edit_enabled e hgather n

end Config

namespace World

variable {w w' : World Ev}

/-! ## Registrations -/

/-- The notifiers for a signal, those of a dispatch in progress included. -/
def notifiers (w : World Ev) (n : Nat) : List Nat :=
  w.registered n ++ match w.dispatching with
    | some d => if d.signal.num = n then d.tmp ++ d.kept else []
    | none => []

structure Registered (w : World Ev) : Prop where
  exact (n id : Nat) (c : Config Ev) : w.loops id = some c →
    (id ∈ w.notifiers n ↔ c.loop.signalsEnabled n = true)
  nodup (n : Nat) : (w.notifiers n).Nodup
  known (n id : Nat) : id ∈ w.notifiers n → id < w.created
  /-- While a dispatch goes on, its notifiers are swapped out. -/
  swapped (d : Dispatching) : w.dispatching = some d → w.registered d.signal.num = []

theorem registered_init : Registered (init : World Ev) where
  exact n id c hloop := by cases hloop
  nodup n := List.nodup_nil
  known n id hmem := by cases hmem
  swapped d hd := by cases hd

/-- The notifiers may change places and forget loops that are gone; no loop enables anything. -/
theorem Registered.congr (r : Registered w) (hsub : ∀ n, (w'.notifiers n).Subperm (w.notifiers n))
    (hkept : ∀ n id c', w'.loops id = some c' → id ∈ w.notifiers n → id ∈ w'.notifiers n)
    (hloops : ∀ id c', w'.loops id = some c' → ∃ c, w.loops id = some c ∧
      c'.loop.signalsEnabled = c.loop.signalsEnabled) (hcreated : w.created ≤ w'.created)
    (hswapped : ∀ d, w'.dispatching = some d → w'.registered d.signal.num = []) :
    Registered w' where
  exact n id c' hloop := by
    obtain ⟨c, hold, hsame⟩ := hloops id c' hloop
    rw [hsame, ← r.exact n id c hold]
    exact ⟨fun hmem => (hsub n).subset hmem, hkept n id c' hloop⟩
  nodup n := by
    obtain ⟨l, hperm, hsublist⟩ := hsub n
    exact hperm.nodup_iff.mp ((r.nodup n).sublist hsublist)
  known n id hmem := (r.known n id ((hsub n).subset hmem)).trans_le hcreated
  swapped := hswapped

theorem Registered.of_perm (r : Registered w) (hperm : ∀ n, (w'.notifiers n).Perm (w.notifiers n))
    (hloops : ∀ id c', w'.loops id = some c' → ∃ c, w.loops id = some c ∧
      c'.loop.signalsEnabled = c.loop.signalsEnabled) (hcreated : w.created ≤ w'.created)
    (hswapped : ∀ d, w'.dispatching = some d → w'.registered d.signal.num = []) :
    Registered w' :=
  r.congr (fun n => (hperm n).subperm) (fun n _ _ _ hmem => (hperm n).mem_iff.mpr hmem) hloops
    hcreated hswapped

/-- A step of a loop that enables nothing. -/
theorem enabled_of_stepped {id : Nat} {c c' : Config Ev} {a : Action Ev}
    (hloop : w.loops id = some c) (hstep : c.step a = .ok c') (hnone : registers c a = none)
    (id' : Nat) (c₁ : Config Ev) (h : Function.update w.loops id (some c') id' = some c₁) :
    ∃ c₀, w.loops id' = some c₀ ∧ c₁.loop.signalsEnabled = c₀.loop.signalsEnabled := by
  by_cases heq : id' = id
  · subst heq
    rw [Function.update_self] at h
    cases h
    refine ⟨c, hloop, funext fun n => ?_⟩
    rw [Config.step_enabled hstep n]
    cases hen : enables a with
    | none => simp
    | some signal =>
        have hon : c.loop.signalsEnabled signal.num = true := by
          simpa [registers, hen, Option.filter] using hnone
        by_cases hn : signal.num = n
        · simp [hn, hn ▸ hon]
        · simp [hn]
  · rw [Function.update_of_ne heq] at h
    exact ⟨c₁, h, rfl⟩

/-- A loop enables a signal and is registered for it. -/
theorem Registered.enable (r : Registered w) (p : Projects w) {id : Nat} {c c' : Config Ev}
    {signal : Signal} (hloop : w.loops id = some c)
    (hoff : c.loop.signalsEnabled signal.num = false)
    (henabled : ∀ n, c'.loop.signalsEnabled n = (c.loop.signalsEnabled n || signal.num == n))
    (hloops : w'.loops = Function.update w.loops id (some c')) (hcreated : w'.created = w.created)
    (hafter : ∀ n, w'.notifiers n = w.notifiers n ++ if n = signal.num then [id] else [])
    (hfree : w'.dispatching = none) : Registered w' := by
  have hnew : id ∉ w.notifiers signal.num := by
    rw [r.exact _ id c hloop, hoff]
    exact Bool.false_ne_true
  refine ⟨fun n id' c₁ hloop' => ?_, fun n => ?_, fun n id' hmem => ?_, fun d hd => ?_⟩
  · rw [hafter, List.mem_append]
    rw [hloops] at hloop'
    by_cases heq : id' = id
    · subst heq
      rw [Function.update_self] at hloop'
      cases hloop'
      rw [henabled, r.exact n id' c hloop]
      by_cases hn : n = signal.num
      · simp [hn]
      · simp [hn, Ne.symm hn]
    · rw [Function.update_of_ne heq] at hloop'
      rw [r.exact n id' c₁ hloop']
      by_cases hn : n = signal.num <;> simp [hn, heq]
  · rw [hafter]
    by_cases hn : n = signal.num
    · subst hn
      rw [if_pos rfl, List.nodup_append]
      refine ⟨r.nodup _, List.nodup_singleton id, fun x hx y hy hxy => hnew ?_⟩
      rwa [← List.mem_singleton.mp hy, ← hxy]
    · rw [if_neg hn, List.append_nil]
      exact r.nodup n
  · rw [hcreated]
    rw [hafter, List.mem_append] at hmem
    rcases hmem with hmem | hmem
    · exact r.known n id' hmem
    · split at hmem
      · rw [List.mem_singleton.mp hmem]
        refine Nat.lt_of_not_le fun hle => ?_
        rw [(p.new id hle).1] at hloop
        cases hloop
      · cases hmem
  · cases hfree.symm.trans hd

theorem registered_act (r : Registered w) (p : Projects w) {id : Nat} {a : Action Ev}
    (h : w.act id a = .ok w') : Registered w' := by
  obtain ⟨c, hloop, _, hmutex, hstep⟩ := act_eq_ok h
  obtain ⟨c', hc', rfl⟩ := stepLoop_eq_ok.mp hstep
  cases hreg : registers c a with
  | none => exact r.of_perm (fun _ => .rfl) (enabled_of_stepped hloop hc' hreg) le_rfl r.swapped
  | some signal =>
      have hfree := hmutex (by rw [hreg]; rfl)
      have hen : enables a = some signal ∧ c.loop.signalsEnabled signal.num = false := by
        simpa [registers, Option.filter_eq_some_iff] using hreg
      refine r.enable p hloop hen.2 (fun n => ?_) rfl rfl (fun n => ?_) hfree
      · rw [Config.step_enabled hc' n, hen.1, Option.any_some]
      · simp only [notifiers, register, hfree, List.append_nil, Function.update_apply]
        by_cases hn : n = signal.num <;> simp [hn]

theorem registered_create (r : Registered w) (now : Nat)
    (hloops : w'.loops = Function.update w.loops w.created (some (.init now)))
    (hcreated : w'.created = w.created + 1) (hregistered : w'.registered = w.registered)
    (hdispatching : w'.dispatching = w.dispatching) : Registered w' := by
  have hsame (n : Nat) : w'.notifiers n = w.notifiers n := by
    rw [notifiers, notifiers, hregistered, hdispatching]
  refine ⟨fun n id c hloop => ?_, fun n => hsame n ▸ r.nodup n, fun n id hmem => ?_, ?_⟩
  · rw [hloops] at hloop
    rw [hsame]
    by_cases heq : id = w.created
    · subst heq
      rw [Function.update_self] at hloop
      cases hloop
      refine iff_of_false (fun hmem => Nat.lt_irrefl _ (r.known n _ hmem)) ?_
      simp [Config.init, Loop.new]
    · rw [Function.update_of_ne heq] at hloop
      exact r.exact n id c hloop
  · rw [hcreated]
    exact (r.known n id (hsame n ▸ hmem)).trans (Nat.lt_succ_self _)
  · rw [hdispatching, hregistered]
    exact r.swapped

theorem registered_notify (r : Registered w) (h : w.notify = .ok w') : Registered w' := by
  unfold notify at h
  split at h
  · rename_i signal id tmp kept hd
    have hold (n : Nat) : w.notifiers n = w.registered n ++
        if signal.num = n then id :: tmp ++ kept else [] := by simp [notifiers, hd]
    have hswapped := r.swapped _ hd
    split at h
    · rename_i c hloop
      obtain ⟨c', hc', rfl⟩ := stepLoop_eq_ok.mp h
      refine r.of_perm (fun n => ?_) (enabled_of_stepped hloop hc' rfl) le_rfl ?_
      · rw [hold]
        simp only [notifiers]
        split
        · exact (List.perm_middle.append_left _)
        · rfl
      · rintro d ⟨⟩
        exact hswapped
    · rename_i hloop
      cases h
      refine r.congr (fun n => ?_) (fun n id' c' hloop' hmem => ?_) (fun id' c' hloop' => ?_)
        le_rfl ?_
      · rw [hold]
        simp only [notifiers]
        split
        · exact ((List.sublist_cons_self id _).append_left _).subperm
        · exact .refl _
      · rw [hold] at hmem
        simp only [notifiers]
        split
        · rename_i hn
          rw [if_pos hn] at hmem
          have hne : id' ≠ id := by
            rintro rfl
            cases hloop.symm.trans hloop'
          simpa [hne] using hmem
        · rename_i hn
          rwa [if_neg hn] at hmem
      · exact ⟨c', hloop', rfl⟩
      · rintro d ⟨⟩
        exact hswapped
  · cases h

theorem Registered.step (r : Registered w) (p : Projects w) {a : WorldAction Ev}
    (h : w.step a = .ok w') : Registered w' := by
  cases a with
  | create now =>
      cases h
      exact registered_create r now rfl rfl rfl rfl
  | act id a => exact registered_act r p h
  | destroy id =>
      simp only [World.step, destroy] at h
      split at h
      · split at h
        · cases h
          refine r.of_perm (fun _ => .rfl) (fun id' c' hloop => ?_) le_rfl r.swapped
          change Function.update w.loops id none id' = some c' at hloop
          by_cases heq : id' = id
          · rw [heq, Function.update_self] at hloop
            cases hloop
          · rw [Function.update_of_ne heq] at hloop
            exact ⟨c', hloop, rfl⟩
        · cases h
      · cases h
  | raise signal =>
      simp only [World.step, raise] at h
      split at h
      · cases h
      · rename_i hfree
        split at h
        · cases h
          exact r
        · cases h
          refine r.of_perm (fun n => ?_) (fun id c' hloop => ⟨c', hloop, rfl⟩) le_rfl ?_
          · simp only [notifiers, hfree, List.append_nil, Function.update_apply]
            by_cases hn : n = signal.num
            · simp [hn]
            · simp [hn, Ne.symm hn]
          · rintro d ⟨⟩
            exact Function.update_self _ _ _
  | notify => exact registered_notify r h
  | unlock =>
      simp only [World.step, unlock] at h
      split at h
      · rename_i signal kept hd
        have hswapped := r.swapped _ hd
        cases h
        refine r.of_perm (fun n => ?_) (fun id c' hloop => ⟨c', hloop, rfl⟩) le_rfl ?_
        · simp only [notifiers, hd, List.append_nil, List.nil_append, Function.update_apply]
          by_cases hn : n = signal.num
          · subst hn
            simp [hswapped, List.reverse_perm]
          · simp [hn, Ne.symm hn]
        · rintro d ⟨⟩
      · cases h
  | send id channel data failure =>
      obtain ⟨m, result, ⟨c, hloop, _, hstep, _⟩ | ⟨rfl, _⟩⟩ := send_eq_ok h
      · obtain ⟨c', hc', rfl⟩ := stepLoop_eq_ok.mp hstep
        exact r.of_perm (fun _ => .rfl) (enabled_of_stepped hloop hc' rfl) le_rfl r.swapped
      · exact r.of_perm (fun _ => .rfl) (fun id c' hloop => ⟨c', hloop, rfl⟩) le_rfl r.swapped

theorem Possible.registered (h : Possible w) : Registered w := by
  have hboth : Projects w ∧ Registered w :=
    h.invariant (Q := fun w => Projects w ∧ Registered w) ⟨projects_init, registered_init⟩
      fun _ _ _ hq _ hs => ⟨hq.1.step (step_moves hs), hq.2.step hq.1 hs⟩
  exact hboth.2

/-! ## A dispatch -/

/-- The action notifies the loop of the signal. -/
def notifies (signal : Signal) : Action Ev → Bool
  | .dispatch other => decide (other = signal)
  | _ => false

theorem not_notifies_of_native {signal : Signal} {a : Action Ev} (h : a.isForeign = false) :
    notifies signal a = false := by
  cases a with
  | dispatch => cases h
  | _ => rfl

/-- How often has the loop been notified of the signal? -/
def notified (w : World Ev) (signal : Signal) (id : Nat) : Nat :=
  (w.history id).countP (notifies signal)

/-- In the middle of the dispatch that was begun in `w`, a loop has either been notified or still
has its turn to come. -/
structure Underway (w : World Ev) (signal : Signal) (v : World Ev) : Prop where
  possible : Possible v
  older : w.created ≤ v.created
  pending : ∃ tmp kept, v.dispatching = some ⟨signal, tmp, kept⟩ ∧
    ∀ id c, v.loops id = some c → v.notified signal id + tmp.count id =
      w.notified signal id + (w.registered signal.num).count id

theorem notified_stepped {v : World Ev} {signal : Signal} {id : Nat} {a : Action Ev}
    (hhistory : w'.history = Function.update v.history id (a :: v.history id)) (id' : Nat) :
    w'.notified signal id' =
      v.notified signal id' + if id' = id ∧ notifies signal a = true then 1 else 0 := by
  simp only [notified, hhistory]
  by_cases heq : id' = id
  · subst heq
    rw [Function.update_self, List.countP_cons]
    simp
  · rw [Function.update_of_ne heq]
    simp [heq]

/-- A loop steps by an action that is no notification. -/
theorem Underway.stepped {v v₁ : World Ev} {signal : Signal} (u : Underway w signal v) {id : Nat}
    {c : Config Ev} {a : Action Ev} (h : v₁.stepLoop id c a = .ok w') (hpossible : Possible w')
    (hloop : v.loops id = some c) (hquiet : notifies signal a = false)
    (hloops : v₁.loops = v.loops) (hhistory : v₁.history = v.history)
    (hcreated : v₁.created = v.created) (hdispatching : v₁.dispatching = v.dispatching) :
    Underway w signal w' := by
  obtain ⟨tmp, kept, hd, hpending⟩ := u.pending
  obtain ⟨c', _, hw'⟩ := stepLoop_eq_ok.mp h
  have hafter : w'.history = Function.update v.history id (a :: v.history id) := by
    rw [hw', hhistory]
  have hd' : w'.dispatching = v.dispatching := by rw [hw', hdispatching]
  have holder : w.created ≤ w'.created := by
    rw [hw', hcreated]
    exact u.older
  refine ⟨hpossible, holder, tmp, kept, hd'.trans hd, fun id' c₁ hloop' => ?_⟩
  rw [notified_stepped hafter, if_neg (by simp [hquiet]), Nat.add_zero]
  rw [hw'] at hloop'
  change Function.update v₁.loops id (some c') id' = some c₁ at hloop'
  by_cases heq : id' = id
  · subst heq
    exact hpending id' c hloop
  · rw [Function.update_of_ne heq, hloops] at hloop'
    exact hpending id' c₁ hloop'

theorem underway_step {v : World Ev} {signal : Signal} (hw : Possible w)
    (u : Underway w signal v) {a : WorldAction Ev} (ha : a ≠ .unlock) (h : v.step a = .ok w') :
    Underway w signal w' := by
  have hpossible : Possible w' := u.possible.next trivial h
  cases a with
  | create now =>
      obtain ⟨tmp, kept, hd, hpending⟩ := u.pending
      cases h
      refine ⟨hpossible, u.older.trans (Nat.le_succ _), tmp, kept, hd, fun id c hloop => ?_⟩
      change Function.update v.loops v.created _ id = some c at hloop
      by_cases heq : id = v.created
      · subst heq
        have hunknown : v.created ∉ v.notifiers signal.num := fun hmem =>
          Nat.lt_irrefl _ (u.possible.registered.known _ _ hmem)
        have hunregistered : v.created ∉ w.registered signal.num := fun hmem =>
          absurd (hw.registered.known signal.num _ (List.mem_append_left _ hmem))
            (Nat.not_lt.mpr u.older)
        have htmp : v.created ∉ tmp := fun hmem => hunknown (by simp [notifiers, hd, hmem])
        rw [List.count_eq_zero.mpr htmp, List.count_eq_zero.mpr hunregistered]
        simp [notified, (u.possible.projects.new _ le_rfl).2, (hw.projects.new _ u.older).2]
      · rw [Function.update_of_ne heq] at hloop
        exact hpending id c hloop
  | act id a =>
      obtain ⟨c, hloop, hnative, _, hstep⟩ := act_eq_ok h
      obtain ⟨hloops, hcreated, _, hhistory, hdispatching, _⟩ := v.register_frame id (registers c a)
      exact u.stepped hstep hpossible hloop (not_notifies_of_native hnative) hloops hhistory
        hcreated hdispatching
  | destroy id =>
      obtain ⟨tmp, kept, hd, hpending⟩ := u.pending
      simp only [World.step, destroy] at h
      split at h
      · split at h
        · cases h
          refine ⟨hpossible, u.older, tmp, kept, hd, fun id' c hloop => ?_⟩
          change Function.update v.loops id none id' = some c at hloop
          by_cases heq : id' = id
          · rw [heq, Function.update_self] at hloop
            cases hloop
          · rw [Function.update_of_ne heq] at hloop
            exact hpending id' c hloop
        · cases h
      · cases h
  | raise other =>
      obtain ⟨tmp, kept, hd, _⟩ := u.pending
      simp only [World.step, raise, hd] at h
      cases h
  | notify =>
      obtain ⟨tmp, kept, hd, hpending⟩ := u.pending
      simp only [World.step, notify, hd] at h
      split at h
      · rename_i signal' id tmp' kept' hsome
        cases hsome
        split at h
        · rename_i c hloop
          obtain ⟨c', _, rfl⟩ := stepLoop_eq_ok.mp h
          refine ⟨hpossible, u.older, tmp', id :: kept, rfl, fun id' c₁ hloop' => ?_⟩
          refine (congrArg (· + tmp'.count id') (notified_stepped (v := v) rfl id')).trans ?_
          change Function.update v.loops id (some c') id' = some c₁ at hloop'
          by_cases heq : id' = id
          · subst heq
            have hbefore := hpending id' c hloop
            rw [List.count_cons_self] at hbefore
            simp [notifies]
            omega
          · rw [Function.update_of_ne heq] at hloop'
            have hbefore := hpending id' c₁ hloop'
            rw [List.count_cons_of_ne (Ne.symm heq)] at hbefore
            simpa [heq] using hbefore
        · rename_i hgone
          cases h
          refine ⟨hpossible, u.older, tmp', kept, rfl, fun id' c₁ hloop' => ?_⟩
          have hne : id ≠ id' := by
            rintro rfl
            cases hgone.symm.trans hloop'
          have hbefore := hpending id' c₁ hloop'
          rwa [List.count_cons_of_ne hne] at hbefore
      · cases h
  | unlock => exact absurd rfl ha
  | send id channel data failure =>
      obtain ⟨m, result, ⟨c, hloop, _, hstep, _⟩ | ⟨rfl, _⟩⟩ := send_eq_ok h
      · exact u.stepped hstep hpossible hloop rfl rfl rfl rfl rfl
      · obtain ⟨tmp, kept, hd, hpending⟩ := u.pending
        exact ⟨hpossible, u.older, tmp, kept, hd, hpending⟩

theorem Registered.count {n id : Nat} {c : Config Ev} (r : Registered w)
    (hloop : w.loops id = some c) (hfree : w.dispatching = none) :
    (w.registered n).count id = if c.loop.signalsEnabled n = true then 1 else 0 := by
  have hall : w.notifiers n = w.registered n := by rw [notifiers, hfree, List.append_nil]
  have hexact := r.exact n id c hloop
  rw [hall] at hexact
  have hnodup := r.nodup n
  rw [hall] at hnodup
  rw [hnodup.count]
  simp only [hexact]

/-- A dispatch begins. -/
theorem underway_raise {signal : Signal} (hw : Possible w) (h : w.step (.raise signal) = .ok w')
    (hsome : w.registered signal.num ≠ []) :
    w.dispatching = none ∧ Underway w signal w' := by
  have hpossible : Possible w' := hw.next trivial h
  simp only [World.step, raise] at h
  split at h
  · cases h
  · rename_i hfree
    rw [if_neg hsome] at h
    cases h
    exact ⟨hfree, hpossible, le_rfl, _, _, rfl, fun _ _ _ => rfl⟩

theorem stays_gone {P : World Ev → WorldAction Ev → Prop} {id : Nat} (h : Reach step P w w')
    (hgone : w.loops id = none) (hid : id < w.created) : w'.loops id = none :=
  (h.invariant (Q := fun w => w.loops id = none ∧ id < w.created) ⟨hgone, hid⟩
    fun _ _ _ hq _ hs => (step_moves hs).stays_gone hq.1 hq.2).1

/-- A signal that somebody has registered for comes while threads go on with their loops, send
through channels, create loops and destroy them.  Of the loops that still exist when the dispatch is
over, those that had the signal enabled at its beginning have been notified once, the others have
not; a loop destroyed after its turn has been notified, too.  The dispatcher is left with the
existing loops that have the signal enabled, each once. -/
theorem dispatch_reaches_all (w₀ w₁ w₂ w₃ : World Ev) (signal : Signal) (hw : Possible w₀)
    (hraise : w₀.step (.raise signal) = .ok w₁) (hsome : w₀.registered signal.num ≠ [])
    (hgoing : Reach step (fun _ a => a ≠ .unlock) w₁ w₂) (hunlock : w₂.step .unlock = .ok w₃)
    (id : Nat) (c : Config Ev) (hloop : w₃.loops id = some c) :
    w₃.notified signal id = w₀.notified signal id +
        (if (w₀.loops id).any (fun c => c.loop.signalsEnabled signal.num) then 1 else 0) ∧
      (w₃.registered signal.num).count id =
        if c.loop.signalsEnabled signal.num = true then 1 else 0 := by
  obtain ⟨hfree, hbegun⟩ := underway_raise hw hraise hsome
  have u : Underway w₀ signal w₂ := hgoing.invariant hbegun fun _ _ _ u ha hs =>
    underway_step hw u ha hs
  have hpossible : Possible w₃ := u.possible.next trivial hunlock
  have hend : w₃.dispatching = none ∧ w₃.loops = w₂.loops ∧ w₃.history = w₂.history ∧
      w₂.notified signal id = w₀.notified signal id + (w₀.registered signal.num).count id := by
    obtain ⟨tmp, kept, hd, hpending⟩ := u.pending
    simp only [World.step, unlock, hd] at hunlock
    split at hunlock
    · rename_i signal' kept' hsome'
      cases hsome'
      cases hunlock
      exact ⟨rfl, rfl, rfl, hpending id c hloop⟩
    · cases hunlock
  obtain ⟨hfree', hloops, hhistory, hnotified⟩ := hend
  refine ⟨?_, hpossible.registered.count hloop hfree'⟩
  rw [notified, hhistory, ← notified, hnotified]
  cases hold : w₀.loops id with
  | some c₀ =>
      rw [hw.registered.count hold hfree]
      rfl
  | none =>
      have hnew : w₀.created ≤ id := by
        refine Nat.le_of_not_lt fun hid => ?_
        obtain ⟨hgone, hid⟩ := (step_moves hraise).stays_gone hold hid
        cases (stays_gone hgoing hgone hid).symm.trans (hloops ▸ hloop)
      have hunknown : id ∉ w₀.registered signal.num := fun hmem =>
        absurd (hw.registered.known signal.num id (List.mem_append_left _ hmem)) (by omega)
      rw [List.count_eq_zero.mpr hunknown]
      rfl

/-- Two loops have enabled a signal when it comes. -/
def twoWait : World Unit :=
  landing step init [.create 0, .create 0, .act 0 (.call (.owner (.signalEnable .SIGCHLD))),
    .act 1 (.call (.owner (.signalEnable .SIGCHLD)))]

/-- One of them is destroyed before its turn. -/
def oneDestroyed : World Unit :=
  landing step (landing step twoWait [.raise .SIGCHLD]) [.notify, .destroy 1, .notify]

theorem dispatch_reaches_all_oneDestroyed :
    (landing step oneDestroyed [.unlock]).notified .SIGCHLD 0 = 1 ∧
      ((landing step oneDestroyed [.unlock]).registered 17).count 0 = 1 := by
  have hw : Possible twoWait :=
    reach_landing (p := fun _ _ => true) _ (fun _ _ _ => trivial) (by decide)
  have hrun : run step (landing step twoWait [.raise .SIGCHLD]) [.notify, .destroy 1, .notify] =
      .ok oneDestroyed := rfl
  have hgoing : Reach step (fun _ a => a ≠ .unlock) (landing step twoWait [.raise .SIGCHLD])
      oneDestroyed := .of_run_forall (by simp) hrun
  exact dispatch_reaches_all twoWait _ _ _ .SIGCHLD hw rfl (by decide) hgoing rfl 0 _ rfl

end World

end Eveboros
