import Eveboros.Runs.Expectations
import Eveboros.Runs.Registries
import Eveboros.Runs.Timeouts

/-!
# Nobody is called who did not ask

The loop knows whom to call from its registries: the heap of timeouts, the recipients of signals,
the idle queue, the table of IOs and the children.  Whatever gets into one of them was asked for by
the event itself, in a callback of its own.
-/

namespace Eveboros

variable {Ev : Type}

/-- What an event has done if it is called back in this way. -/
def Callback.AskedBy (handle : Handle) : Callback → Obs Ev → Prop
  | .init, o => ∃ event, o = .stored handle event
  | .io id _, o => ∃ growth,
      o = .answered (some handle) (.scope (.ioRegisterAny growth none)) (.ok (.ioId id))
  | .timeout id, o => ∃ op, o = .answered (some handle) (.scope op) (.ok (.timeoutId id))
  | .signal sig, o => o = .answered (some handle) (.scope (.signal sig)) (.ok .unit)
  | .idle, o => o = .answered (some handle) (.scope .idle) (.ok .unit)
  | .message m, o => o = m.entitlement handle
  | .child pid _, o => o = .answered (some handle) (.scope (.child pid)) (.ok .unit)

/-- In this history, every callback was called as `P` says of what went before. -/
def WhenCalled (P : Handle → Callback → List (Obs Ev) → Prop) (log : List (Obs Ev)) : Prop :=
  ∀ handle cb event older, .called handle cb event :: older <:+ log → P handle cb older

theorem WhenCalled.cons {P : Handle → Callback → List (Obs Ev) → Prop} {log : List (Obs Ev)}
    (q : WhenCalled P log) {o : Obs Ev}
    (ho : ∀ handle cb event, o = .called handle cb event → P handle cb log) :
    WhenCalled P (o :: log) := by
  intro handle cb event older hsuffix
  rcases List.suffix_cons_iff.mp hsuffix with heq | hold
  · obtain ⟨rfl, rfl⟩ := List.cons.inj heq
    exact ho handle cb event rfl
  · exact q handle cb event older hold

namespace Config

open Loop

variable {c c' : Config Ev} {a : Action Ev} {handle : Handle}

def Asked (c : Config Ev) (handle : Handle) (cb : Callback) : Prop :=
  ∃ o ∈ c.log, cb.AskedBy handle o

theorem Asked.mono {cb : Callback} (h : c.Asked handle cb) (hlog : c.log ⊆ c'.log) :
    c'.Asked handle cb := by
  obtain ⟨o, hmem, hasked⟩ := h
  exact ⟨o, hlog hmem, hasked⟩

theorem asked_of_head {cb : Callback} {o : Obs Ev} (hlog : c'.log = o :: c.log)
    (hasked : cb.AskedBy handle o) : c'.Asked handle cb :=
  ⟨o, hlog ▸ List.mem_cons_self, hasked⟩

/-! ## The ways into the registries -/

theorem Edit.signalRecipients (e : Edit a c c') {signal : Signal}
    (hmem : handle ∈ c'.loop.signalRecipients signal.num) :
    handle ∈ c.loop.signalRecipients signal.num ∨
      c'.log = .answered (some handle) (.scope (.signal signal)) (.ok .unit) :: c.log := by
  cases e with
  | signalled signal' handle' ha hctl hcaller =>
      by_cases heq : signal.num = signal'.num
      · obtain rfl := Signal.eq_of_num heq
        simp only [answer, Function.update_self, ListSet.mem_insert] at hmem
        rcases hmem with rfl | hold
        · exact .inr (by rw [answer, hcaller])
        · exact .inl hold
      · exact .inl (by simpa [answer, Function.update_of_ne heq] using hmem)
  | killed handle' resp result holder events deregisters handler =>
      exact .inl (ListSet.mem_erase.mp hmem).2
  | reorderedRecipients signum order ha hperm =>
      by_cases heq : signal.num = signum
      · subst heq
        exact .inl (by simpa [setRecipients] using hmem)
      · exact .inl (by simpa [setRecipients, heq] using hmem)
  | _ => exact .inl hmem

theorem Edit.wantIdle (e : Edit a c c') (hmem : handle ∈ c'.loop.wantIdle) :
    handle ∈ c.loop.wantIdle ∨
      c'.log = .answered (some handle) (.scope .idle) (.ok .unit) :: c.log := by
  cases e with
  | idled handle' ha hctl hcaller =>
      rcases ListSet.mem_pushBack.mp hmem with rfl | hold
      · exact .inr (by rw [answer, hcaller])
      · exact .inl hold
  | killed => exact .inl (ListSet.mem_erase.mp hmem).2
  | idleTaken handle' rest ha hctl hsched hpop =>
      exact .inl ((ListSet.mem_of_popFront hpop).mpr (.inr hmem))
  | _ => exact .inl hmem

theorem Edit.ios (e : Edit a c c') {idx : Nat} (hget : c'.loop.ios.get? idx = some handle) :
    c.loop.ios.get? idx = some handle ∨ ∃ growth, c'.log =
      .answered (some handle) (.scope (.ioRegisterAny growth none)) (.ok (.ioId (.ofIdx idx))) ::
        c.log := by
  cases e with
  | ioRefused growth err handle' ios ha hctl hcaller hios => exact .inl (hios idx ▸ hget)
  | ioRegistered growth handle' holder idx' ios events ha hctl hcaller hget' hstore hset =>
      change ios.get? idx = some handle at hget
      rw [(Recycler.store_ok hstore).get?] at hget
      split at hget
      · rename_i heq
        cases hget
        exact .inr ⟨growth, by rw [answer, hcaller, heq]⟩
      · exact .inl hget
  | ioRemoved id outcome handle' holder ios events ans ha hctl hcaller hget' hmem hset hios =>
      change ios.get? idx = some handle at hget
      rw [hios.get?] at hget
      split at hget
      · cases hget
      · exact .inl hget
  | drained ios ha hctl hsched hheld hios =>
      change ios.get? idx = some handle at hget
      rw [hios] at hget
      split at hget
      · cases hget
      · exact .inl hget
  | _ => exact .inl hget

theorem Edit.children (e : Edit a c c') {pid : Pid}
    (hlookup : c'.loop.children.lookup pid = some handle) :
    c.loop.children.lookup pid = some handle ∨
      c'.log = .answered (some handle) (.scope (.child pid)) (.ok .unit) :: c.log := by
  cases e with
  | tracked pid' handle' holder events ha hctl hcaller hget hfresh hset =>
      change (c.loop.children.insert pid' handle').lookup pid = some handle at hlookup
      by_cases heq : pid = pid'
      · subst heq
        rw [AList.lookup_insert] at hlookup
        cases hlookup
        exact .inr (by rw [answer, hcaller])
      · rw [AList.lookup_insert_ne heq] at hlookup
        exact .inl hlookup
  | killed handle' resp result holder events deregisters handler =>
      change (holder.children.toList.foldl _ c.loop.children).lookup pid = some handle at hlookup
      rw [Loop.lookup_foldl_erase] at hlookup
      split at hlookup
      · cases hlookup
      · exact .inl hlookup
  | reaped pid' exit handle' holder events =>
      change (c.loop.children.erase pid').lookup pid = some handle at hlookup
      by_cases heq : pid = pid'
      · subst heq
        rw [AList.lookup_erase] at hlookup
        cases hlookup
      · rw [AList.lookup_erase_ne heq] at hlookup
        exact .inl hlookup
  | _ => exact .inl hlookup

/-- What stands in the registries has been asked for. -/
structure Interests (c : Config Ev) : Prop where
  timeouts (t : TimeoutHolder) : t ∈ c.loop.timeouts → c.Asked t.recipient (.timeout t.id)
  signals (signal : Signal) (handle : Handle) :
    handle ∈ c.loop.signalRecipients signal.num → c.Asked handle (.signal signal)
  idle (handle : Handle) : handle ∈ c.loop.wantIdle → c.Asked handle .idle
  ios (id : IoId) (ready : Ready) (handle : Handle) :
    c.loop.ios.get? id.idx = some handle → c.Asked handle (.io id ready)
  children (pid : Pid) (exit : ChildExit) (handle : Handle) :
    c.loop.children.lookup pid = some handle → c.Asked handle (.child pid exit)

theorem IoId.ofIdx_idx (id : IoId) : IoId.ofIdx id.idx = id := by
  cases id
  simp only [IoId.ofIdx, IoId.idx, IoId.mk.injEq]
  omega

theorem interests_edit (q : Interests c) (e : Edit a c c') : Interests c' where
  timeouts t hmem := by
    rcases e.timeouts t hmem with hold | ⟨op, _, _, _, hlog⟩
    · exact (q.timeouts t hold).mono e.log_suffix.subset
    · exact asked_of_head hlog ⟨op, rfl⟩
  signals signal handle hmem := by
    rcases e.signalRecipients hmem with hold | hlog
    · exact (q.signals signal handle hold).mono e.log_suffix.subset
    · exact asked_of_head hlog rfl
  idle handle hmem := by
    rcases e.wantIdle hmem with hold | hlog
    · exact (q.idle handle hold).mono e.log_suffix.subset
    · exact asked_of_head hlog rfl
  ios id ready handle hget := by
    rcases e.ios hget with hold | ⟨growth, hlog⟩
    · exact (q.ios id ready handle hold).mono e.log_suffix.subset
    · rw [IoId.ofIdx_idx] at hlog
      exact asked_of_head hlog ⟨growth, rfl⟩
  children pid exit handle hlookup := by
    rcases e.children hlookup with hold | hlog
    · exact (q.children pid exit handle hold).mono e.log_suffix.subset
    · exact asked_of_head hlog rfl

theorem Visited.interests {P : Config Ev → Action Ev → Prop} (h : Visited P c) : Interests c := by
  induction h with
  | start now => constructor <;> simp [init, Loop.new, Recycler.get?_new]
  | edit _ _ he ih => exact interests_edit ih he

/-! ## From the registries to the callbacks -/

/-- The tasks in the queue and the callback that is about to begin have been asked for. -/
structure AllAsked (c : Config Ev) : Prop where
  queued (task : Task) : task ∈ c.loop.scheduled → c.Asked task.recipient task.param.callback
  called (handle : Handle) (cb : Callback) : c.ctl = .call handle cb → c.Asked handle cb

/-- Messages apart, a task is asked for if all is that stands in the registries. -/
theorem asked_of_origin (q : Interests c) {task : Task} (o : Origin a c task)
    (hkind : ∀ m, task.param ≠ .message m) : c.Asked task.recipient task.param.callback := by
  cases o with
  | sent | received => exact absurd rfl (hkind _)
  | child pid exit handle ha hlookup => exact q.children pid exit handle hlookup
  | signal signal handle ha hmem => exact q.signals signal handle hmem
  | io env ev polled id handle ha hpoll hev hid hget => exact q.ios id ev.kind handle hget
  | timeout t ha hmem => exact q.timeouts t hmem
  | idle handle ha hmem => exact q.idle handle hmem

theorem allAsked_edit (i : Interests c) (m : Entitled c') (q : AllAsked c) (e : Edit a c c') :
    AllAsked c' := by
  have hold {handle : Handle} {cb : Callback} (h : c.Asked handle cb) : c'.Asked handle cb :=
    h.mono e.log_suffix.subset
  refine ⟨fun task hmem => ?_, fun handle cb hctl' => ?_⟩
  · by_cases hkind : ∃ msg, task.param = .message msg
    · obtain ⟨msg, hparam⟩ := hkind
      exact ⟨_, m.queued task hmem msg hparam, by rw [hparam]; rfl⟩
    · rcases e.origin task hmem with hmem | horigin
      · exact hold (q.queued task hmem)
      · exact hold (asked_of_origin i horigin fun msg hparam => hkind ⟨msg, hparam⟩)
  · cases e with
    | stored event growth idx events =>
        cases hctl'
        exact asked_of_head rfl ⟨event, rfl⟩
    | posted handle' data tp holder =>
        cases hctl'
        exact ⟨_, m.called _ _ rfl, rfl⟩
    | passed task rest holder ha hctl hsched =>
        cases hctl'
        exact hold (q.queued task (by simp [hsched]))
    | fired task rest id left holder events ha hctl hsched hparam =>
        cases hctl'
        have hqueued := q.queued task (by simp [hsched])
        rw [hparam] at hqueued
        exact hold hqueued
    | beganRunOne | beganRun | beganUntilComplete | entered | turnedAway | finished | kept | killed
    | lost | again | gaveBack | gatherFailed => cases hctl'
    | _ => exact hold (q.called handle cb hctl')

theorem Visited.allAsked {P : Config Ev → Action Ev → Prop} (h : Visited P c) : AllAsked c := by
  induction h with
  | start now => exact ⟨by simp [init, Loop.new], by simp [init]⟩
  | edit hv hp he ih => exact allAsked_edit hv.interests (Visited.edit hv hp he).entitled ih he

/-- What holds whenever an event is about to be called holds all along the history of few
insertions. -/
theorem Visited.whenCalled {P : Handle → Callback → List (Obs Ev) → Prop}
    (call : ∀ (c : Config Ev) handle cb, Visited Anything c → c.issued.length ≤ 2 ^ 64 →
      c.ctl = .call handle cb → P handle cb c.log)
    (h : Visited Anything c) (hfew : c.issued.length ≤ 2 ^ 64) : WhenCalled P c.log := by
  induction h with
  | start now =>
      intro handle cb event older hsuffix
      cases List.suffix_nil.mp hsuffix
  | edit hv _ he ih =>
      have hold := Nat.le_trans he.issued_length_le hfew
      have q := ih hold
      cases he with
      | entered handle cb holder events ha hctl =>
          apply q.cons
          rintro _ _ _ ⟨⟩
          exact call _ handle cb hv hold hctl
      | _ => first | exact q | exact q.cons (by simp)

theorem asked_call {cb : Callback} (h : Visited Anything c) (hfew : c.issued.length ≤ 2 ^ 64)
    (hctl : c.ctl = .call handle cb) : ∃ o ∈ lifetime handle c.log, cb.AskedBy handle o := by
  have halive := h.callsAlive _ _ hctl
  rw [lifetime_of_not_slain ((h.identity.alive_iff hfew _).mp halive).2]
  exact h.allAsked.called _ _ hctl

/-- With at most 2^64 insertions, whenever a callback of an event is called, this same event has
asked for it in its present life. -/
theorem every_callback_was_asked_for (c : Config Ev) (h : Reachable c)
    (hfew : c.issued.length ≤ 2 ^ 64) :
    WhenCalled (fun handle cb older => ∃ o ∈ lifetime handle older, cb.AskedBy handle o) c.log :=
  h.visited.whenCalled (fun _ _ _ => asked_call) hfew

/-- An event wants to be called when the loop is idle and when a child exits, and the child does. -/
def twoWishes : List (Action Unit) :=
  [insertQuick, .tick, .call (.scope .idle), .call (.scope (.child 5)), .finish () (.ok true),
    .settle true (.ok ()), .tick, .dispatch .SIGCHLD, .call (.iface .runOne),
    .gather ⟨0, .ok [⟨1, ⟨1⟩, 0⟩], 1, [.ok (.exited 5 0)]⟩, .tick, .tick]

theorem every_callback_was_asked_for_twoWishes :
    ∃ o ∈ lifetime ⟨0, 0⟩ (after 0 twoWishes).log.tail,
      Callback.AskedBy ⟨0, 0⟩ (.child 5 (.exited 0)) o :=
  every_callback_was_asked_for _ (reachable_after 0 twoWishes) (by decide) ⟨0, 0⟩
    (.child 5 (.exited 0)) () _ (List.suffix_refl _)

end Config

/-! ## Wishes that come true once -/

/-- A wish for a single callback. -/
inductive Once
  | idle
  | child (pid : Pid)

namespace Once

/-- The callback is the one wished for. -/
def meant (once : Once) (cb : Callback) : Bool :=
  match cb, once with
  | .idle, .idle => true
  | .child pid _, .child pid' => decide (pid = pid')
  | _, _ => false

def granted (once : Once) (op : Op Ev) (ans : Answer) : Bool :=
  match op, ans, once with
  | .scope .idle, .ok _, .idle => true
  | .scope (.child pid), .ok _, .child pid' => decide (pid = pid')
  | _, _, _ => false

variable (once : Once) (handle : Handle)

def makes : Obs Ev → Bool
  | .answered caller op ans => once.granted op ans && decide (caller = some handle)
  | _ => false

/-- The event gets the callback, or is busy and misses it. -/
def gets : Obs Ev → Bool
  | .called h cb _ => once.meant cb && decide (h = handle)
  | .refused h cb _ => once.meant cb && decide (h = handle)
  | _ => false

def inTask (task : Task) : Bool :=
  once.meant task.param.callback && decide (task.recipient = handle)

def inCtl : Ctl → Bool
  | .call h cb => once.meant cb && decide (h = handle)
  | _ => false

/-- The wish stands in its registry. -/
def stands (l : Loop Ev) : Bool :=
  match once with
  | .idle => decide (handle ∈ l.wantIdle)
  | .child pid => decide (l.children.lookup pid = some handle)

/-- The wishes that are still to come true. -/
def pending (c : Config Ev) : Nat :=
  (once.inCtl handle c.ctl).toNat + c.loop.scheduled.countP (once.inTask handle) +
    (once.stands handle c.loop).toNat

/-- No wish comes true twice. -/
def Balanced (c : Config Ev) : Prop :=
  c.log.countP (once.gets handle) + once.pending handle c ≤ c.log.countP (once.makes handle)

variable {once handle} {c c' : Config Ev} {a : Action Ev}

theorem Balanced.mono (q : once.Balanced handle c)
    (hgets : c'.log.countP (once.gets handle) ≤ c.log.countP (once.gets handle))
    (hctl : (once.inCtl handle c'.ctl).toNat ≤ (once.inCtl handle c.ctl).toNat)
    (hqueued : c'.loop.scheduled.countP (once.inTask handle) ≤
      c.loop.scheduled.countP (once.inTask handle))
    (hstands : once.stands handle c'.loop = true → once.stands handle c.loop = true)
    (hmakes : c.log.countP (once.makes handle) ≤ c'.log.countP (once.makes handle)) :
    once.Balanced handle c' := by
  have hle : (once.stands handle c'.loop).toNat ≤ (once.stands handle c.loop).toNat :=
    Bool.toNat_le_toNat hstands
  unfold Balanced pending at q ⊢
  omega

theorem if_eq_toNat (b : Bool) : (if b = true then 1 else 0) = b.toNat := by
  cases b <;> rfl

theorem countP_scheduled {queue new : List Task}
    (hnew : ∀ task ∈ new, once.meant task.param.callback = false) :
    (queue ++ new).countP (once.inTask handle) = queue.countP (once.inTask handle) := by
  have hnone : new.countP (once.inTask handle) = 0 :=
    List.countP_eq_zero.mpr fun task hmem => by simp [inTask, hnew task hmem]
  rw [List.countP_append, hnone, Nat.add_zero]

/-- A wish that is granted stands in its registry. -/
theorem Balanced.answered (q : once.Balanced handle c) {op : Op Ev} {ans : Answer}
    (hlog : c'.log = .answered c.caller op ans :: c.log) (hctl : c'.ctl = c.ctl)
    (hsched : c'.loop.scheduled = c.loop.scheduled)
    (hstands : once.stands handle c'.loop = true → once.stands handle c.loop = true ∨
      (once.granted op ans = true ∧ c.caller = some handle)) : once.Balanced handle c' := by
  have hgets : once.gets handle (.answered c.caller op ans : Obs Ev) = false := rfl
  have hmakes : once.makes handle (.answered c.caller op ans : Obs Ev) =
      (once.granted op ans && decide (c.caller = some handle)) := rfl
  unfold Balanced pending at q ⊢
  rw [hlog, hctl, hsched, List.countP_cons, List.countP_cons, hgets, hmakes]
  cases hnew : once.stands handle c'.loop with
  | false =>
      simp only [Bool.false_eq_true, ↓reduceIte, Bool.toNat_false]
      omega
  | true =>
      rcases hstands hnew with hold | ⟨hgranted, hcaller⟩
      · rw [hold] at q
        simp only [Bool.false_eq_true, ↓reduceIte]
        omega
      · simp only [hgranted, hcaller, decide_true, Bool.and_self, Bool.false_eq_true, ↓reduceIte,
          Bool.toNat_true]
        omega

/-- The callback is called, or missed. -/
theorem Balanced.delivered (q : once.Balanced handle c) {h : Handle} {cb : Callback} {o : Obs Ev}
    (hctl : c.ctl = .call h cb) (hlog : c'.log = o :: c.log)
    (ho : once.gets handle o = (once.meant cb && decide (h = handle)))
    (hmakes : once.makes handle o = false) (hctl' : once.inCtl handle c'.ctl = false)
    (hsched : c'.loop.scheduled = c.loop.scheduled)
    (hstands : once.stands handle c'.loop = once.stands handle c.loop) :
    once.Balanced handle c' := by
  have hinCtl : once.inCtl handle c.ctl = (once.meant cb && decide (h = handle)) := by
    rw [hctl]
    rfl
  unfold Balanced pending at q ⊢
  rw [hlog, List.countP_cons, List.countP_cons, ho, hmakes, hctl', hsched, hstands]
  rw [hinCtl] at q
  cases hmeant : once.meant cb && decide (h = handle) with
  | false =>
      simp only [hmeant, Bool.toNat_false, Bool.false_eq_true, ↓reduceIte] at q ⊢
      omega
  | true =>
      simp only [hmeant, Bool.toNat_true, Bool.toNat_false, Bool.false_eq_true, ↓reduceIte] at q ⊢
      omega

/-- A wish leaves its registry for the queue. -/
theorem Balanced.scheduled (q : once.Balanced handle c) {task : Task}
    (hlog : c'.log = c.log) (hctl : c'.ctl = c.ctl)
    (hsched : c'.loop.scheduled = c.loop.scheduled ++ [task])
    (hstands : once.stands handle c'.loop = true →
      once.stands handle c.loop = true ∧ once.inTask handle task = false)
    (htask : once.inTask handle task = true → once.stands handle c.loop = true) :
    once.Balanced handle c' := by
  have hle : (once.inTask handle task).toNat + (once.stands handle c'.loop).toNat ≤
      (once.stands handle c.loop).toNat := by
    cases hnew : once.stands handle c'.loop with
    | true => simp [hstands hnew]
    | false =>
        cases hin : once.inTask handle task with
        | true => simp [htask hin]
        | false => simp
  unfold Balanced pending at q ⊢
  rw [hlog, hctl, hsched, List.countP_append, List.countP_singleton, if_eq_toNat]
  omega

theorem Balanced.popped (q : once.Balanced handle c) {task : Task} {rest : List Task} {o : Obs Ev}
    (hsched : c.loop.scheduled = task :: rest) (hsched' : c'.loop.scheduled = rest)
    (hlog : c'.log = o :: c.log) (ho : once.gets handle o = false)
    (hmakes : once.makes handle o = false)
    (hctl : once.inCtl handle c'.ctl = true → once.inTask handle task = true)
    (hstands : once.stands handle c'.loop = once.stands handle c.loop) :
    once.Balanced handle c' := by
  have hle : (once.inCtl handle c'.ctl).toNat ≤ (once.inTask handle task).toNat :=
    Bool.toNat_le_toNat hctl
  unfold Balanced pending at q ⊢
  rw [hsched, List.countP_cons, if_eq_toNat] at q
  rw [hlog, hsched', hstands, List.countP_cons, List.countP_cons, ho, hmakes]
  simp only [Bool.false_eq_true, ↓reduceIte]
  omega

theorem balanced_edit (q : once.Balanced handle c) (e : Config.Edit a c c') :
    once.Balanced handle c' := by
  cases e with
  | idled handle' ha hctl hcaller =>
      refine q.answered rfl rfl rfl fun hstands => ?_
      cases once with
      | child pid => exact .inl hstands
      | idle =>
          rcases ListSet.mem_pushBack.mp (of_decide_eq_true hstands) with heq | hold
          · exact .inr ⟨rfl, heq ▸ hcaller⟩
          · exact .inl (decide_eq_true hold)
  | tracked pid handle' holder events ha hctl hcaller hget hfresh hset =>
      refine q.answered rfl rfl rfl fun hstands => ?_
      cases once with
      | idle => exact .inl hstands
      | child pid' =>
          by_cases heq : pid' = pid
          · subst heq
            have hlookup := of_decide_eq_true hstands
            simp only [Config.answer, AList.lookup_insert, Option.some.injEq] at hlookup
            exact .inr ⟨decide_eq_true rfl, hlookup ▸ hcaller⟩
          · refine .inl ?_
            simpa [stands, Config.answer, AList.lookup_insert_ne heq] using hstands
  | entered h cb holder events ha hctl =>
      exact q.delivered hctl rfl rfl rfl rfl rfl rfl
  | turnedAway h cb err ha hctl =>
      exact q.delivered hctl rfl rfl rfl rfl rfl rfl
  | passed task rest holder ha hctl hsched =>
      exact q.popped hsched rfl rfl rfl rfl id rfl
  | dropped task rest ha hctl hsched =>
      refine q.popped hsched rfl rfl rfl rfl ?_ rfl
      simp [inCtl, hctl]
  | lost task rest _ _ _ _ ha hctl hsched | fired task rest _ _ _ _ ha hctl hsched =>
      refine q.popped hsched rfl rfl rfl rfl ?_ rfl
      simp [inCtl, meant]
  | reaped pid exit handle' holder events ha hctl hlookup =>
      refine q.scheduled rfl rfl rfl (fun hstands => ?_) fun htask => ?_
      · cases once with
        | idle => exact ⟨hstands, rfl⟩
        | child pid' =>
            have hne : pid' ≠ pid := by
              rintro rfl
              simp [stands, Loop.schedule] at hstands
            simp only [stands, Loop.schedule, AList.lookup_erase_ne hne] at hstands
            exact ⟨hstands, by simp [inTask, meant, TaskParam.callback, Ne.symm hne]⟩
      · cases once with
        | idle => cases htask
        | child pid' =>
            simp only [inTask, meant, TaskParam.callback, Bool.and_eq_true,
              decide_eq_true_eq] at htask
            obtain ⟨rfl, rfl⟩ := htask
            exact decide_eq_true hlookup
  | idleTaken handle' rest ha hctl hsched hpop =>
      refine q.scheduled rfl rfl rfl (fun hstands => ?_) fun htask => ?_
      · cases once with
        | child pid => exact ⟨hstands, rfl⟩
        | idle =>
            have hmem : handle ∈ rest := of_decide_eq_true hstands
            have hnodup := c.loop.wantIdle.nodup
            rw [ListSet.toList_of_popFront hpop] at hnodup
            have hne : handle' ≠ handle := by
              rintro rfl
              exact (List.nodup_cons.mp hnodup).1 hmem
            exact ⟨decide_eq_true ((ListSet.mem_of_popFront hpop).mpr (.inr hmem)),
              by simp [inTask, hne]⟩
      · cases once with
        | child pid => cases htask
        | idle =>
            obtain rfl : handle' = handle := by
              simpa [inTask, meant, TaskParam.callback] using htask
            exact decide_eq_true ((ListSet.mem_of_popFront hpop).mpr (.inl rfl))
  | killed handle' resp result holder events deregisters handler =>
      refine q.mono le_rfl (Nat.zero_le _) le_rfl (fun hstands => ?_) le_rfl
      cases once with
      | idle => exact decide_eq_true (ListSet.mem_erase.mp (of_decide_eq_true hstands)).2
      | child pid =>
          have hlookup := of_decide_eq_true hstands
          rw [Loop.lookup_foldl_erase] at hlookup
          split at hlookup
          · cases hlookup
          · exact decide_eq_true hlookup
  | sent | received | ready =>
      refine q.mono le_rfl le_rfl (le_of_eq (countP_scheduled fun task hmem => ?_)) id le_rfl
      obtain rfl := List.mem_singleton.mp hmem
      rfl
  | broadcast | timed =>
      refine q.mono le_rfl le_rfl (le_of_eq (countP_scheduled fun task hmem => ?_)) id le_rfl
      obtain ⟨_, _, rfl⟩ := List.mem_map.mp hmem
      rfl
  | refusal | query | lent | stopped | timer | signalled | expected | ioRefused | ioRegistered
  | ioRemoved | submitted | poolSet | enabled =>
      exact q.answered rfl rfl rfl .inl
  | beganRunOne | beganRun | beganUntilComplete | stored | posted | finished | kept | again
  | gaveBack | gatherFailed =>
      exact q.mono le_rfl (Nat.zero_le _) le_rfl id le_rfl
  | _ => exact q.mono le_rfl le_rfl le_rfl id le_rfl

theorem balanced_init (now : Nat) : once.Balanced handle (.init now : Config Ev) := by
  cases once <;> simp [Balanced, pending, inCtl, stands, Config.init, Loop.new]

theorem balanced_of_visited {P : Config Ev → Action Ev → Prop} (h : Config.Visited P c) :
    once.Balanced handle c := by
  induction h with
  | start now => exact balanced_init now
  | edit _ _ he ih => exact balanced_edit ih he

/-- An event is called for being idle at most as often as it has asked for it, and told of the exit
of a child at most as often as it has asked to watch this child.  What is still to come counts as
well. -/
theorem no_wish_comes_true_twice (c : Config Ev) (h : Config.Reachable c) (once : Once)
    (handle : Handle) :
    c.log.countP (once.gets handle) + once.pending handle c ≤ c.log.countP (once.makes handle) :=
  balanced_of_visited h.visited

theorem no_wish_comes_true_twice_twoWishes :
    pending .idle ⟨0, 0⟩ (Config.after 0 Config.twoWishes) = 1 ∧
      (Config.after 0 Config.twoWishes).log.countP (gets (.child 5) ⟨0, 0⟩) ≤ 1 := by
  have h := no_wish_comes_true_twice _ (Config.reachable_after 0 Config.twoWishes) (.child 5) ⟨0, 0⟩
  exact ⟨by decide, Nat.le_of_add_right_le h⟩

end Once

end Eveboros
