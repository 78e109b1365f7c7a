import Eveboros.Machine.Origin
import Eveboros.Runs.Timers

/-!
# Timeouts are neither lost, duplicated nor early

A timeout of a live event is in the heap, in the queue or dispatched, and in one of these places
only.  It moves to the queue in a gather that finds it due, and is dispatched to the event that
registered it, whose callback runs once unless the event is busy.
-/

namespace Eveboros

variable {Ev : Type}

/-- The delivery of a timeout: the callback starts, or the event is busy. -/
def Obs.delivers : Obs Ev → Option Timer
  | .called handle (.timeout id) _ => some ⟨handle, id⟩
  | .refused handle (.timeout id) .busy => some ⟨handle, id⟩
  | _ => none

def Ctl.timer : Ctl → Option Timer
  | .call handle (.timeout id) => some ⟨handle, id⟩
  | _ => none

/-- In this history, newest first, the timeout was registered and its event not killed since. -/
def stillOwn (timer : Timer) : List (Obs Ev) → Bool
  | [] => false
  | o :: older =>
      if o.registers = some timer then true
      else if o.slain = some timer.recipient then false
      else stillOwn timer older

/-- Every timeout was dispatched to the event that registered it. -/
def OwnTimeouts : List (Obs Ev) → Prop
  | [] => True
  | o :: older => (∀ timer, o.fires = some timer → stillOwn timer older = true) ∧ OwnTimeouts older

theorem stillOwn_of_mem {timer : Timer} {log : List (Obs Ev)}
    (hreg : timer ∈ log.filterMap Obs.registers)
    (hslain : timer.recipient ∉ log.filterMap Obs.slain) :
    stillOwn timer log = true := by
  induction log with
  | nil => cases hreg
  | cons o older ih =>
      rw [stillOwn]
      split
      · rfl
      · rename_i hother
        have hne : o.slain ≠ some timer.recipient := fun heq =>
          hslain (List.mem_filterMap.mpr ⟨o, List.mem_cons_self, heq⟩)
        rw [if_neg hne]
        refine ih ?_ fun hmem => hslain ?_
        · obtain ⟨o', ho', heq⟩ := List.mem_filterMap.mp hreg
          rcases List.mem_cons.mp ho' with rfl | ho'
          · exact absurd heq hother
          · exact List.mem_filterMap.mpr ⟨o', ho', heq⟩
        · obtain ⟨o', ho', heq⟩ := List.mem_filterMap.mp hmem
          exact List.mem_filterMap.mpr ⟨o', List.mem_cons_of_mem _ ho', heq⟩

namespace Config

open Loop

variable {c c' : Config Ev} {a : Action Ev}

def delivered (c : Config Ev) : List Timer := c.log.filterMap Obs.delivers

/-- What the heap, the queue and the history of dispatches owe to the timeouts registered. -/
structure TimeoutsKept (c : Config Ev) : Prop where
  /-- No id is issued twice. -/
  distinct : (c.registered.map Timer.id).Nodup
  /-- A timeout of a live event is in exactly one place, any other in at most one. -/
  placed : ∀ timer ∈ c.registered, c.loop.eventAlive timer.recipient = true →
    c.loop.inHeap.count timer + c.loop.inQueue.count timer + c.dispatched.count timer = 1
  bounded (timer : Timer) :
    c.loop.inHeap.count timer + c.loop.inQueue.count timer + c.dispatched.count timer ≤
      c.registered.count timer
  /-- Each dispatch is one delivery, but for the one that is just being made. -/
  delivered : c.dispatched = c.ctl.timer.toList ++ c.delivered
  own : OwnTimeouts c.log

/-! ## Delivery -/

structure Delivery (c : Config Ev) : Prop where
  delivered : c.dispatched = c.ctl.timer.toList ++ c.delivered
  alive (timer : Timer) : c.ctl.timer = some timer → c.loop.eventAlive timer.recipient = true

theorem Delivery.congr (v : Delivery c) (d : Discipline c) (e : Edit a c c')
    (hctl : c'.ctl.timer = c.ctl.timer) (hdispatched : c'.dispatched = c.dispatched)
    (hdelivered : c'.delivered = c.delivered) : Delivery c' where
  delivered := by rw [hdispatched, hctl, hdelivered, v.delivered]
  alive timer htimer := by
    rw [hctl] at htimer
    apply e.eventAlive d (v.alive timer htimer)
    intro resp hsettle
    simp [hsettle, Ctl.timer] at htimer

/-- An answer to a call of anything but a timeout. -/
theorem ctl_timer_call {handle : Handle} {cb : Callback} (h : ∀ id, cb ≠ .timeout id) :
    (Ctl.call handle cb).timer = none := by
  cases cb <;> first | rfl | exact absurd rfl (h _)

theorem delivery_entered (v : Delivery c) {handle : Handle} {cb : Callback} {event : Ev}
    (hctl : c.ctl = .call handle cb) (hctl' : c'.ctl = .user)
    (hlog : c'.log = .called handle cb event :: c.log) : Delivery c' where
  delivered := by
    have hsame : c'.dispatched = c.dispatched := by
      rw [dispatched, hlog]
      rfl
    rw [hsame, v.delivered, hctl, hctl', Config.delivered, Config.delivered, hlog]
    cases cb <;> rfl
  alive timer htimer := by simp [hctl', Ctl.timer] at htimer

theorem delivery_turnedAway (v : Delivery c) {handle : Handle} {cb : Callback} {err : Error}
    (hctl : c.ctl = .call handle cb) (hctl' : c'.ctl = .ret (.error err))
    (hwhy : (err = .missing ∧ c.loop.eventAlive handle = false) ∨ err = .busy)
    (hlog : c'.log = .refused handle cb err :: c.log) : Delivery c' where
  delivered := by
    have hsame : c'.dispatched = c.dispatched := by
      rw [dispatched, hlog]
      rfl
    rw [hsame, v.delivered, hctl, hctl', Config.delivered, Config.delivered, hlog]
    cases cb with
    | timeout id =>
        rcases hwhy with ⟨_, hdead⟩ | rfl
        · have halive := v.alive ⟨handle, id⟩ (by rw [hctl]; rfl)
          rw [hdead] at halive
          cases halive
        · rfl
    | _ => rfl
  alive timer htimer := by simp [hctl', Ctl.timer] at htimer

theorem delivery_fired (v : Delivery c) {task : Task} {id : TimeoutId}
    (hparam : task.param = .timeout id) (hctl : c.ctl = .runOne)
    (hctl' : c'.ctl = .call task.recipient (.timeout id))
    (halive : c'.loop.eventAlive task.recipient = true)
    (hlog : c'.log = .dispatched task :: c.log) : Delivery c' where
  delivered := by
    have hfires : Obs.fires (.dispatched task : Obs Ev) = some ⟨task.recipient, id⟩ :=
      Task.timer_of_timeout hparam
    rw [dispatched, hlog, List.filterMap_cons_some hfires]
    have hold := v.delivered
    rw [hctl, dispatched] at hold
    rw [hold, hctl', Config.delivered, Config.delivered, hlog]
    rfl
  alive timer htimer := by
    rw [hctl'] at htimer
    cases htimer
    exact halive

theorem delivery_edit (d : Discipline c) (v : Delivery c) (e : Edit a c c') : Delivery c' := by
  have he := e
  cases e with
  | entered handle cb holder events ha hctl hget hgen hfree hset =>
      exact delivery_entered v hctl rfl rfl
  | turnedAway handle cb err ha hctl hwhy =>
      refine delivery_turnedAway v hctl rfl ?_ rfl
      rcases hwhy with hmissing | ⟨hbusy, _⟩
      · exact .inl hmissing
      · exact .inr hbusy
  | fired task rest id left holder events ha hctl hsched hparam hget hgen hleft hset =>
      refine delivery_fired v hparam hctl rfl ?_ rfl
      rw [eventAlive_of_sets hset hget rfl rfl]
      exact eventAlive_iff.mpr ⟨holder, hget, hgen⟩
  | passed task rest holder ha hctl hsched hget hgen hkind hio =>
      have hcall : ∀ id, task.param.callback ≠ .timeout id := by
        intro id heq
        cases hparam : task.param <;> simp_all [TaskParam.callback, TaskParam.IsTimeout]
      have hfires : Obs.fires (.dispatched task : Obs Ev) = none := Task.timer_eq_none hkind
      refine v.congr d he ?_ ?_ rfl
      · rw [hctl]
        exact ctl_timer_call hcall
      · exact List.filterMap_cons_none hfires
  | lost task rest id ready source holder ha hctl hsched hparam hget hgen hgone =>
      have hfires : Obs.fires (.dispatched task : Obs Ev) = none := by
        simp [Obs.fires, Task.timer, hparam]
      refine v.congr d he ?_ ?_ rfl
      · rw [hctl]
        rfl
      · exact List.filterMap_cons_none hfires
  | beganRunOne ha hctl | beganRun _ ha hctl | beganUntilComplete _ _ ha hctl
  | stored _ _ _ _ ha hctl | posted _ _ _ _ ha hctl | kept _ ha hctl
  | killed _ _ _ _ _ _ _ ha hctl | again ha hctl | gaveBack _ _ _ _ ha hctl
  | finished _ _ _ _ _ _ _ _ ha hctl | gatherFailed _ ha hctl =>
      exact v.congr d he (by rw [hctl]; rfl) rfl rfl
  | _ => exact v.congr d he rfl rfl rfl

theorem Visited.delivery {P : Config Ev → Action Ev → Prop} (h : Visited P c) : Delivery c := by
  induction h with
  | start now => exact ⟨rfl, nofun⟩
  | edit hv _ he ih => exact delivery_edit hv.discipline ih he

/-! ## To whom -/

/-- What is on its way was registered by an event that is still there if the handle is alive. -/
theorem stillOwn_of_pending (b : c.ledger.Balanced) (hslain : ∀ handle,
    c.loop.eventAlive handle = true → handle ∉ c.slain) {timer : Timer}
    (hmem : timer ∈ c.loop.pending) (halive : c.loop.eventAlive timer.recipient = true) :
    stillOwn timer c.log = true := by
  rcases b.conserved with ⟨lost, hconserved, _⟩
  have hreg : timer ∈ (c.registered : Multiset Timer) := by
    have hall : timer ∈ (c.loop.pending + ↑c.dispatched + lost : Multiset Timer) := by
      simp [hmem]
    exact hconserved ▸ hall
  exact stillOwn_of_mem (Multiset.mem_coe.mp hreg) (hslain timer.recipient halive)

theorem own_fired (b : c.ledger.Balanced) (hslain : ∀ handle,
    c.loop.eventAlive handle = true → handle ∉ c.slain) (own : OwnTimeouts c.log) {task : Task}
    {rest : List Task} (hsched : c.loop.scheduled = task :: rest)
    (halive : c.loop.eventAlive task.recipient = true) :
    OwnTimeouts (.dispatched task :: c.log) := by
  refine ⟨fun timer hfires => ?_, own⟩
  have htimer : task.timer = some timer := hfires
  have hrecipient : timer.recipient = task.recipient := by
    unfold Task.timer at htimer
    split at htimer <;> cases htimer
    rfl
  refine stillOwn_of_pending b hslain ?_ (hrecipient ▸ halive)
  simp [pending, inQueue_cons hsched, htimer]

theorem own_edit (b : c.ledger.Balanced) (hslain : ∀ handle,
    c.loop.eventAlive handle = true → handle ∉ c.slain) (own : OwnTimeouts c.log)
    (e : Edit a c c') : OwnTimeouts c'.log := by
  cases e with
  | fired task rest id left holder events ha hctl hsched hparam hget hgen =>
      exact own_fired b hslain own hsched (eventAlive_iff.mpr ⟨holder, hget, hgen⟩)
  | passed task rest holder ha hctl hsched hget hgen =>
      exact own_fired b hslain own hsched (eventAlive_iff.mpr ⟨holder, hget, hgen⟩)
  | lost task rest id ready source holder ha hctl hsched hparam hget hgen =>
      exact own_fired b hslain own hsched (eventAlive_iff.mpr ⟨holder, hget, hgen⟩)
  | _ => first | exact own | exact ⟨nofun, own⟩

theorem Visited.own {P : Config Ev → Action Ev → Prop} (h : Visited P c)
    (hfew : c.issued.length ≤ 2 ^ 64) : OwnTimeouts c.log := by
  induction h with
  | start now => trivial
  | edit hv _ he ih =>
      have hold := Nat.le_trans he.issued_length_le hfew
      refine own_edit (balanced_of_few hv.any hold) (fun handle halive => ?_) (ih hold) he
      exact ((hv.identity.alive_iff hold handle).mp halive).2

/-! ## Where -/

theorem count_pending (timer : Timer) : c.ledger.pending.count timer =
    c.loop.inHeap.count timer + c.loop.inQueue.count timer := by
  simp [ledger, pending]

theorem conserved_count (b : c.ledger.Balanced) (timer : Timer) :
    ∃ lost, c.registered.count timer = c.loop.inHeap.count timer + c.loop.inQueue.count timer +
      c.dispatched.count timer + lost ∧ (c.loop.eventAlive timer.recipient = true → lost = 0) := by
  rcases b.conserved with ⟨lost, hconserved, hlost⟩
  refine ⟨lost.count timer, ?_, fun halive => Multiset.count_eq_zero.mpr fun hmem => ?_⟩
  · have hcount := congrArg (Multiset.count timer) hconserved
    rw [Multiset.count_add, Multiset.count_add, count_pending] at hcount
    simpa [ledger] using hcount
  · have hdead := (hlost timer hmem).2
    rw [ledger_alive, halive] at hdead
    cases hdead

theorem registered_distinct (b : c.ledger.Balanced) (hfew : c.registered.length ≤ 2 ^ 64) :
    (c.registered.map Timer.id).Nodup := by
  have hstamped : c.registered.map (fun x => x.id.raw) =
      Stamps.issue (2 ^ 64) c.registered.length := b.stamped
  apply List.Nodup.of_map TimeoutId.raw
  rw [List.map_map]
  exact hstamped ▸ Stamps.nodup_issue hfew

theorem timeoutsKept (h : Visited Anything c) (hfew : c.issued.length ≤ 2 ^ 64)
    (htimeouts : c.registered.length ≤ 2 ^ 64) : TimeoutsKept c := by
  have b := balanced_of_few h hfew
  have hdistinct := registered_distinct b htimeouts
  refine ⟨hdistinct, fun timer hmem halive => ?_, fun timer => ?_, h.delivery.delivered,
    h.own hfew⟩
  · obtain ⟨lost, hcount, hlost⟩ := conserved_count b timer
    have hone := List.count_eq_one_of_mem (List.Nodup.of_map Timer.id hdistinct) hmem
    rw [hlost halive, hone] at hcount
    exact hcount.symm
  · obtain ⟨lost, hcount, _⟩ := conserved_count b timer
    omega

/-! ## When -/

/-- What is due leaves the heap, earliest deadline first, and nothing else does. -/
theorem tasksGatherTimers_exact (l : Loop Ev) : ∃ due,
    l.tasksGatherTimers.scheduled = l.scheduled ++ due.map timeoutTask ∧
    (due ++ l.tasksGatherTimers.timeouts).Perm l.timeouts ∧
    (∀ t ∈ due, t.when ≤ l.now) ∧ due.Pairwise (fun t t' => t.when ≤ t'.when) ∧
    ∀ t ∈ l.tasksGatherTimers.timeouts, l.now < t.when := by
  have hearlier (t t' : TimeoutHolder) (hkey : t.key ≤ t'.key)
      (hdue : decide (t.when ≤ l.now) = true) : decide (t'.when ≤ l.now) = true := by
    rw [TimeoutHolder.key_le_key] at hkey
    simp only [decide_eq_true_eq] at hdue ⊢
    omega
  refine ⟨_, rfl, PriorityHeap.popWhile_perm _ _, fun t ht => (due_of_popped ht).2,
    @PriorityHeap.popWhile_sorted _ _ _ TimeoutHolder.key _ _ _, fun t ht => ?_⟩
  have hlate := PriorityHeap.popWhile_rest_of_upward _ l.timeouts hearlier t ht
  simpa using hlate

/-- The ways into the heap: an entry was there before, or an event registers it. -/
theorem Edit.timeouts (e : Edit a c c') : ∀ t ∈ c'.loop.timeouts, t ∈ c.loop.timeouts ∨
    ∃ op, a = .call (.scope op) ∧ c.caller = some t.recipient ∧
      op.deadline c.loop.now = some t.when ∧
      c'.log = .answered (some t.recipient) (.scope op) (.ok (.timeoutId t.id)) :: c.log := by
  intro t hmem
  cases e with
  | timer op handle when holder events ha hctl hcaller hop hget hset =>
      rcases List.mem_cons.mp hmem with rfl | hmem
      · exact .inr ⟨op, ha, hcaller, hop, by simp [answer, hcaller]⟩
      · exact .inl hmem
  | pruned ha hctl =>
      exact .inl ((PriorityHeap.popWhile_perm _ c.loop.timeouts).subset
        (List.mem_append_right _ hmem))
  | timed ha hctl =>
      exact .inl ((PriorityHeap.popWhile_perm _ c.loop.timeouts).subset
        (List.mem_append_right _ hmem))
  | rebuilt dead alive ha hctl hqueue hstats hmany => exact .inl (List.mem_filter.mp hmem).1
  | reorderedTimeouts order ha hperm => exact .inl (hperm.subset hmem)
  | _ => exact .inl hmem

theorem Edits.timeouts_of_gather {env : GatherEnv} (h : Edits (.gather env) c c') :
    ∀ t ∈ c'.loop.timeouts, t ∈ c.loop.timeouts := by
  induction h with
  | refl => exact fun _ ht => ht
  | tail _ hlast ih =>
      intro t ht
      rcases hlast.timeouts t ht with hold | ⟨_, ⟨⟩, _⟩
      exact ih t hold

theorem step_timeouts (h : c.step a = .ok c') : ∀ t ∈ c'.loop.timeouts, t ∈ c.loop.timeouts ∨
    ∃ op, a = .call (.scope op) ∧ c.caller = some t.recipient ∧
      op.deadline c.loop.now = some t.when ∧
      c'.log = .answered (some t.recipient) (.scope op) (.ok (.timeoutId t.id)) :: c.log := by
  rcases step_cases h with ⟨env, rfl⟩ | e
  · exact fun t ht => .inl (Edits.timeouts_of_gather (gather_edits h) t ht)
  · exact e.timeouts

theorem timersCleanup_scheduled {l l' : Loop Ev} (h : l.timersCleanup = .ok l') :
    l'.scheduled = l.scheduled := by
  obtain ⟨⟨dead, alive⟩, _, h⟩ := Except.bind_eq_ok.mp h
  simp only at h
  split at h <;> cases h <;> rfl

theorem gatherIdle_frame (l : Loop Ev) :
    l.gatherIdle.inQueue = l.inQueue ∧ l.gatherIdle.now = l.now := by
  unfold gatherIdle
  split
  · split
    · exact ⟨inQueue_append (by simp [Task.timer]), rfl⟩
    · exact ⟨rfl, rfl⟩
  · exact ⟨rfl, rfl⟩

/-- A gather either never gets to the timers, or goes through them all. -/
theorem gather_timers {env : GatherEnv} (h : c.step (.gather env) = .ok c') :
    c'.loop.inQueue = [] ∨ ∃ l : Loop Ev, (∀ t ∈ l.timeouts, t ∈ c.loop.timeouts) ∧ l.inQueue = [] ∧
      c'.loop.inQueue = l.tasksGatherTimers.inQueue ∧ c'.loop.now = l.now := by
  obtain ⟨hctl, hsched⟩ := gather_enabled (.ok c') h
  have htraces := tasksPoll_traces env hctl c.loop hsched
  have hempty : c.loop.NoTimeouts := fun task ht => by simp [hsched] at ht
  obtain ⟨_, hg⟩ := gather_result h
  obtain ⟨polled, hpoll, hg⟩ := Except.bind_eq_ok.mp hg
  rw [hpoll] at htraces
  rcases htraces with ⟨hedits, hqueue⟩
  have hnone := inQueue_of_noTimeouts (hqueue hempty)
  cases polled with
  | ended result l =>
      obtain ⟨_, hloop⟩ := Prod.mk.inj (Except.ok.inj hg)
      exact .inl (hloop ▸ hnone)
  | woken l =>
      obtain ⟨l', hclean, hg⟩ := Except.bind_eq_ok.mp hg
      obtain ⟨_, hloop⟩ := Prod.mk.inj (Except.ok.inj hg)
      rw [← hloop]
      right
      have hcleaned : Edit (.gather env) _ _ := timersCleanup_edit hctl l l' (hqueue hempty) hclean
      obtain ⟨hidle, hnow⟩ := gatherIdle_frame l'.tasksGatherTimers
      refine ⟨l', Edits.timeouts_of_gather (hedits.tail hcleaned), ?_, hidle, hnow⟩
      rw [inQueue, timersCleanup_scheduled hclean]
      exact hnone

/-- A gather takes out of the heap what is due at the clock reading after the poll. -/
theorem gather_due {env : GatherEnv} (h : c.step (.gather env) = .ok c') :
    ∀ timer ∈ c'.loop.inQueue, ∃ t ∈ c.loop.timeouts, t.timer = timer ∧ t.when ≤ c'.loop.now := by
  intro timer hmem
  rcases gather_timers h with hnone | ⟨l, hheap, hempty, hqueue, hnow⟩
  · simp [hnone] at hmem
  · obtain ⟨due, hsched, hperm, hdue, _⟩ := tasksGatherTimers_exact l
    have hold : l.scheduled.filterMap Task.timer = [] := hempty
    rw [hqueue, inQueue, hsched, List.filterMap_append, hold, List.nil_append,
      List.filterMap_map] at hmem
    obtain ⟨t, ht, heq⟩ := List.mem_filterMap.mp hmem
    refine ⟨t, hheap t (hperm.subset (List.mem_append_left _ ht)), by simpa using heq, ?_⟩
    rw [hnow]
    exact hdue t ht

/-- Other steps put no timeout into the queue. -/
theorem queue_of_step (h : c.step a = .ok c') (hg : ¬a.IsGather) :
    ∀ timer ∈ c'.loop.inQueue, timer ∈ c.loop.inQueue := by
  intro timer hmem
  have e := step_edit h (by rintro env rfl; exact hg trivial)
  obtain ⟨task, htask, htimer⟩ := List.mem_filterMap.mp hmem
  rcases e.origin task htask with hold | horigin
  · exact List.mem_filterMap.mpr ⟨task, hold, htimer⟩
  · cases horigin with
    | timeout t ha hheap hdue => exact absurd ha hg
    | _ => cases htimer

/-- With at most 2^64 insertions and as many timeouts: a timeout of a live event is in one place,
it moves on when it is due and not before, and it goes to the event that registered it. -/
theorem timeouts_kept (c : Config Ev) (h : Reachable c) (hfew : c.issued.length ≤ 2 ^ 64)
    (htimeouts : c.registered.length ≤ 2 ^ 64) :
    c.TimeoutsKept ∧
    (∀ a c', c.step a = .ok c' → ∀ t ∈ c'.loop.timeouts, t ∈ c.loop.timeouts ∨
      ∃ op, a = .call (.scope op) ∧ c.caller = some t.recipient ∧
        op.deadline c.loop.now = some t.when ∧
        c'.log = .answered (some t.recipient) (.scope op) (.ok (.timeoutId t.id)) :: c.log) ∧
    (∀ a c', c.step a = .ok c' → ¬a.IsGather →
      ∀ timer ∈ c'.loop.inQueue, timer ∈ c.loop.inQueue) ∧
    (∀ env c', c.step (.gather env) = .ok c' → ∀ timer ∈ c'.loop.inQueue,
      ∃ t ∈ c.loop.timeouts, t.timer = timer ∧ t.when ≤ c'.loop.now) ∧
    ∀ l : Loop Ev, ∃ due, l.tasksGatherTimers.scheduled = l.scheduled ++ due.map timeoutTask ∧
      (due ++ l.tasksGatherTimers.timeouts).Perm l.timeouts ∧
      (∀ t ∈ due, t.when ≤ l.now) ∧ due.Pairwise (fun t t' => t.when ≤ t'.when) ∧
      ∀ t ∈ l.tasksGatherTimers.timeouts, l.now < t.when :=
  ⟨timeoutsKept h.visited hfew htimeouts, fun _ _ => step_timeouts, fun _ _ => queue_of_step,
    fun _ _ => gather_due, tasksGatherTimers_exact⟩

/-- One of the timeouts of the live event has fired, the other one waits in the heap. -/
def oneFired : List (Action Unit) :=
  oneDeadTimer ++ [.gather ⟨1, .ok [], 3, []⟩, .tick, .tick]

theorem timeouts_kept_oneFired :
    (after 0 oneFired).dispatched = [⟨⟨0, 0⟩, ⟨1⟩⟩] ∧
      (after 0 oneFired).delivered = [⟨⟨0, 0⟩, ⟨1⟩⟩] ∧ (after 0 oneFired).TimeoutsKept :=
  ⟨by decide, by decide,
    (timeouts_kept _ (reachable_after 0 oneFired) (by decide) (by decide)).1⟩

/-- The second owner of a handle registers a timeout and gets one of the first. -/
def foreignTimeout : List (Action Unit) :=
  [insertQuick, .tick, .call (.scope (.timeoutAt 20)), .finish () (.ok true), .settle true (.ok ()),
    .tick, .call (.iface .runOne), .gather ⟨9, .ok [], 9, []⟩, .tick]

/-- Few timeouts are not enough: with more than 2^64 insertions a timeout may go to an event that
did not register it. -/
theorem timeouts_go_astray_after_wrap :
    ¬∀ c : Config Unit, Reachable c → c.registered.length < 2 ^ 64 → c.TimeoutsKept := by
  intro hall
  obtain ⟨log, hr, hreg, hown⟩ := reachable_idleAt
    (P := fun log => log.filterMap Obs.registers = [⟨⟨0, 0⟩, ⟨0⟩⟩] ∧
      stillOwn ⟨⟨0, 0⟩, ⟨0⟩⟩ log = false) ⟨rfl, rfl⟩
    (fun generation log hlog =>
      ⟨hlog.1, by simp [stillOwn, roundLog, Obs.registers, Obs.slain, hlog.2]⟩)
    (2 ^ 64 - 1)
  have hforeign : ∃ c older, TransitionSystem.run step (idleAt 0 log) foreignTimeout = .ok c ∧
      c.log = .dispatched ⟨⟨0, 0⟩, .timeout ⟨0⟩⟩ :: older ∧
      c.registered.length = (log.filterMap Obs.registers).length + 1 ∧
      stillOwn ⟨⟨0, 0⟩, ⟨0⟩⟩ older = stillOwn ⟨⟨0, 0⟩, ⟨0⟩⟩ log := ⟨_, _, rfl, rfl, rfl, rfl⟩
  rcases hforeign with ⟨c, older, hrun, hlog, hlength, hsame⟩
  have hkept := hall c (hr.reach (.of_run hrun)) (by rw [hlength, hreg]; decide)
  have hstill := (hlog ▸ hkept.own : OwnTimeouts (_ :: older)).1 ⟨⟨0, 0⟩, ⟨0⟩⟩ rfl
  rw [hsame, hown] at hstill
  cases hstill

end Config

end Eveboros
