import Eveboros.Runs.Ios

/-!
# Readiness of IOs

The readiness of an IO waits in the queue while other callbacks run, and these may remove IOs and
register others.  As long as no id is handed out again before the queue is empty, what a callback
gets is about the IO it has under the id.
-/

namespace Eveboros

open TransitionSystem

variable {Ev : Type}

namespace Loop

variable {l l' : Loop Ev}

/-- The slot is occupied, or its id is kept back until the next gather. -/
def Held (l : Loop Ev) (idx : Nat) : Prop := l.ios.get? idx ≠ none ∨ idx ∈ l.iosReleased

/-- Every readiness in the queue is about a held slot, and about the IO registered there, if the
recipient still has one. -/
structure Readiness (l : Loop Ev) : Prop where
  held (handle : Handle) (id : IoId) (ready : Ready) (source : Nat) :
    ⟨handle, .io id ready source⟩ ∈ l.scheduled → l.Held id.idx
  current (handle : Handle) (id : IoId) (ready : Ready) (source : Nat) (io : IoHolder) :
    ⟨handle, .io id ready source⟩ ∈ l.scheduled →
      l.registration handle id.idx = some io → io.io = source

/-- No readiness is added, no IO is registered and no slot is let go. -/
theorem Readiness.congr (q : Readiness l)
    (hsched : ∀ handle id ready source, ⟨handle, .io id ready source⟩ ∈ l'.scheduled →
      ⟨handle, .io id ready source⟩ ∈ l.scheduled)
    (hreg : ∀ h idx io, l'.registration h idx = some io → l.registration h idx = some io)
    (hheld : ∀ idx, l.Held idx → l'.Held idx) : Readiness l' where
  held handle id ready source hmem := hheld _ (q.held handle id ready source (hsched _ _ _ _ hmem))
  current handle id ready source io hmem hr :=
    q.current handle id ready source io (hsched _ _ _ _ hmem) (hreg _ _ _ hr)

/-- An IO is registered under an id that no readiness waits for. -/
theorem Readiness.registered (q : Readiness l) {idx : Nat} (hnew : ¬l.Held idx)
    (hsched : l'.scheduled = l.scheduled)
    (hreg : ∀ h i io, i ≠ idx → l'.registration h i = some io → l.registration h i = some io)
    (hheld : ∀ i, i ≠ idx → l.Held i → l'.Held i) : Readiness l' := by
  have hother {handle : Handle} {id : IoId} {ready : Ready} {source : Nat}
      (hmem : ⟨handle, .io id ready source⟩ ∈ l.scheduled) : id.idx ≠ idx := by
    intro heq
    exact hnew (heq ▸ q.held _ _ _ _ hmem)
  constructor
  · intro handle id ready source hmem
    rw [hsched] at hmem
    exact hheld _ (hother hmem) (q.held handle id ready source hmem)
  · intro handle id ready source io hmem hr
    rw [hsched] at hmem
    exact q.current handle id ready source io hmem (hreg _ _ _ (hother hmem) hr)

/-- Some IOs go away, their ids are kept back. -/
theorem Readiness.removed (q : Readiness l) {gone : Handle → Nat → Prop}
    [∀ h idx, Decidable (gone h idx)] (hsched : l'.scheduled = l.scheduled)
    (hreg : ∀ h idx, l'.registration h idx = if gone h idx then none else l.registration h idx)
    (hheld : ∀ idx, l.Held idx → l'.Held idx) : Readiness l' := by
  refine q.congr (fun _ _ _ _ hmem => hsched ▸ hmem) (fun h idx io hr => ?_) hheld
  rw [hreg] at hr
  split at hr
  · cases hr
  · exact hr

theorem readiness_of_empty (h : l.scheduled = []) : Readiness l where
  held := by simp [h]
  current := by simp [h]

end Loop

namespace Config

open Loop

variable {c c' : Config Ev} {a : Action Ev}

/-- Tasks of another kind go to the back of the queue. -/
theorem mem_of_mem_append {tasks others : List Task}
    (hothers : ∀ task ∈ others, ∀ id ready source, task.param ≠ .io id ready source)
    (handle : Handle) (id : IoId) (ready : Ready) (source : Nat)
    (h : ⟨handle, .io id ready source⟩ ∈ tasks ++ others) :
    ⟨handle, .io id ready source⟩ ∈ tasks := by
  rcases List.mem_append.mp h with h | h
  · exact h
  · exact absurd rfl (hothers _ h id ready source)

theorem readiness_ready (o : c.loop.IoClaims) (q : c.loop.Readiness) {env : GatherEnv}
    {ev : PollEvent} {polled : List PollEvent} {id : IoId} {handle : Handle}
    (hsane : MioSane c (.gather env)) (hpoll : env.poll = .ok polled) (hev : ev ∈ polled)
    (hid : id.token = ev.token) (hget : c.loop.ios.get? id.idx = some handle) :
    (c.loop.schedule handle (.io id ev.kind ev.source)).Readiness := by
  obtain ⟨h, io, hr, hsource⟩ := hsane env polled rfl hpoll ev hev id hid
  -- The slot holds the handle of the event that registered the IO.
  obtain rfl : h = handle := by
    have := (o.registered h id.idx io hr).1
    rwa [hget, Option.some.injEq, eq_comm] at this
  refine ⟨fun handle' id' ready source hmem => ?_, fun handle' id' ready source io' hmem hr' => ?_⟩
  · rcases List.mem_append.mp hmem with hmem | hmem
    · exact q.held handle' id' ready source hmem
    · cases List.mem_singleton.mp hmem
      exact .inl (by simp [schedule, hget])
  · rcases List.mem_append.mp hmem with hmem | hmem
    · exact q.current handle' id' ready source io' hmem hr'
    · cases List.mem_singleton.mp hmem
      have heq : some io' = some io := hr'.symm.trans hr
      cases heq
      exact hsource

theorem readiness_registered (d : Discipline c) (q : c.loop.Readiness) {growth : Growth}
    {handle : Handle} {holder : EvHolder Ev} {idx object : Nat} {ios : Recycler Handle}
    {events : Recycler (EvHolder Ev)} (ha : a = .call (.scope (.ioRegisterAny growth none)))
    (hcaller : c.caller = some handle) (hget : c.loop.events.get? handle.id = some holder)
    (hstore : c.loop.ios.store handle growth = .ok (idx, ios))
    (hset : c.loop.events.Sets handle.id
      (some { holder with ios := holder.ios.insert idx ⟨handle, object⟩ }) events)
    (hfresh : ¬ReusesId c a) :
    Readiness { c.loop with ios := ios, events := events } := by
  have hspec := Recycler.store_ok hstore
  have hnew : ¬c.loop.Held idx := by
    intro hheld
    rcases hheld with hslot | hreleased
    · exact hslot hspec.vacant
    · exact hfresh ⟨growth, ha, Recycler.store_next hstore ▸ hreleased⟩
  apply q.registered hnew
  · rfl
  · intro h i io hne hr
    rwa [registered_edit d hcaller hget hset rfl, if_neg fun h => hne h.2] at hr
  · intro i hne hheld
    rcases hheld with hslot | hreleased
    · left
      change ios.get? i ≠ none
      rwa [hspec.get?, if_neg hne]
    · exact .inr hreleased

theorem readiness_edit (d : Discipline c) (o : c.loop.IoClaims) (q : c.loop.Readiness)
    (e : Edit a c c') (hfresh : ¬ReusesId c a) (hsane : MioSane c a) : c'.loop.Readiness := by
  cases e with
  | ready env ev polled id handle ha hctl hpoll hev hid hget =>
      subst ha
      exact readiness_ready o q hsane hpoll hev hid hget
  | drained ios ha hctl hsched hheld hios => exact readiness_of_empty hsched
  | stored event growth idx events ha hctl hstore =>
      exact q.congr (fun _ _ _ _ hm => hm)
        (fun h i io hr => (registration_of_stored hstore rfl h i).symm.trans hr) fun _ hh => hh
  | timer _ _ _ _ _ _ _ _ _ hget hset
  | expected _ _ _ _ _ _ _ hget hset
  | tracked _ _ _ _ _ _ _ hget _ hset
  | entered _ _ _ _ _ _ hget _ _ hset
  | finished _ _ _ _ _ _ _ _ _ _ _ hget _ hset =>
      exact q.congr (fun _ _ _ _ hm => hm)
        (fun h i io hr => (registration_of_sets hset hget rfl rfl rfl h i).symm.trans hr)
        fun _ hh => hh
  | fired task rest id left holder events ha hctl hsched hparam hget hgen hleft hset =>
      exact q.congr (fun _ _ _ _ hm => hsched ▸ List.mem_cons_of_mem _ hm)
        (fun h i io hr => (registration_of_sets hset hget rfl rfl rfl h i).symm.trans hr)
        fun _ hh => hh
  | reaped pid exit handle holder events ha hctl hlookup hget hmem hset =>
      exact q.congr (mem_of_mem_append (by simp))
        (fun h i io hr => (registration_of_sets hset hget rfl rfl rfl h i).symm.trans hr)
        fun _ hh => hh
  | ioRefused growth err handle ios ha hctl hcaller hios =>
      refine q.congr (fun _ _ _ _ hm => hm) (fun _ _ _ hr => hr) fun i hh => hh.imp_left ?_
      change c.loop.ios.get? i ≠ none → ios.get? i ≠ none
      rw [hios]
      exact id
  | ioRegistered growth handle holder idx ios events ha hctl hcaller hget hstore hset =>
      exact readiness_registered d q ha hcaller hget hstore hset hfresh
  | ioRemoved id outcome handle holder ios events ans ha hctl hcaller hget hmem hset hios =>
      refine q.removed (by rfl) (removed_edit d hcaller hget hset rfl) fun i hh => ?_
      by_cases hi : i = id.idx
      · exact .inr (by simp [answer, hi])
      · rcases hh with hslot | hreleased
        · left
          change ios.get? i ≠ none
          rwa [hios.get?, if_neg hi]
        · exact .inr (ListSet.mem_insert.mpr (.inr hreleased))
  | killed handle resp result holder events deregisters handler ha hctl hresp hget hfree hset =>
      refine q.removed (by rfl) (killed_edit hget (d.settling_gen hctl hget) hset rfl)
        fun i hh => ?_
      exact hh.imp_right fun hreleased => ListSet.mem_insertAll.mpr (.inr hreleased)
  | reorderedReleased order ha h =>
      exact q.congr (fun _ _ _ _ hm => hm) (fun _ _ _ hr => hr)
        fun _ hh => hh.imp_right fun hreleased => h.mem_iff.mpr hreleased
  | sent | received | idleTaken =>
      exact q.congr (mem_of_mem_append (by simp)) (fun _ _ _ hr => hr) fun _ hh => hh
  | broadcast =>
      exact q.congr (mem_of_mem_append (by simp)) (fun _ _ _ hr => hr) fun _ hh => hh
  | timed =>
      refine q.congr (mem_of_mem_append ?_) (fun _ _ _ hr => hr) fun _ hh => hh
      simp [timeoutTask]
  | dropped _ _ _ _ hsched | passed _ _ _ _ _ hsched | lost _ _ _ _ _ _ _ _ hsched =>
      exact q.congr (fun _ _ _ _ hm => hsched ▸ List.mem_cons_of_mem _ hm) (fun _ _ _ hr => hr)
        fun _ hh => hh
  | _ => exact q.congr (fun _ _ _ _ hm => hm) (fun _ _ _ hr => hr) fun _ hh => hh

/-! ## Runs -/

/-- mio is sane, and no IO gets an id that is still listed for release. -/
def Careful (c : Config Ev) (a : Action Ev) : Prop := MioSane c a ∧ ¬ReusesId c a

theorem gatherStable_careful : GatherStable (Careful : Config Ev → Action Ev → Prop) := by
  rintro c c' env ⟨hsane, _⟩ e
  exact ⟨gatherStable_mioSane c c' env hsane e, by rintro ⟨_, ⟨⟩, _⟩⟩

theorem Visited.readiness (h : Visited Careful c) : c.loop.IoClaims ∧ c.loop.Readiness := by
  induction h with
  | start now => exact ⟨ioClaims_new now, readiness_of_empty rfl⟩
  | edit hv hp he ih =>
      exact ⟨ioClaims_edit hv.discipline ih.1 he hp.2,
        readiness_edit hv.discipline ih.1 ih.2 he hp.2 hp.1⟩

/-- A gather queues the readiness of the IO that is registered at that time. -/
theorem gathered_readiness (hv : Visited Careful c) {env : GatherEnv}
    (hsane : MioSane c (.gather env)) (h : c.step (.gather env) = .ok c') :
    ∀ task ∈ c'.loop.scheduled, ∀ id ready source, task.param = .io id ready source →
      ∃ io, c.loop.registration task.recipient id.idx = some io ∧ io.io = source := by
  have hcareful : Careful c (.gather env) := ⟨hsane, by rintro ⟨_, ⟨⟩, _⟩⟩
  have hsame := gather_frame (fun c => c.loop.registration)
    (fun _ _ e => funext fun h => funext fun idx => e.registration_of_gather h idx) h
  rw [← hsame]
  refine gather_scheduled (I := fun c => Visited Careful c ∧ Careful c (.gather env))
    (Q := fun c task => ∀ id ready source, task.param = .io id ready source →
      ∃ io, c.loop.registration task.recipient id.idx = some io ∧ io.io = source) h ⟨hv, hcareful⟩
    (fun c c' hi e => ⟨hi.1.edit hi.2 e, gatherStable_careful _ _ env hi.2 e⟩) ?_ ?_
  · intro c c' task hi e horigin id ready source hparam
    rw [e.registration_of_gather]
    cases horigin with
    | io env' ev polled id' handle ha hpoll hev hid hget =>
        cases hparam
        obtain ⟨h, io, hr, hsource⟩ := hi.2.1 env' polled ha hpoll ev hev id hid
        have hslot := (hi.1.readiness.1.registered h id.idx io hr).1
        rw [hget, Option.some.injEq] at hslot
        exact ⟨io, hslot ▸ hr, hsource⟩
    | _ => cases hparam
  · intro c c' task _ e hold
    simpa only [e.registration_of_gather] using hold

/-- `run_one` passes a readiness on to the event whose IO it is about. -/
theorem dispatched_readiness (hv : Visited Careful c) (h : c.step .tick = .ok c')
    {handle : Handle} {id : IoId} {ready : Ready} (hctl : c'.ctl = .call handle (.io id ready)) :
    ∃ rest source io, c.loop.scheduled = ⟨handle, .io id ready source⟩ :: rest ∧
      c'.loop.registration handle id.idx = some io ∧ io.io = source := by
  have e := step_edit h nofun
  cases e with
  | passed task rest holder ha hctl' hsched hget hgen hkind hio =>
      rcases task with ⟨recipient, param⟩
      cases param with
      | io id' ready' source =>
          cases hctl
          obtain ⟨io, hr⟩ := (mem_ios_iff hget hgen _).mp (hio _ _ _ rfl)
          refine ⟨rest, source, io, hsched, hr, ?_⟩
          exact hv.readiness.2.current _ _ ready source io (by simp [hsched]) hr
      | _ => cases hctl
  | _ => first | cases hctl | simp_all

/-- In a run where no IO gets an id that is listed for release, a readiness reaches the very
registration that mio reported ready. -/
theorem io_readiness_is_current (now : Nat) (c : Config Ev)
    (h : Reach step Careful (init now) c) :
    (∀ env c', MioSane c (.gather env) → c.step (.gather env) = .ok c' →
      ∀ task ∈ c'.loop.scheduled, ∀ id ready source, task.param = .io id ready source →
        ∃ io, c.loop.registration task.recipient id.idx = some io ∧ io.io = source) ∧
    ∀ c' handle id ready, c.step .tick = .ok c' → c'.ctl = .call handle (.io id ready) →
      ∃ rest source io, c.loop.scheduled = ⟨handle, .io id ready source⟩ :: rest ∧
        c'.loop.registration handle id.idx = some io ∧ io.io = source := by
  have hv := Visited.of_reach gatherStable_careful h
  exact ⟨fun _ _ hsane hstep => gathered_readiness hv hsane hstep,
    fun _ _ _ _ hstep hctl => dispatched_readiness hv hstep hctl⟩

/-- An event with two IOs calls `run_one`, after it has been inserted. -/
def twoIos : List (Action Unit) :=
  [.call (.iface (.insertExact () ⟨3, true⟩)), .tick,
    .call (.scope (.ioRegisterAny ⟨3, true⟩ none)), .call (.scope (.ioRegisterAny ⟨3, true⟩ none)),
    .finish () (.ok true), .settle true (.ok ()), .tick, .call (.iface .runOne)]

/-- Both of them are ready. -/
def bothReady : GatherEnv := ⟨0, .ok [⟨2, ⟨1⟩, 0⟩, ⟨3, ⟨1⟩, 1⟩], 0, []⟩

/-- The callback for the first replaces the second by a new IO. -/
def replacement : List (Action Unit) :=
  [.tick, .tick, .call (.scope (.ioRemove (.ofIdx 1) none)),
    .call (.scope (.ioRegisterAny ⟨3, true⟩ none)), .finish () (.ok true), .settle true (.ok ()),
    .tick, .call (.iface .runOne)]

def saneEvent (c : Config Ev) (ev : PollEvent) : Bool :=
  decide (ev.token < TOKEN_SHIFT) ||
    match c.loop.ios.get? (ev.token - TOKEN_SHIFT) with
    | some h =>
        match c.loop.registration h (ev.token - TOKEN_SHIFT) with
        | some io => io.io == ev.source
        | none => false
    | none => false

def sane (c : Config Ev) : Action Ev → Bool
  | .gather env =>
      match env.poll with
      | .ok polled => polled.all c.saneEvent
      | .error _ => true
  | _ => true

theorem mioSane_of_sane (c : Config Ev) (a : Action Ev) (h : sane c a = true) : MioSane c a := by
  rintro env polled rfl hpoll ev hev id hid
  have htest : c.saneEvent ev = true := by
    simp only [sane, hpoll, List.all_eq_true] at h
    exact h ev hev
  have hshifted : ¬ev.token < TOKEN_SHIFT := Nat.not_lt.mpr (hid ▸ id.shifted)
  have hidx : ev.token - TOKEN_SHIFT = id.idx := by rw [← hid]; rfl
  simp only [saneEvent, hshifted, decide_false, Bool.false_or, hidx] at htest
  split at htest
  · split at htest
    · exact ⟨_, _, ‹_›, by simpa using htest⟩
    · cases htest
  · cases htest

def reuses (c : Config Ev) : Action Ev → Bool
  | .call (.scope (.ioRegisterAny _ none)) => decide (c.loop.ios.next ∈ c.loop.iosReleased)
  | _ => false

theorem careful_of_tests (c : Config Ev) (a : Action Ev) (h : (sane c a && !reuses c a) = true) :
    Careful c a := by
  obtain ⟨hsane, hfresh⟩ := (Bool.and_eq_true _ _).mp h
  refine ⟨mioSane_of_sane c a hsane, ?_⟩
  intro h
  rcases h with ⟨growth, rfl, hmem⟩
  simp [reuses, hmem] at hfresh

theorem io_readiness_is_current_bothReady :
    ∃ rest source io,
      (after 0 (twoIos ++ [.gather bothReady])).loop.scheduled =
        ⟨⟨0, 0⟩, .io (.ofIdx 0) ⟨1⟩ source⟩ :: rest ∧
      (after 0 (twoIos ++ [.gather bothReady, .tick])).loop.registration ⟨0, 0⟩ 0 = some io ∧
      io.io = source := by
  have hreach : Reach step Careful (init 0) (after 0 (twoIos ++ [.gather bothReady])) :=
    reach_after _ careful_of_tests (by decide)
  exact (io_readiness_is_current 0 _ hreach).2 _ ⟨0, 0⟩ (.ofIdx 0) ⟨1⟩ (step_after (by decide)) rfl

/-- The new IO gets the id of the removed one, and with it the readiness that waits for that. -/
theorem replacement_gets_stale_readiness :
    ∃ c c' : Config Unit, Reach step MioSane (init 0) c ∧ c.step .tick = .ok c' ∧
      c'.ctl = .call ⟨0, 0⟩ (.io (.ofIdx 1) ⟨1⟩) ∧
      c.loop.scheduled = [⟨⟨0, 0⟩, .io (.ofIdx 1) ⟨1⟩ 1⟩] ∧
      c'.loop.registration ⟨0, 0⟩ 1 = some ⟨⟨0, 0⟩, 2⟩ :=
  ⟨_, _, reach_after (twoIos ++ .gather bothReady :: replacement) mioSane_of_sane (by decide),
    step_after (by decide), rfl, by decide, by decide⟩

end Config

end Eveboros
