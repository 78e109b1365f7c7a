import Eveboros.Runs.Sends

/-!
# Only expected messages are delivered

A message is checked when it is sent, posted or taken off the channel, and passed to its recipient
much later.  The result of a background job is not checked at all.  What entitles either kind to be
passed is in the history all the same.
-/

namespace Eveboros

variable {Ev : Type}

/-- The event declared that it expects messages of this type. -/
def expectation (handle : Handle) (tp : TypeId) : Obs Ev :=
  .answered (some handle) (.scope (.expectMessage tp)) (.ok .unit)

/-- The event submitted this job. -/
def submission (handle : Handle) (id : BackgroundId) : Obs Ev :=
  .answered (some handle) (.scope .backgroundSubmit) (.ok (.backgroundId id))

def Message.entitlement (m : Message) (handle : Handle) : Obs Ev :=
  match m.mode with
  | .background id => submission handle id
  | _ => expectation handle m.realType

/-- In this history, every message passed to an event was one that this same event was entitled
to. -/
def OnlyExpected : List (Obs Ev) → Prop :=
  WhenPassed fun handle m older => m.entitlement handle ∈ lifetime handle older

/-- What the checks see of a slot. -/
def EvHolder.interest (holder : EvHolder Ev) : Nat × ListSet TypeId :=
  (holder.generation, holder.expectedMessages)

namespace Loop

variable {l l' : Loop Ev}

/-- The event is alive and expects messages of this type. -/
def Expects (l : Loop Ev) (handle : Handle) (tp : TypeId) : Prop :=
  ∃ tps, (l.events.get? handle.id).map EvHolder.interest = some (handle.generation, tps) ∧ tp ∈ tps

theorem expects_of_get? {handle : Handle} {holder : EvHolder Ev} {tp : TypeId}
    (hget : l.events.get? handle.id = some holder) (hgen : holder.generation = handle.generation)
    (hmem : tp ∈ holder.expectedMessages) : l.Expects handle tp :=
  ⟨holder.expectedMessages, by rw [hget, Option.map_some, EvHolder.interest, hgen], hmem⟩

theorem Expects.congr {handle : Handle} {tp : TypeId} (h : l'.Expects handle tp)
    (hslot : (l'.events.get? handle.id).map EvHolder.interest =
      (l.events.get? handle.id).map EvHolder.interest) : l.Expects handle tp := by
  rcases h with ⟨tps, heq, hmem⟩
  exact ⟨tps, hslot ▸ heq, hmem⟩

end Loop

namespace Config

open Loop

variable {c c' : Config Ev} {a : Action Ev}

/-! ## The history of what entitles -/

/-- What an event expects it has declared. -/
def Declared (c : Config Ev) : Prop :=
  ∀ handle tp, c.loop.Expects handle tp → expectation handle tp ∈ c.log

theorem Declared.sets (q : Declared c) (e : Edit a c c') {idx : Nat} {old new : EvHolder Ev}
    {events : Recycler (EvHolder Ev)} (hset : c.loop.events.Sets idx (some new) events)
    (hget : c.loop.events.get? idx = some old) (hinterest : new.interest = old.interest)
    (hevents : c'.loop.events = events) : Declared c' := by
  intro handle tp hexp
  refine e.log_suffix.subset (q handle tp (hexp.congr ?_))
  rw [hevents, hset.map_eq hget hinterest]

theorem declared_expected (d : Discipline c) (q : Declared c) {handle : Handle} {tp : TypeId}
    {holder : EvHolder Ev} {events : Recycler (EvHolder Ev)} (hcaller : c.caller = some handle)
    (hget : c.loop.events.get? handle.id = some holder)
    (hset : c.loop.events.Sets handle.id
      (some { holder with expectedMessages := holder.expectedMessages.insert tp }) events)
    (hevents : c'.loop.events = events) (hlog : c'.log = expectation handle tp :: c.log) :
    Declared c' := by
  intro other tp' hexp
  rw [hlog]
  by_cases hid : other.id = handle.id
  · rcases hexp with ⟨tps, heq, hmem⟩
    simp only [hevents, hset.get?, hid, ↓reduceIte, Option.map_some, EvHolder.interest,
      Option.some.injEq, Prod.mk.injEq] at heq
    obtain ⟨hgen, rfl⟩ := heq
    obtain rfl : other = handle :=
      (Handle.eq_iff_generation hid).mpr (hgen.symm.trans (d.caller_gen hcaller hget))
    rcases ListSet.mem_insert.mp hmem with rfl | hold
    · exact List.mem_cons_self
    · exact List.mem_cons_of_mem _ (q _ _ (expects_of_get? hget hgen hold))
  · refine List.mem_cons_of_mem _ (q other tp' (hexp.congr ?_))
    rw [hevents, hset.get?, if_neg hid]

theorem declared_edit (d : Discipline c) (q : Declared c) (e : Edit a c c') : Declared c' := by
  have he := e
  cases e with
  | stored event growth idx events ha hctl hstore =>
      intro handle tp hexp
      by_cases hid : handle.id = idx
      · rcases hexp with ⟨tps, heq, hmem⟩
        simp only [hstore.get?, hid, ↓reduceIte, Option.map_some, EvHolder.interest, EvHolder.new,
          Option.some.injEq, Prod.mk.injEq] at heq
        obtain ⟨_, rfl⟩ := heq
        exact absurd hmem (ListSet.not_mem_empty tp)
      · refine List.mem_cons_of_mem _ (q handle tp (hexp.congr ?_))
        rw [hstore.get?, if_neg hid]
  | killed handle' _ _ holder events _ _ ha hctl hresp hget hfree hset =>
      intro handle tp hexp
      by_cases hid : handle.id = handle'.id
      · rcases hexp with ⟨tps, heq, _⟩
        simp [hset.get?, hid] at heq
      · refine List.mem_cons_of_mem _ (q handle tp (hexp.congr ?_))
        rw [hset.get?, if_neg hid]
  | expected tp handle holder events ha hctl hcaller hget hset =>
      exact declared_expected d q hcaller hget hset rfl (by rw [answer, hcaller]; rfl)
  | timer _ _ _ _ _ _ _ _ _ hget hset
  | ioRegistered _ _ _ _ _ _ _ _ _ hget _ hset
  | ioRemoved _ _ _ _ _ _ _ _ _ _ hget _ hset
  | tracked _ _ _ _ _ _ _ hget _ hset
  | entered _ _ _ _ _ _ hget _ _ hset
  | finished _ _ _ _ _ _ _ _ _ _ _ hget _ hset
  | fired _ _ _ _ _ _ _ _ _ _ hget _ _ hset
  | reaped _ _ _ _ _ _ _ _ hget _ hset =>
      exact q.sets he hset hget rfl rfl
  | _ => exact fun handle tp hexp => he.log_suffix.subset (q handle tp hexp)

theorem Visited.declared {P : Config Ev → Action Ev → Prop} (h : Visited P c) : Declared c := by
  induction h with
  | start now =>
      intro handle tp hexp
      rcases hexp with ⟨tps, heq, _⟩
      simp [init, Loop.new, Recycler.get?_new] at heq
  | edit hv _ he ih => exact declared_edit hv.discipline ih he

/-- A job reports to the event that submitted it. -/
def JobsSubmitted (c : Config Ev) : Prop :=
  ∀ job ∈ c.loop.jobs, submission job.2 job.1 ∈ c.log

theorem jobsSubmitted_edit (q : JobsSubmitted c) (e : Edit a c c') : JobsSubmitted c' := by
  have he := e
  cases e with
  | submitted handle ha hctl hcaller =>
      intro job hmem
      have hnew : (submission handle (c.loop.backgroundSubmit handle).1 : Obs Ev) =
          .answered c.caller (.scope .backgroundSubmit)
            (.ok (.backgroundId (c.loop.backgroundSubmit handle).1)) := by
        rw [hcaller]
        rfl
      rcases List.mem_cons.mp hmem with rfl | hold
      · exact hnew ▸ List.mem_cons_self
      · refine List.mem_cons_of_mem _ (q job ?_)
        cases hpool : c.loop.threadpool with
        | none => simp [hpool] at hold
        | some pool => simpa [jobs, hpool] using hold
  | poolSet cnt =>
      intro job hmem
      refine List.mem_cons_of_mem _ (q job ?_)
      cases hpool : c.loop.threadpool with
      | none => simp [answer, jobs, hpool] at hmem
      | some pool => simpa [answer, jobs, hpool] using hmem
  | _ => exact fun job hmem => he.log_suffix.subset (q job hmem)

theorem Visited.jobsSubmitted {P : Config Ev → Action Ev → Prop} (h : Visited P c) :
    JobsSubmitted c := by
  induction h with
  | start now => exact nofun
  | edit _ _ he ih => exact jobsSubmitted_edit ih he

/-! ## Messages on their way -/

/-- The messages in the queue and the one that is just being passed are entitled to be. -/
structure Entitled (c : Config Ev) : Prop where
  queued : ∀ task ∈ c.loop.scheduled, ∀ m, task.param = .message m →
    m.entitlement task.recipient ∈ c.log
  called (handle : Handle) (m : Message) : c.ctl = .call handle (.message m) →
    m.entitlement handle ∈ c.log

/-- New tasks are entitled to be passed if they are messages, and no new call begins. -/
theorem Entitled.scheduled (q : Entitled c) (e : Edit a c c') {new : List Task}
    (hsched : c'.loop.scheduled = c.loop.scheduled ++ new) (hctl : c'.ctl = c.ctl)
    (hnew : ∀ task ∈ new, ∀ m, task.param = .message m →
      m.entitlement task.recipient ∈ c.log) : Entitled c' where
  queued task hmem m hparam := by
    rw [hsched] at hmem
    rcases List.mem_append.mp hmem with hold | hmem
    · exact e.log_suffix.subset (q.queued task hold m hparam)
    · exact e.log_suffix.subset (hnew task hmem m hparam)
  called handle m hcall := e.log_suffix.subset (q.called handle m (hctl ▸ hcall))

theorem Entitled.congr (q : Entitled c) (e : Edit a c c')
    (hsched : c'.loop.scheduled ⊆ c.loop.scheduled)
    (hcalled : ∀ handle m, c'.ctl = .call handle (.message m) → m.entitlement handle ∈ c.log) :
    Entitled c' where
  queued task hmem m hparam := e.log_suffix.subset (q.queued task (hsched hmem) m hparam)
  called handle m hcall := e.log_suffix.subset (hcalled handle m hcall)

/-- What comes off the channel. -/
theorem entitled_received (declared : Declared c) (submitted : JobsSubmitted c) (v : Arrivals c)
    {m : RemoteMessage} (hmem : m ∈ c.loop.receiver)
    (hpass : (∃ id, m.mode = .background id) ∨
      ∃ holder, c.loop.events.get? m.recipient.id = some holder ∧
        holder.generation = m.recipient.generation ∧ m.realType ∈ holder.expectedMessages) :
    Message.entitlement ⟨m.data, m.realType, m.mode⟩ m.recipient ∈ c.log := by
  rcases v.mode m hmem with hremote | ⟨id, hmode, hjob⟩
  · rcases hpass with ⟨id, hmode⟩ | ⟨holder, hget, hgen, hexp⟩
    · simp [hmode] at hremote
    · rw [Message.entitlement, hremote]
      exact declared _ _ (expects_of_get? hget hgen hexp)
  · rw [Message.entitlement, hmode]
    exact submitted (id, m.recipient) hjob

theorem entitled_edit (declared : Declared c) (submitted : JobsSubmitted c) (v : Arrivals c)
    (q : Entitled c) (e : Edit a c c') : Entitled c' := by
  have he := e
  cases e with
  | sent handle data tp holder ha hctl hget hgen hexp =>
      refine q.scheduled he rfl rfl fun task hmem m hparam => ?_
      obtain rfl := List.mem_singleton.mp hmem
      cases hparam
      exact declared _ _ (expects_of_get? hget hgen hexp)
  | posted handle data tp holder ha hctl hget hgen hexp =>
      refine q.congr he (List.Subset.refl _) fun handle' m hcall => ?_
      cases hcall
      exact declared _ _ (expects_of_get? hget hgen hexp)
  | received m rest ha hctl hrecv hpass =>
      refine q.scheduled he rfl rfl fun task hmem m' hparam => ?_
      obtain rfl := List.mem_singleton.mp hmem
      cases hparam
      exact entitled_received declared submitted v (by simp [hrecv]) hpass
  | passed task rest holder ha hctl hsched =>
      refine q.congr he (by simp [hsched]) fun handle m hcall => ?_
      obtain ⟨rfl, hcb⟩ := Ctl.call.inj hcall
      refine q.queued task (by simp [hsched]) m ?_
      cases hparam : task.param <;> simp_all [TaskParam.callback]
  | dropped task rest ha hctl hsched | lost task rest _ _ _ _ ha hctl hsched
  | fired task rest _ _ _ _ ha hctl hsched =>
      exact q.congr he (by simp [hsched]) fun handle m hcall => by simp [hctl] at hcall
  | reaped | ready | idleTaken =>
      refine q.scheduled he rfl rfl fun task hmem m hparam => ?_
      obtain rfl := List.mem_singleton.mp hmem
      cases hparam
  | broadcast | timed =>
      refine q.scheduled he rfl rfl fun task hmem m hparam => ?_
      obtain ⟨_, _, rfl⟩ := List.mem_map.mp hmem
      cases hparam
  | beganRunOne | beganRun | beganUntilComplete | stored | entered | turnedAway | kept | killed
  | again | gaveBack | finished | gatherFailed =>
      exact q.congr he (List.Subset.refl _) nofun
  | _ => exact q.congr he (List.Subset.refl _) q.called

theorem Visited.entitled {P : Config Ev → Action Ev → Prop} (h : Visited P c) : Entitled c := by
  induction h with
  | start now => exact ⟨nofun, nofun⟩
  | edit hv _ he ih =>
      exact entitled_edit hv.declared hv.jobsSubmitted hv.arrivals ih he

/-! ## Messages passed -/

theorem entitled_call {handle : Handle} {m : Message} (h : Visited Anything c)
    (hfew : c.issued.length ≤ 2 ^ 64) (hctl : c.ctl = .call handle (.message m)) :
    m.entitlement handle ∈ lifetime handle c.log := by
  have halive := h.callsAlive _ _ hctl
  rw [lifetime_of_not_slain ((h.identity.alive_iff hfew _).mp halive).2]
  exact h.entitled.called _ m hctl

/-- With at most 2^64 insertions, every message passed to an event has a type that this same event
declared before, or is the result of a job that it submitted. -/
theorem only_expected_messages (c : Config Ev) (h : Reachable c)
    (hfew : c.issued.length ≤ 2 ^ 64) : OnlyExpected c.log :=
  h.visited.whenPassed (fun _ _ _ => entitled_call) hfew

/-- An event expects a message and submits a job in its `init`; the message and the result of the
job arrive and are passed to it. -/
def twoArrivals : List (Action Unit) :=
  [insertQuick, .tick, .call (.scope (.expectMessage (.atom 0))),
    .call (.scope .backgroundSubmit), .finish () (.ok true), .settle true (.ok ()), .tick,
    .remote ⟨.atom 0 7, .atom 0, .remote, ⟨0, 0⟩⟩,
    .remote ⟨.ok (.atom 1 8), .atom 1, .background ⟨0⟩, ⟨0, 0⟩⟩, .call (.iface .run),
    .gather ⟨1, .ok [⟨0, ⟨1⟩, 0⟩], 1, []⟩, .tick, .tick, .finish () (.ok true),
    .settle true (.ok ()), .tick, .tick, .tick]

theorem only_expected_messages_twoArrivals :
    submission ⟨0, 0⟩ ⟨0⟩ ∈ lifetime ⟨0, 0⟩ (after 0 twoArrivals).log.tail := by
  have h := only_expected_messages _ (reachable_after 0 twoArrivals) (by decide)
  exact h ⟨0, 0⟩ ⟨.ok (.atom 1 8), .atom 1, .background ⟨0⟩⟩ () _ (List.suffix_refl _)

/-- The heir of the handle lives on, and gets the message that waits. -/
def heirsLetter : List (Action Unit) :=
  [.tick, .finish () (.ok true), .settle true (.ok ()), .tick, .call (.iface .runOne), .tick, .tick]

/-- With more than 2^64 insertions an event may get a message of a type that it never declared. -/
theorem unexpected_message_after_wrap :
    ¬∀ c : Config Unit, Reachable c → OnlyExpected c.log := by
  intro hall
  obtain ⟨log, hr, hunasked⟩ := reachable_heirBorn
  obtain ⟨c, hrun, hlog⟩ : ∃ c,
      TransitionSystem.run step (heirBorn [lastTask] 0 log) heirsLetter = .ok c ∧
      c.log = [.called ⟨0, 0⟩ (.message ⟨.atom 0 7, .atom 0, .send (some ⟨0, 0⟩)⟩) (),
        .dispatched lastTask, .returned (.insertExact ⟨0, 0⟩) (.ok (.handle ⟨0, 0⟩)),
        .finished ⟨0, 0⟩ () (.ok true), .called ⟨0, 0⟩ .init (), .stored ⟨0, 0⟩ ()] ++ log :=
    ⟨_, rfl, rfl⟩
  have honly := hall c (hr.reach (.of_run hrun))
  rw [hlog] at honly
  have hmem := honly ⟨0, 0⟩ _ () _ (List.suffix_refl _)
  have hold : expectation ⟨0, 0⟩ (.atom 0) ∈ lifetime ⟨0, 0⟩ log := by
    iterate 5
      rcases mem_lifetime_cons hmem with heq | hmem
      · cases heq
    exact hmem
  exact hunasked _ _ _ hold

end Config

end Eveboros
