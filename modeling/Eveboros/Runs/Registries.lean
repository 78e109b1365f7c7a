import Eveboros.Machine.Origin
import Eveboros.Runs.Discipline

/-!
# The registries of the loop

What the loop keeps about an event outside its slot (its place in the idle queue, the signals it
receives, the children it watches) goes away with the event, whichever way it dies.
-/

namespace Eveboros

variable {Ev : Type}

/-- What the registries see of a slot: the generation and the watched children. -/
def EvHolder.kin (holder : EvHolder Ev) : Nat × ListSet Pid := (holder.generation, holder.children)

namespace Loop

variable {l l' : Loop Ev}

def kin (l : Loop Ev) (idx : Nat) : Option (Nat × ListSet Pid) :=
  (l.events.get? idx).map EvHolder.kin

/-- The event is alive and the child is in its set. -/
def Watches (l : Loop Ev) (h : Handle) (pid : Pid) : Prop :=
  ∃ pids, l.kin h.id = some (h.generation, pids) ∧ pid ∈ pids

theorem kin_of_get? {idx : Nat} {holder : EvHolder Ev} (h : l.events.get? idx = some holder) :
    l.kin idx = some (holder.generation, holder.children) := by
  simp [kin, h, EvHolder.kin]

theorem eventAlive_iff_kin {h : Handle} :
    l.eventAlive h = true ↔ ∃ pids, l.kin h.id = some (h.generation, pids) := by
  rw [eventAlive_iff]
  constructor
  · intro h
    rcases h with ⟨holder, hget, hgen⟩
    exact ⟨_, by rw [kin_of_get? hget, hgen]⟩
  · intro h
    rcases h with ⟨pids, hkin⟩
    obtain ⟨holder, hget, heq⟩ := Option.map_eq_some_iff.mp hkin
    exact ⟨holder, hget, (Prod.mk.inj heq).1⟩

theorem watches_of_kin {h : Handle} {generation : Nat} {pids : ListSet Pid} {pid : Pid}
    (hkin : l.kin h.id = some (generation, pids)) :
    l.Watches h pid ↔ h.generation = generation ∧ pid ∈ pids := by
  unfold Watches
  rw [hkin]
  constructor
  · intro w
    rcases w with ⟨_, heq, hmem⟩
    cases heq
    exact ⟨rfl, hmem⟩
  · intro w
    exact ⟨pids, by rw [w.1], w.2⟩

theorem not_watches_of_kin {h : Handle} {pid : Pid} (hkin : l.kin h.id = none) :
    ¬l.Watches h pid := by
  simp [Watches, hkin]

theorem watches_congr {h : Handle} {pid : Pid} (hkin : l'.kin h.id = l.kin h.id) :
    l'.Watches h pid ↔ l.Watches h pid := by
  simp [Watches, hkin]

theorem eventAlive_congr_kin {h : Handle} (hkin : l'.kin h.id = l.kin h.id)
    (halive : l.eventAlive h = true) : l'.eventAlive h = true := by
  rw [eventAlive_iff_kin] at halive ⊢
  rwa [hkin]

theorem Watches.alive {h : Handle} {pid : Pid} (w : l.Watches h pid) : l.eventAlive h = true :=
  let ⟨pids, hkin, _⟩ := w
  eventAlive_iff_kin.mpr ⟨pids, hkin⟩

structure Registries (l : Loop Ev) : Prop where
  idle : ∀ h ∈ l.wantIdle, l.eventAlive h = true
  signals (signum : Nat) : ∀ h ∈ l.signalRecipients signum, l.eventAlive h = true
  children (pid : Pid) (h : Handle) : l.children.lookup pid = some h ↔ l.Watches h pid

/-- Nothing is registered in the name of the handle. -/
structure Unregistered (l : Loop Ev) (h : Handle) : Prop where
  idle : h ∉ l.wantIdle
  signals (signum : Nat) : h ∉ l.signalRecipients signum
  children (pid : Pid) : l.children.lookup pid ≠ some h

theorem Registries.unregistered (r : Registries l) {h : Handle} (hdead : l.eventAlive h = false) :
    l.Unregistered h where
  idle hm := by simp [r.idle h hm] at hdead
  signals signum hm := by simp [r.signals signum h hm] at hdead
  children pid hlookup := by simp [((r.children pid h).mp hlookup).alive] at hdead

/-- Where the index has an entry, the event is there and has the process in its set. -/
theorem Registries.holder (r : Registries l) {pid : Pid} {h : Handle}
    (hlookup : l.children.lookup pid = some h) :
    ∃ holder, l.events.get? h.id = some holder ∧ pid ∈ holder.children := by
  obtain ⟨pids, hkin, hmem⟩ := (r.children pid h).mp hlookup
  obtain ⟨holder, hget, heq⟩ := Option.map_eq_some_iff.mp hkin
  obtain ⟨_, rfl⟩ := Prod.mk.inj heq
  exact ⟨holder, hget, hmem⟩

/-- A process has at most one watcher. -/
theorem Registries.watcher_unique (r : Registries l) {pid : Pid} {h h' : Handle}
    (hw : l.Watches h pid) (hw' : l.Watches h' pid) : h = h' := by
  have := (r.children pid h).mpr hw
  rw [(r.children pid h').mpr hw', Option.some.injEq] at this
  exact this.symm

/-- A change that leaves the events alone and takes at most something out of the two lists. -/
theorem Registries.congr (r : Registries l) (hkin : ∀ idx, l'.kin idx = l.kin idx)
    (hidle : ∀ h ∈ l'.wantIdle, h ∈ l.wantIdle)
    (hsignals : ∀ signum, ∀ h ∈ l'.signalRecipients signum, h ∈ l.signalRecipients signum)
    (hchildren : l'.children = l.children) : Registries l' := by
  have halive (h : Handle) (ha : l.eventAlive h = true) : l'.eventAlive h = true :=
    eventAlive_congr_kin (hkin h.id) ha
  refine ⟨fun h hm => halive h (r.idle h (hidle h hm)),
    fun signum h hm => halive h (r.signals signum h (hsignals signum h hm)), fun pid h => ?_⟩
  rw [hchildren, r.children, watches_congr (hkin h.id)]

theorem Registries.sets (r : Registries l) {idx : Nat} {old new : EvHolder Ev}
    {events : Recycler (EvHolder Ev)} (hset : l.events.Sets idx (some new) events)
    (hget : l.events.get? idx = some old) (hkin : new.kin = old.kin) (hevents : l'.events = events)
    (hidle : l'.wantIdle = l.wantIdle) (hsignals : l'.signalRecipients = l.signalRecipients)
    (hchildren : l'.children = l.children) : Registries l' := by
  refine r.congr (fun i => ?_) (by simp [hidle]) (by simp [hsignals]) hchildren
  rw [kin, kin, hevents]
  exact hset.map_eq hget hkin i

theorem registries_new (now : Nat) : Registries (new now : Loop Ev) where
  idle := by simp [new]
  signals := by simp [new]
  children pid h := by simp [new, Watches, kin, Recycler.get?_new]

/-- A new event watches nothing, and its slot belonged to nobody. -/
theorem registries_stored (r : Registries l) {event : Ev} {gen idx : Nat} {growth : Growth}
    {events : Recycler (EvHolder Ev)} (hstore : l.events.Stores (.new event gen) growth idx events)
    (hevents : l'.events = events) (hidle : l'.wantIdle = l.wantIdle)
    (hsignals : l'.signalRecipients = l.signalRecipients) (hchildren : l'.children = l.children) :
    Registries l' := by
  have hkin (i : Nat) (hne : i ≠ idx) : l'.kin i = l.kin i := by
    simp [kin, hevents, hstore.get?, hne]
  have hnew : l'.kin idx = some (gen, ∅) := by
    simp [kin, hevents, hstore.get?, EvHolder.kin, EvHolder.new]
  have hvacant : l.kin idx = none := by simp [kin, hstore.vacant]
  have halive (h : Handle) (ha : l.eventAlive h = true) : l'.eventAlive h = true := by
    refine eventAlive_congr_kin (hkin _ fun heq => ?_) ha
    simp [eventAlive, heq, hstore.vacant] at ha
  refine ⟨fun h hm => halive h (r.idle h (hidle ▸ hm)),
    fun signum h hm => halive h (r.signals signum h (hsignals ▸ hm)), fun pid h => ?_⟩
  rw [hchildren, r.children]
  by_cases heq : h.id = idx
  · rw [watches_of_kin (l := l') (heq ▸ hnew)]
    exact iff_of_false (not_watches_of_kin (heq ▸ hvacant)) fun w => ListSet.not_mem_empty pid w.2
  · exact (watches_congr (hkin _ heq)).symm

/-- Rewriting one live holder's set of children along with the entry of one process. -/
theorem registries_children (r : Registries l) {handle : Handle} {pid : Pid} {old : EvHolder Ev}
    {pids : ListSet Pid} {events : Recycler (EvHolder Ev)}
    (hget : l.events.get? handle.id = some old) (hgen : old.generation = handle.generation)
    (hset : l.events.Sets handle.id (some { old with children := pids }) events)
    (hevents : l'.events = events) (hidle : l'.wantIdle = l.wantIdle)
    (hsignals : l'.signalRecipients = l.signalRecipients)
    (hother : ∀ p ≠ pid, (p ∈ pids ↔ p ∈ old.children) ∧
      l'.children.lookup p = l.children.lookup p)
    (hpid : ∀ h, l'.children.lookup pid = some h ↔ h = handle ∧ pid ∈ pids)
    (howner : ∀ h, l.Watches h pid → h = handle) : Registries l' := by
  have hkin (i : Nat) (hne : i ≠ handle.id) : l'.kin i = l.kin i := by
    simp [kin, hevents, hset.get?, hne]
  have hown : l'.kin handle.id = some (handle.generation, pids) := by
    simp [kin, hevents, hset.get?, EvHolder.kin, hgen]
  have hold : l.kin handle.id = some (handle.generation, old.children) := by
    rw [kin_of_get? hget, hgen]
  have halive (h : Handle) (ha : l.eventAlive h = true) : l'.eventAlive h = true := by
    by_cases heq : h.id = handle.id
    · rw [eventAlive_iff_kin, heq] at ha ⊢
      simp only [hold, hown, Option.some.injEq, Prod.mk.injEq] at ha ⊢
      obtain ⟨_, hg, _⟩ := ha
      exact ⟨pids, hg, rfl⟩
    · exact eventAlive_congr_kin (hkin _ heq) ha
  refine ⟨fun h hm => halive h (r.idle h (hidle ▸ hm)),
    fun signum h hm => halive h (r.signals signum h (hsignals ▸ hm)), fun p h => ?_⟩
  by_cases hp : p = pid
  · subst hp
    rw [hpid]
    by_cases heq : h.id = handle.id
    · rw [watches_of_kin (heq ▸ hown), Handle.eq_iff_generation heq]
    · rw [watches_congr (hkin _ heq)]
      constructor
      · intro h
        exact absurd (h.1 ▸ rfl) heq
      · intro w
        exact absurd (howner h w ▸ rfl) heq
  · obtain ⟨hmem, hlookup⟩ := hother p hp
    rw [hlookup, r.children]
    by_cases heq : h.id = handle.id
    · rw [watches_of_kin (l := l) (heq ▸ hold), watches_of_kin (heq ▸ hown), hmem]
    · exact (watches_congr (hkin _ heq)).symm

theorem lookup_foldl_erase (pids : List Pid) (map : AList fun _ : Pid => Handle) (pid : Pid) :
    (pids.foldl (fun map p => map.erase p) map).lookup pid =
      if pid ∈ pids then none else map.lookup pid := by
  induction pids generalizing map with
  | nil => simp
  | cons p pids ih =>
      rw [List.foldl_cons, ih]
      by_cases heq : pid = p
      · subst heq
        simp
      · simp [heq]

/-- Killing an event removes all that is registered for it, and nothing else. -/
theorem registries_killed (r : Registries l) {idx : Nat} {holder : EvHolder Ev}
    {events : Recycler (EvHolder Ev)} (hget : l.events.get? idx = some holder)
    (hset : l.events.Sets idx none events) (hevents : l'.events = events)
    (hidle : l'.wantIdle = l.wantIdle.erase ⟨idx, holder.generation⟩)
    (hsignals : ∀ signum,
      l'.signalRecipients signum = (l.signalRecipients signum).erase ⟨idx, holder.generation⟩)
    (hchildren : l'.children = holder.children.toList.foldl (fun map pid => map.erase pid)
      l.children) : Registries l' := by
  have hkin (i : Nat) (hne : i ≠ idx) : l'.kin i = l.kin i := by
    simp [kin, hevents, hset.get?, hne]
  have hdead : l'.kin idx = none := by simp [kin, hevents, hset.get?]
  have hold : l.kin idx = some (holder.generation, holder.children) := kin_of_get? hget
  have halive (h : Handle) (hne : h ≠ ⟨idx, holder.generation⟩) (ha : l.eventAlive h = true) :
      l'.eventAlive h = true := by
    refine eventAlive_congr_kin (hkin _ fun heq => hne ?_) ha
    rw [eventAlive, heq, hget, beq_iff_eq] at ha
    exact (Handle.eq_iff_generation heq).mpr ha.symm
  refine ⟨fun h hm => ?_, fun signum h hm => ?_, fun pid h => ?_⟩
  · rw [hidle, ListSet.mem_erase] at hm
    exact halive h hm.1 (r.idle h hm.2)
  · rw [hsignals, ListSet.mem_erase] at hm
    exact halive h hm.1 (r.signals signum h hm.2)
  · rw [hchildren, lookup_foldl_erase]
    simp only [← ListSet.mem_def]
    by_cases hid : h.id = idx
    · -- The dead event watches nothing any more, and its children are gone from the table.
      simp only [not_watches_of_kin (hid ▸ hdead), iff_false]
      split
      · intro heq
        cases heq
      · rename_i hmem
        rw [r.children, watches_of_kin (hid ▸ hold)]
        exact fun w => hmem w.2
    · rw [watches_congr (hkin _ hid), ← r.children]
      split
      · rename_i hmem
        -- The process was watched by the dying event, hence by no other.
        have howner : l.children.lookup pid = some ⟨idx, holder.generation⟩ :=
          (r.children pid _).mpr ((watches_of_kin hold).mpr ⟨rfl, hmem⟩)
        rw [howner, Option.some.injEq]
        exact iff_of_false (Option.some_ne_none h).symm fun heq => hid (heq ▸ rfl)
      · rfl

end Loop

namespace Config

open Loop

variable {c c' : Config Ev} {a : Action Ev}

theorem registries_edit (d : Discipline c) (r : c.loop.Registries) (e : Edit a c c') :
    c'.loop.Registries := by
  cases e with
  | stored event growth idx events ha hctl hstore =>
      exact registries_stored r hstore rfl rfl rfl rfl
  | timer _ _ _ _ _ _ _ _ _ hget hset
  | expected _ _ _ _ _ _ _ hget hset
  | ioRegistered _ _ _ _ _ _ _ _ _ hget _ hset
  | ioRemoved _ _ _ _ _ _ _ _ _ _ hget _ hset
  | entered _ _ _ _ _ _ hget _ _ hset
  | finished _ _ _ _ _ _ _ _ _ _ _ hget _ hset
  | fired _ _ _ _ _ _ _ _ _ _ hget _ _ hset =>
      exact r.sets hset hget rfl rfl rfl rfl rfl
  | killed handle resp result holder events deregisters handler ha hctl hresp hget hfree hset =>
      exact registries_killed r hget hset rfl rfl (fun _ => rfl) rfl
  | tracked pid handle holder events ha hctl hcaller hget hfresh hset =>
      refine registries_children r hget (d.caller_gen hcaller hget) hset rfl rfl rfl
        (fun p hp => ⟨by simp [hp], AList.lookup_insert_ne hp⟩) (fun h => ?_) fun h hw => ?_
      · simp [answer, eq_comm]
      · have hlookup := (r.children pid h).mpr hw
        rw [AList.lookup_eq_none.mpr hfresh] at hlookup
        cases hlookup
  | reaped pid exit handle holder events ha hctl hlookup hget hmem hset =>
      have hw := (r.children pid handle).mp hlookup
      obtain ⟨holder', hget', hgen⟩ := eventAlive_iff.mp hw.alive
      rw [hget] at hget'
      cases hget'
      refine registries_children r hget hgen hset rfl rfl rfl
        (fun p hp => ⟨by simp [hp], AList.lookup_erase_ne hp⟩) (fun h => ?_) fun h hw' => ?_
      · simp [schedule]
      · have := (r.children pid h).mpr hw'
        rw [hlookup, Option.some.injEq] at this
        exact this.symm
  | idled handle ha hctl hcaller =>
      refine ⟨fun h hm => ?_, r.signals, r.children⟩
      rcases ListSet.mem_pushBack.mp hm with rfl | hm
      · exact d.caller_alive hcaller
      · exact r.idle h hm
  | signalled signal handle ha hctl hcaller =>
      refine ⟨r.idle, fun signum h hm => ?_, r.children⟩
      by_cases heq : signum = signal.num
      · simp only [answer, heq, Function.update_self, ListSet.mem_insert] at hm
        rcases hm with rfl | hm
        · exact d.caller_alive hcaller
        · exact r.signals _ h hm
      · simp only [answer, Function.update_of_ne heq] at hm
        exact r.signals _ h hm
  | reorderedRecipients signum order ha hperm =>
      refine r.congr (fun _ => rfl) (fun _ hm => hm) (fun signum' h hm => ?_) rfl
      by_cases heq : signum' = signum
      · subst heq
        simpa [setRecipients] using hm
      · simpa [setRecipients, heq] using hm
  | idleTaken handle rest ha hctl hsched hpop =>
      exact r.congr (fun _ => rfl) (fun h hm => (ListSet.mem_of_popFront hpop).mpr (.inr hm))
        (fun _ _ hm => hm) rfl
  | _ => exact r.congr (fun _ => rfl) (fun _ hm => hm) (fun _ _ hm => hm) rfl

theorem Visited.registries {P : Config Ev → Action Ev → Prop} (h : Visited P c) :
    c.loop.Registries := by
  induction h with
  | start now => exact registries_new now
  | edit hv _ he ih => exact registries_edit hv.discipline ih he

/-- An event that does not want to live on, or failed, is dead after `event_call`.  The heap of
timeouts stays as it is. -/
theorem settle_dead {handle : Handle} {resp : Response} {deregisters : Bool}
    {handler : Except Error Unit} (hctl : c.ctl = .settle handle resp)
    (hresp : resp ≠ .ok true) (h : c.step (.settle deregisters handler) = .ok c') :
    c'.loop.eventAlive handle = false ∧ c'.loop.timeouts = c.loop.timeouts := by
  have e := step_edit h nofun
  cases e with
  | killed handle' resp' result holder events deregisters handler ha hctl' hresp' hget hfree hset =>
      rw [hctl] at hctl'
      cases hctl'
      exact ⟨by simp [eventAlive, hset.get?], rfl⟩
  | kept handle' ha hctl' =>
      rw [hctl] at hctl'
      cases hctl'
      exact absurd rfl hresp
  | _ => simp_all

theorem not_childUnlinked (h : Reachable c) : c.step a ≠ .error (.panic .childUnlinked) := by
  intro hstep
  obtain ⟨c', hv, hfail⟩ := h.fail hstep
  cases hfail with
  | childUnlinked pid handle holder hlookup hget hnot =>
      obtain ⟨holder', hget', hmem⟩ := hv.registries.holder hlookup
      rw [hget] at hget'
      cases hget'
      exact hnot hmem

/-- After a gather, the task that calls an idle event addresses a live one. -/
theorem idle_task_alive (h : Reachable c) {env : GatherEnv}
    (hstep : c.step (.gather env) = .ok c') :
    ∀ task ∈ c'.loop.scheduled, task.param = .idle → c'.loop.eventAlive task.recipient = true := by
  refine gather_scheduled (Q := fun c task => task.param = .idle →
    c.loop.eventAlive task.recipient = true) hstep h.visited (fun _ _ hv he => hv.edit trivial he)
    ?_ ?_
  · intro c c' task hv he horigin hidle
    cases horigin with
    | idle handle ha hmem =>
        rw [he.eventAlive_of_gather]
        exact hv.registries.idle handle hmem
    | _ => cases hidle
  · intro c c' task _ he hold hidle
    rw [he.eventAlive_of_gather]
    exact hold hidle

/-- The registries speak of live events only, the two indexes of children agree, and an event that
dies, during `init` or later, leaves nothing in the registries; the heap is as before. -/
theorem dead_event_leaves_no_trace (c : Config Ev) (h : Reachable c) :
    c.loop.Registries ∧
    (∀ pid h h', c.loop.Watches h pid → c.loop.Watches h' pid → h = h') ∧
    (∀ a, c.step a ≠ .error (.panic .childUnlinked)) ∧
    (∀ env c', c.step (.gather env) = .ok c' → ∀ task ∈ c'.loop.scheduled,
      task.param = .idle → c'.loop.eventAlive task.recipient = true) ∧
    ∀ handle resp deregisters handler c', c.ctl = .settle handle resp → resp ≠ .ok true →
      c.step (.settle deregisters handler) = .ok c' →
        c'.loop.Unregistered handle ∧ c'.loop.eventAlive handle = false ∧
          c'.loop.timeouts = c.loop.timeouts := by
  have hr := h.visited.registries
  refine ⟨hr, fun pid _ _ => hr.watcher_unique, fun _ => not_childUnlinked h,
    fun _ _ => idle_task_alive h, ?_⟩
  intro handle resp deregisters handler c' hctl hresp hstep
  obtain ⟨hdead, htimeouts⟩ := settle_dead hctl hresp hstep
  exact ⟨(h.step hstep).visited.registries.unregistered hdead, hdead, htimeouts⟩

/-- An event that registers all it can while `init` runs, and then does not want to live. -/
def shortLived : List (Action Unit) :=
  [.call (.iface (.insertExact () ⟨0, true⟩)), .tick, .call (.scope (.timeoutAt 5)),
    .call (.scope (.signal .SIGCHLD)), .call (.scope .idle), .call (.scope (.child 7)),
    .finish () (.ok false)]

theorem dead_event_leaves_no_trace_shortLived :
    (after 0 (shortLived ++ [.settle true (.ok ())])).loop.Unregistered ⟨0, 0⟩ := by
  obtain ⟨_, _, _, _, hdeath⟩ := dead_event_leaves_no_trace _ (reachable_after 0 shortLived)
  exact (hdeath ⟨0, 0⟩ (.ok false) true (.ok ()) _ rfl nofun (step_after (by decide))).1

/-- The timeouts of a dead event are not among what goes away with it. -/
theorem timeouts_outlive_event :
    ¬∀ c : Config Unit, Reachable c → ∀ handle rest resp deregisters handler c',
      c.stack = .insertExact handle :: rest → c.ctl = .settle handle resp → resp ≠ .ok true →
        c.step (.settle deregisters handler) = .ok c' →
          c'.loop.Unregistered handle ∧ ∀ t ∈ c'.loop.timeouts, t.recipient ≠ handle := by
  intro hall
  have hnone := (hall _ (reachable_after 0 shortLived) ⟨0, 0⟩ [] (.ok false) true (.ok ()) _ rfl
    rfl nofun (step_after (by decide))).2
  exact hnone ⟨⟨0⟩, ⟨0, 0⟩, 5⟩ (by decide) rfl

end Config

end Eveboros
