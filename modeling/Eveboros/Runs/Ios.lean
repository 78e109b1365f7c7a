import Eveboros.Runs.Reentrancy

/-!
# Ownership of IO slots

The slots of `ios`, the `ios` maps of the events and the set `ios_released` are three indexes of
the same thing: an occupied slot belongs to the event that registered the IO, or waits to be
released by the next gather.  Every operation but `io_remove` keeps them in step; `io_remove`
releases the slot at once and leaves it to the next gather to release it again.
-/

namespace Eveboros

open TransitionSystem

variable {Ev : Type}

namespace Loop

variable {l l' : Loop Ev}

/-- The IO that a live event has registered under a key. -/
def registration (l : Loop Ev) (h : Handle) (idx : Nat) : Option IoHolder :=
  match l.events.get? h.id with
  | some holder => if holder.generation = h.generation then holder.ios.lookup idx else none
  | none => none

theorem registration_of_get? {h : Handle} {holder : EvHolder Ev} (idx : Nat)
    (hget : l.events.get? h.id = some holder) (hgen : holder.generation = h.generation) :
    l.registration h idx = holder.ios.lookup idx := by
  simp [registration, hget, hgen]

theorem registration_congr {h : Handle} (heq : l'.events.get? h.id = l.events.get? h.id)
    (idx : Nat) : l'.registration h idx = l.registration h idx := by
  simp [registration, heq]

/-- Updating a holder that keeps its IOs. -/
theorem registration_of_sets {i : Nat} {old new : EvHolder Ev} {events : Recycler (EvHolder Ev)}
    (hset : l.events.Sets i (some new) events) (hget : l.events.get? i = some old)
    (hgen : new.generation = old.generation) (hios : new.ios = old.ios)
    (hevents : l'.events = events) (h : Handle) (idx : Nat) :
    l'.registration h idx = l.registration h idx := by
  by_cases hid : h.id = i
  · subst hid
    simp [registration, hevents, hset.get?, hget, hgen, hios]
  · exact registration_congr (by simp [hevents, hset.get?, hid]) idx

/-- Updating the IOs of one live event. -/
theorem registration_of_update {handle : Handle} {old : EvHolder Ev}
    {ios : AList fun _ : Nat => IoHolder} {events : Recycler (EvHolder Ev)}
    (hset : l.events.Sets handle.id (some { old with ios := ios }) events)
    (hgen : old.generation = handle.generation) (hevents : l'.events = events) (h : Handle)
    (idx : Nat) (hget : l.events.get? handle.id = some old) : l'.registration h idx =
      if h = handle then ios.lookup idx else l.registration h idx := by
  by_cases hid : h.id = handle.id
  · by_cases hg : h.generation = handle.generation
    · have heq : h = handle := (Handle.eq_iff_generation hid).mpr hg
      simp [registration, hevents, hset.get?, heq, hgen]
    · have hne : h ≠ handle := fun heq => hg (heq ▸ rfl)
      simp [registration, hevents, hset.get?, hid, hne, hgen, Ne.symm hg, hget]
  · have hne : h ≠ handle := fun heq => hid (heq ▸ rfl)
    rw [if_neg hne]
    exact registration_congr (by simp [hevents, hset.get?, hid]) idx

theorem registration_of_stored {event : Ev} {gen i : Nat} {growth : Growth}
    {events : Recycler (EvHolder Ev)} (hstore : l.events.Stores (.new event gen) growth i events)
    (hevents : l'.events = events) (h : Handle) (idx : Nat) :
    l'.registration h idx = l.registration h idx := by
  by_cases hid : h.id = i
  · simp [registration, hevents, hstore.get?, hid, hstore.vacant, EvHolder.new]
  · exact registration_congr (by simp [hevents, hstore.get?, hid]) idx

/-! ## Ownership -/

/-- What holds as long as no id is handed out twice: the slot of a registered IO holds the handle
of its event, and is not about to be released; any other occupied slot is. -/
structure IoClaims (l : Loop Ev) : Prop where
  registered (h : Handle) (idx : Nat) (io : IoHolder) : l.registration h idx = some io →
    l.ios.get? idx = some h ∧ idx ∉ l.iosReleased
  occupied (h : Handle) (idx : Nat) : l.ios.get? idx = some h →
    idx ∈ l.iosReleased ∨ ∃ io, l.registration h idx = some io

/-- The occupied slots are the disjoint union of the keys of the live events and of the ids to be
released. -/
structure IoOwnership (l : Loop Ev) : Prop extends IoClaims l where
  released : ∀ idx ∈ l.iosReleased, l.ios.get? idx ≠ none

theorem IoClaims.congr (o : IoClaims l)
    (hreg : ∀ h idx, l'.registration h idx = l.registration h idx)
    (hios : ∀ idx, l'.ios.get? idx = l.ios.get? idx)
    (hreleased : ∀ idx, idx ∈ l'.iosReleased ↔ idx ∈ l.iosReleased) : IoClaims l' where
  registered h idx io hr := by
    rw [hios, hreleased]
    exact o.registered h idx io (hreg h idx ▸ hr)
  occupied h idx hslot := by
    rw [hreleased]
    simp only [hreg]
    exact o.occupied h idx (hios idx ▸ hslot)

theorem ioClaims_new (now : Nat) : IoClaims (new now : Loop Ev) where
  registered h idx io hr := by simp [registration, new, Recycler.get?_new] at hr
  occupied h idx hslot := by simp [new, Recycler.get?_new] at hslot

/-- A slot has one owner. -/
theorem IoClaims.owner_unique (o : IoClaims l) {h h' : Handle} {idx : Nat} {io io' : IoHolder}
    (hr : l.registration h idx = some io) (hr' : l.registration h' idx = some io') : h = h' := by
  have := (o.registered h idx io hr).1
  rw [(o.registered h' idx io' hr').1, Option.some.injEq] at this
  exact this.symm

/-- The slot that the next IO gets is not one of a registered IO. -/
theorem IoClaims.next_unregistered (o : IoClaims l) (h : Handle) :
    l.registration h l.ios.next = none := by
  cases hr : l.registration h l.ios.next with
  | none => rfl
  | some io =>
      have hslot := (o.registered h _ io hr).1
      simp [Recycler.get?_next] at hslot

/-- A fresh slot, not about to be released, goes to a new IO. -/
theorem ioClaims_registered (o : IoClaims l) {handle : Handle} {idx : Nat} {io : IoHolder}
    (hvacant : l.ios.get? idx = none) (hfree : idx ∉ l.iosReleased)
    (hslots : ∀ i, l'.ios.get? i = if i = idx then some handle else l.ios.get? i)
    (hreg : ∀ h i, l'.registration h i =
      if h = handle ∧ i = idx then some io else l.registration h i)
    (hreleased : l'.iosReleased = l.iosReleased) : IoClaims l' := by
  have hnew (h : Handle) (io : IoHolder) : l.registration h idx ≠ some io := fun hr => by
    have hslot := (o.registered h idx io hr).1
    simp [hvacant] at hslot
  refine ⟨fun h i io' hr => ?_, fun h i hslot => ?_⟩
  · rw [hslots, hreleased]
    by_cases hi : i = idx
    · subst hi
      by_cases hh : h = handle
      · exact ⟨by simp [hh], hfree⟩
      · exact absurd (by simpa [hreg, hh] using hr) (hnew h io')
    · simp only [hi, ↓reduceIte]
      exact o.registered h i io' (by simpa [hreg, hi] using hr)
  · rw [hreleased]
    by_cases hi : i = idx
    · subst hi
      have hh : handle = h := by simpa [hslots] using hslot
      exact .inr ⟨io, by simp [hreg, hh]⟩
    · rw [hslots, if_neg hi] at hslot
      simpa [hreg, hi] using o.occupied h i hslot

/-- An IO goes away along with its slot; the id is still listed for release. -/
theorem ioClaims_removed (o : IoClaims l) {handle : Handle} {idx : Nat} {io : IoHolder}
    (hheld : l.registration handle idx = some io)
    (hslots : ∀ i, l'.ios.get? i = if i = idx then none else l.ios.get? i)
    (hreg : ∀ h i, l'.registration h i =
      if h = handle ∧ i = idx then none else l.registration h i)
    (hreleased : l'.iosReleased = l.iosReleased.insert idx) : IoClaims l' := by
  refine ⟨fun h i io' hr => ?_, fun h i hslot => ?_⟩
  · have hi : i ≠ idx := by
      intro heq
      subst heq
      by_cases hh : h = handle
      · simp [hreg, hh] at hr
      · exact hh (o.owner_unique (by simpa [hreg, hh] using hr) hheld)
    obtain ⟨hslot, hnot⟩ := o.registered h i io' (by simpa [hreg, hi] using hr)
    exact ⟨by simp [hslots, hi, hslot], by simp [hreleased, hi, hnot]⟩
  · have hi : i ≠ idx := by
      intro heq
      subst heq
      simp [hslots] at hslot
    rw [hslots, if_neg hi] at hslot
    simpa [hreleased, hreg, hi] using o.occupied h i hslot

/-- The ids of a dying event are listed for release. -/
theorem ioClaims_killed (o : IoClaims l) {handle : Handle} {keys : List Nat}
    (hkeys : ∀ i, i ∈ keys ↔ ∃ io, l.registration handle i = some io)
    (hslots : l'.ios = l.ios)
    (hreg : ∀ h i, l'.registration h i = if h = handle then none else l.registration h i)
    (hreleased : l'.iosReleased = l.iosReleased.insertAll keys) : IoClaims l' := by
  refine ⟨fun h i io hr => ?_, fun h i hslot => ?_⟩
  · have hh : h ≠ handle := by
      intro heq
      subst heq
      simp [hreg] at hr
    rw [hreg, if_neg hh] at hr
    obtain ⟨hslot, hnot⟩ := o.registered h i io hr
    refine ⟨hslots ▸ hslot, ?_⟩
    rw [hreleased, ListSet.mem_insertAll, hkeys]
    rintro (⟨io', hr'⟩ | hmem)
    · exact hh (o.owner_unique hr hr')
    · exact hnot hmem
  · rw [hslots] at hslot
    rw [hreleased, ListSet.mem_insertAll, hkeys]
    rcases o.occupied h i hslot with hmem | ⟨io, hr⟩
    · exact .inl (.inr hmem)
    · by_cases hh : h = handle
      · exact .inl (.inl ⟨io, hh ▸ hr⟩)
      · exact .inr ⟨io, by simp [hreg, hh, hr]⟩

theorem ioClaims_drained (o : IoClaims l)
    (hslots : ∀ i, l'.ios.get? i = if i ∈ l.iosReleased then none else l.ios.get? i)
    (hreg : ∀ h i, l'.registration h i = l.registration h i) (hreleased : l'.iosReleased = ∅) :
    IoClaims l' := by
  refine ⟨fun h i io hr => ?_, fun h i hslot => ?_⟩
  · obtain ⟨hslot, hnot⟩ := o.registered h i io (hreg h i ▸ hr)
    simp [hslots, hnot, hslot, hreleased]
  · by_cases hmem : i ∈ l.iosReleased
    · simp [hslots, hmem] at hslot
    · rw [hslots, if_neg hmem] at hslot
      simpa [hreleased, hreg, hmem] using o.occupied h i hslot

end Loop

namespace Config

open Loop

variable {c c' : Config Ev} {a : Action Ev}

/-- The action removes an IO of the event whose callback runs. -/
def RemovesIo (c : Config Ev) (a : Action Ev) : Prop :=
  ∃ id outcome handle io, a = .call (.scope (.ioRemove id outcome)) ∧ c.caller = some handle ∧
    c.loop.registration handle id.idx = some io

/-- The action registers an IO, and the slot on offer is listed for release. -/
def ReusesId (c : Config Ev) (a : Action Ev) : Prop :=
  ∃ growth, a = .call (.scope (.ioRegisterAny growth none)) ∧
    c.loop.ios.next ∈ c.loop.iosReleased

/-- mio reports only tokens under which an IO is registered, and the object that is ready is the
registered one. -/
def MioSane (c : Config Ev) (a : Action Ev) : Prop :=
  ∀ env polled, a = .gather env → env.poll = .ok polled → ∀ ev ∈ polled, ∀ id : IoId,
    id.token = ev.token → ∃ h io, c.loop.registration h id.idx = some io ∧ io.io = ev.source

/-- An update of one IO of the event whose callback runs changes no other registration. -/
theorem entry_edit {handle : Handle} {holder : EvHolder Ev} {idx : Nat} {entry : Option IoHolder}
    {ios : AList fun _ : Nat => IoHolder} {events : Recycler (EvHolder Ev)} {l' : Loop Ev}
    (d : Discipline c) (hcaller : c.caller = some handle)
    (hget : c.loop.events.get? handle.id = some holder)
    (hset : c.loop.events.Sets handle.id (some { holder with ios := ios }) events)
    (hevents : l'.events = events)
    (hentry : ∀ i, ios.lookup i = if i = idx then entry else holder.ios.lookup i) (h : Handle)
    (i : Nat) : l'.registration h i =
      if h = handle ∧ i = idx then entry else c.loop.registration h i := by
  have hgen := d.caller_gen hcaller hget
  rw [registration_of_update hset hgen hevents h i hget, hentry i]
  by_cases hh : h = handle
  · simp [hh, registration_of_get? i hget hgen]
  · simp [hh]

theorem registered_edit {handle : Handle} {holder : EvHolder Ev} {idx object : Nat}
    {events : Recycler (EvHolder Ev)} {l' : Loop Ev} (d : Discipline c)
    (hcaller : c.caller = some handle)
    (hget : c.loop.events.get? handle.id = some holder)
    (hset : c.loop.events.Sets handle.id
      (some { holder with ios := holder.ios.insert idx ⟨handle, object⟩ }) events)
    (hevents : l'.events = events) (h : Handle) (i : Nat) : l'.registration h i =
      if h = handle ∧ i = idx then some ⟨handle, object⟩ else c.loop.registration h i := by
  refine entry_edit d hcaller hget hset hevents (fun j => ?_) h i
  by_cases hj : j = idx
  · subst hj
    simp
  · simp [hj]

theorem removed_edit {handle : Handle} {holder : EvHolder Ev} {idx : Nat}
    {events : Recycler (EvHolder Ev)} {l' : Loop Ev} (d : Discipline c)
    (hcaller : c.caller = some handle) (hget : c.loop.events.get? handle.id = some holder)
    (hset : c.loop.events.Sets handle.id (some { holder with ios := holder.ios.erase idx }) events)
    (hevents : l'.events = events) (h : Handle) (i : Nat) : l'.registration h i =
      if h = handle ∧ i = idx then none else c.loop.registration h i := by
  refine entry_edit d hcaller hget hset hevents (fun j => ?_) h i
  by_cases hj : j = idx
  · subst hj
    simp
  · simp [hj]

theorem killed_edit {handle : Handle} {holder : EvHolder Ev} {events : Recycler (EvHolder Ev)}
    {l' : Loop Ev} (hget : c.loop.events.get? handle.id = some holder)
    (hgen : holder.generation = handle.generation)
    (hset : c.loop.events.Sets handle.id none events) (hevents : l'.events = events) (h : Handle)
    (i : Nat) : l'.registration h i = if h = handle then none else c.loop.registration h i := by
  by_cases hid : h.id = handle.id
  · have hdead : l'.registration h i = none := by simp [registration, hevents, hset.get?, hid]
    rw [hdead]
    split
    · rfl
    · rename_i hne
      have hg : handle.generation ≠ h.generation := fun hg =>
        hne ((Handle.eq_iff_generation hid).mpr hg.symm)
      simp [registration, hid, hget, hgen, hg]
  · have hne : h ≠ handle := fun heq => hid (heq ▸ rfl)
    rw [if_neg hne]
    exact registration_congr (by simp [hevents, hset.get?, hid]) i

theorem mem_ios_iff {handle : Handle} {holder : EvHolder Ev}
    (hget : c.loop.events.get? handle.id = some holder)
    (hgen : holder.generation = handle.generation) (i : Nat) :
    i ∈ holder.ios ↔ ∃ io, c.loop.registration handle i = some io := by
  rw [registration_of_get? i hget hgen, ← AList.lookup_isSome, Option.isSome_iff_exists]

theorem ioClaims_edit (d : Discipline c) (o : c.loop.IoClaims) (e : Edit a c c')
    (hfresh : ¬ReusesId c a) : c'.loop.IoClaims := by
  cases e with
  | stored event growth idx events ha hctl hstore =>
      exact o.congr (registration_of_stored hstore rfl) (fun _ => rfl) fun _ => .rfl
  | timer _ _ _ _ _ _ _ _ _ hget hset
  | expected _ _ _ _ _ _ _ hget hset
  | tracked _ _ _ _ _ _ _ hget _ hset
  | entered _ _ _ _ _ _ hget _ _ hset
  | finished _ _ _ _ _ _ _ _ _ _ _ hget _ hset
  | fired _ _ _ _ _ _ _ _ _ _ hget _ _ hset
  | reaped _ _ _ _ _ _ _ _ hget _ hset =>
      exact o.congr (registration_of_sets hset hget rfl rfl rfl) (fun _ => rfl) fun _ => .rfl
  | ioRefused growth err handle ios ha hctl hcaller hios =>
      exact o.congr (fun _ _ => rfl) hios fun _ => .rfl
  | ioRegistered growth handle holder idx ios events ha hctl hcaller hget hstore hset =>
      have hspec := Recycler.store_ok hstore
      have hnext := Recycler.store_next hstore
      refine ioClaims_registered o hspec.vacant (fun hmem => hfresh ⟨growth, ha, hnext ▸ hmem⟩)
        hspec.get? (registered_edit d hcaller hget hset rfl) rfl
  | ioRemoved id outcome handle holder ios events ans ha hctl hcaller hget hmem hset hios =>
      obtain ⟨io, hheld⟩ := (mem_ios_iff hget (d.caller_gen hcaller hget) _).mp hmem
      exact ioClaims_removed o hheld hios.get? (removed_edit d hcaller hget hset rfl) rfl
  | killed handle resp result holder events deregisters handler ha hctl hresp hget hfree hset =>
      have hgen := d.settling_gen hctl hget
      exact ioClaims_killed o (mem_ios_iff hget hgen) rfl (killed_edit hget hgen hset rfl) rfl
  | drained ios ha hctl hsched hheld hios => exact ioClaims_drained o hios (fun _ _ => rfl) rfl
  | reorderedReleased order ha h =>
      exact o.congr (fun _ _ => rfl) (fun _ => rfl) fun _ => h.mem_iff
  | _ => exact o.congr (fun _ _ => rfl) (fun _ => rfl) fun _ => .rfl

theorem ioOwnership_edit (d : Discipline c) (o : c.loop.IoOwnership) (e : Edit a c c')
    (hkeep : ¬RemovesIo c a) : c'.loop.IoOwnership := by
  have hfresh : ¬ReusesId c a := by
    intro h
    rcases h with ⟨_, _, hmem⟩
    exact o.released _ hmem (Recycler.get?_next _)
  refine ⟨ioClaims_edit d o.toIoClaims e hfresh, ?_⟩
  cases e with
  | ioRefused growth err handle ios ha hctl hcaller hios =>
      intro idx hmem
      change ios.get? idx ≠ none
      rw [hios]
      exact o.released idx hmem
  | ioRegistered growth handle holder idx ios events ha hctl hcaller hget hstore hset =>
      intro i hmem
      change ios.get? i ≠ none
      rw [(Recycler.store_ok hstore).get? i]
      split
      · simp
      · exact o.released i hmem
  | ioRemoved id outcome handle holder ios events ans ha hctl hcaller hget hmem hset hios =>
      obtain ⟨io, hheld⟩ := (mem_ios_iff hget (d.caller_gen hcaller hget) _).mp hmem
      exact absurd ⟨id, outcome, handle, io, ha, hcaller, hheld⟩ hkeep
  | killed handle resp result holder events deregisters handler ha hctl hresp hget hfree hset =>
      intro idx hmem
      rcases ListSet.mem_insertAll.mp hmem with hkey | hold
      · obtain ⟨io, hr⟩ := (mem_ios_iff hget (d.settling_gen hctl hget) idx).mp hkey
        simp [(o.registered handle idx io hr).1]
      · exact o.released idx hold
  | drained ios ha hctl hsched hheld hios => simp
  | reorderedReleased order ha h => exact fun idx hmem => o.released idx (h.mem_iff.mp hmem)
  | _ => exact o.released

/-! ## Runs -/

theorem not_removesIo_gather (c : Config Ev) (env : GatherEnv) : ¬RemovesIo c (.gather env) := by
  intro h
  rcases h with ⟨_, _, _, _, ⟨⟩, _⟩

theorem ioOwnership_keep (hq : Visited Anything c ∧ c.loop.IoOwnership) (hkeep : ¬RemovesIo c a)
    (e : Edit a c c') : Visited Anything c' ∧ c'.loop.IoOwnership :=
  ⟨hq.1.edit trivial e, ioOwnership_edit hq.1.discipline hq.2 e hkeep⟩

theorem ioOwnership_step (hv : Visited Anything c) (o : c.loop.IoOwnership)
    (hkeep : ¬RemovesIo c a) (h : c.step a = .ok c') : c'.loop.IoOwnership :=
  (keep_step (P := fun c a => ¬RemovesIo c a)
    (Q := fun c => Visited Anything c ∧ c.loop.IoOwnership) (.of_forall not_removesIo_gather)
    (fun _ _ => ioOwnership_keep) ⟨hv, o⟩ hkeep h).2

/-- What `io_remove` does to an IO that the event has: its slot is vacant, and listed for
release. -/
theorem ioRemove_ok {l l' : Loop Ev} {handle : Handle} {id : IoId} {outcome : Option IoErrorKind}
    {removed : Except Error Unit} {io : IoHolder} (hheld : l.registration handle id.idx = some io)
    (h : l.ioRemove handle id outcome = .ok (removed, l')) :
    l'.ios.get? id.idx = none ∧ id.idx ∈ l'.iosReleased := by
  obtain ⟨idx, hidx, h⟩ := Except.bind_eq_ok.mp h
  rcases ioIdx_cases l handle id with ⟨_, e, he⟩ | ⟨holder, hget, ⟨_, hok⟩ | ⟨hnot, _⟩⟩
  · simp [he] at hidx
  · rw [hok] at hidx
    cases hidx
    obtain ⟨events, _, h⟩ := Except.bind_eq_ok.mp h
    obtain ⟨⟨owner, ios⟩, hrel, h⟩ := Except.bind_eq_ok.mp h
    cases h
    have hset := (Recycler.release_ok (Except.mapError_eq_ok.mp hrel)).2
    exact ⟨by simp [hset.get?], by simp⟩
  · have hnone : holder.ios.lookup id.idx = none := AList.lookup_eq_none.mpr hnot
    simp [registration, hget, hnone] at hheld

/-- A successful removal breaks the ownership at once. -/
theorem not_ioOwnership_of_removal (hremove : RemovesIo c a) (h : c.step a = .ok c') :
    ¬c'.loop.IoOwnership := by
  rcases hremove with ⟨id, outcome, handle, io, rfl, hcaller, hheld⟩
  simp only [step] at h
  split at h
  · simp only [callOp, hcaller] at h
    obtain ⟨⟨removed, l⟩, hrem, h⟩ := Except.bind_eq_ok.mp (Except.mapError_eq_ok.mp h)
    cases h
    obtain ⟨hvacant, hlisted⟩ := ioRemove_ok hheld hrem
    exact fun o => o.released _ hlisted hvacant
  · cases h

theorem ioOwnership_new (now : Nat) : (Loop.new now : Loop Ev).IoOwnership :=
  ⟨ioClaims_new now, by simp [Loop.new]⟩

/-- In a gather the registrations stay as they are. -/
theorem Edit.registration_of_gather {env : GatherEnv} (e : Edit (.gather env) c c') (h : Handle)
    (idx : Nat) : c'.loop.registration h idx = c.loop.registration h idx := by
  cases e with
  | reaped pid exit handle holder events ha hctl hlookup hget hmem hset =>
      exact registration_of_sets hset hget rfl rfl rfl h idx
  | _ => first | rfl | simp_all

theorem gatherStable_mioSane : GatherStable (MioSane : Config Ev → Action Ev → Prop) := by
  intro c c' env hsane e env' polled ha hpoll ev hev id hid
  simp only [e.registration_of_gather]
  exact hsane env' polled ha hpoll ev hev id hid

/-- No slot is released twice, and no token leads to a vacant slot. -/
theorem not_ios_panic (hv : Visited Anything c) (o : c.loop.IoOwnership) (hsane : MioSane c a)
    (fault : RecyclerFault) : c.step a ≠ .error (.panic (.ios fault)) := by
  intro hstep
  obtain ⟨c', ⟨hv', o'⟩, hsane', hfail⟩ := keep_fail
    (Q := fun c => Visited Anything c ∧ c.loop.IoOwnership) gatherStable_mioSane
    (fun env c _ hq _ => ioOwnership_keep hq (not_removesIo_gather c env)) ⟨hv, o⟩ hsane hstep
  cases hfail with
  | removeVacant id outcome handle holder _ ha hctl hcaller hget hmem hnone =>
      have hgen := hv'.discipline.caller_gen hcaller hget
      obtain ⟨io, hr⟩ := (mem_ios_iff hget hgen _).mp hmem
      simp [(o'.registered handle _ io hr).1] at hnone
  | drainVacant idx _ hctl hmem hnone => exact o'.released idx hmem hnone
  | tokenVacant env ev polled id _ ha hctl hpoll hev hid hnone =>
      obtain ⟨h, io, hr, _⟩ := hsane' env polled ha hpoll ev hev id hid
      simp [(o'.registered h _ io hr).1] at hnone

/-- A run keeps the ownership of IO slots exactly as long as it removes no IO.  Until then no
access to a slot fails, and no slot of a registered IO goes to another one. -/
theorem io_ownership_iff_no_removal (now : Nat) :
    (∀ as : List (Action Ev), Always step (fun c => c.loop.IoOwnership) (init now) as ↔
      Along step (fun c a => ¬RemovesIo c a) (init now) as) ∧
    ∀ c : Config Ev, Reach step (fun c a => ¬RemovesIo c a) (init now) c →
      (∀ a fault, MioSane c a → c.step a ≠ .error (.panic (.ios fault))) ∧
        ∀ h, c.loop.registration h c.loop.ios.next = none := by
  constructor
  · intro as
    refine always_iff_along (C := Visited Anything)
      (fun c c' a hv hs => hv.step gatherStable_anything trivial hs) (fun c c' a hv o hs => ?_) as
      (init now) (.start now) (ioOwnership_new now)
    exact ⟨fun o' hremove => not_ioOwnership_of_removal hremove hs o',
      fun hkeep => ioOwnership_step hv o hkeep hs⟩
  · intro c hreach
    obtain ⟨hv, o⟩ : Visited Anything c ∧ c.loop.IoOwnership :=
      hreach.invariant (Q := fun c => Visited Anything c ∧ c.loop.IoOwnership)
        ⟨.start now, ioOwnership_new now⟩ fun c c' a ih hkeep hs =>
          ⟨ih.1.step gatherStable_anything trivial hs, ioOwnership_step ih.1 ih.2 hkeep hs⟩
    exact ⟨fun a fault hsane => not_ios_panic hv o hsane fault, fun h => o.next_unregistered h⟩

/-- An event registers an IO, removes it and goes on living. -/
def removal : List (Action Unit) :=
  [.call (.iface (.insertExact () ⟨3, true⟩)), .tick,
    .call (.scope (.ioRegisterAny ⟨3, true⟩ none)), .call (.scope (.ioRemove (.ofIdx 0) none)),
    .finish () (.ok true), .settle true (.ok ()), .tick, .call (.iface .runOne)]

/-- The gather after the removal releases the slot once more. -/
theorem removal_breaks_ownership :
    ¬(after 0 removal).loop.IoOwnership ∧
      (after 0 removal).step (.gather ⟨0, .ok [], 0, []⟩) = .error (.panic (.ios .vacant)) :=
  ⟨fun o => o.released 0 (by decide) (by decide), by with_unfolding_all rfl⟩

end Config

end Eveboros
