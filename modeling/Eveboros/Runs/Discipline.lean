import Eveboros.Machine.Visited

/-!
# Callback stack discipline

The live events whose cell is stolen are exactly the events with a callback frame on the stack,
each once.  It follows that an event inside a callback stays where it is, that the assertions about
stolen cells hold, and that every operation returns with the stolen events it was entered with.
-/

namespace Eveboros

variable {Ev : Type}

/-- What the discipline sees of a slot: the generation, and whether the cell is stolen. -/
def EvHolder.tag (holder : EvHolder Ev) : Nat × Bool := (holder.generation, holder.event.stolen)

def Loop.tag (l : Loop Ev) (idx : Nat) : Option (Nat × Bool) := (l.events.get? idx).map EvHolder.tag

/-- The event is alive and its cell is stolen. -/
def Loop.Stolen (l : Loop Ev) (h : Handle) : Prop := l.tag h.id = some (h.generation, true)

namespace Loop

variable {l l' : Loop Ev}

theorem tag_of_get? {idx : Nat} {holder : EvHolder Ev} (h : l.events.get? idx = some holder) :
    l.tag idx = some (holder.generation, holder.event.stolen) := by
  simp [tag, h, EvHolder.tag]

theorem get?_of_tag {idx gen : Nat} {stolen : Bool} (h : l.tag idx = some (gen, stolen)) :
    ∃ holder, l.events.get? idx = some holder ∧ holder.generation = gen ∧
      holder.event.stolen = stolen := by
  obtain ⟨holder, hget, htag⟩ := Option.map_eq_some_iff.mp h
  obtain ⟨rfl, rfl⟩ := Prod.mk.inj htag
  exact ⟨holder, hget, rfl, rfl⟩

theorem eventAlive_of_tag {h : Handle} {stolen : Bool}
    (htag : l.tag h.id = some (h.generation, stolen)) :
    l.eventAlive h = true := by
  obtain ⟨holder, hget, hgen, _⟩ := get?_of_tag htag
  exact eventAlive_iff.mpr ⟨holder, hget, hgen⟩

/-- Two live handles of one slot are equal. -/
theorem eq_of_alive {h h' : Handle} (ha : l.eventAlive h = true) (ha' : l.eventAlive h' = true)
    (hid : h.id = h'.id) : h = h' := by
  obtain ⟨holder, hget, hgen⟩ := eventAlive_iff.mp ha
  obtain ⟨holder', hget', hgen'⟩ := eventAlive_iff.mp ha'
  rw [hid, hget'] at hget
  cases hget
  exact (Handle.eq_iff_generation hid).mpr (hgen.symm.trans hgen')

/-- Updating a holder without touching its tag. -/
theorem tag_of_sets {idx : Nat} {old new : EvHolder Ev} {events : Recycler (EvHolder Ev)}
    (hset : l.events.Sets idx (some new) events) (hget : l.events.get? idx = some old)
    (htag : new.tag = old.tag) (hevents : l'.events = events) (i : Nat) : l'.tag i = l.tag i := by
  rw [tag, tag, hevents]
  exact hset.map_eq hget htag i

end Loop

namespace Config

variable {c c' : Config Ev} {a : Action Ev}

structure Discipline (c : Config Ev) : Prop where
  nodup : c.running.Nodup
  mem_running (h : Handle) : h ∈ c.running ↔ c.loop.Stolen h
  /-- The event that has just returned is back in its place. -/
  settling (h : Handle) (resp : Response) :
    c.ctl = .settle h resp → c.loop.tag h.id = some (h.generation, false)

/-- A change that touches neither tags nor callback frames. -/
theorem Discipline.congr (d : Discipline c) (hrunning : c'.running = c.running)
    (htag : ∀ idx, c'.loop.tag idx = c.loop.tag idx)
    (hctl : ∀ h resp, c'.ctl = .settle h resp → c.ctl = .settle h resp) : Discipline c' where
  nodup := hrunning ▸ d.nodup
  mem_running h := by rw [hrunning, d.mem_running h, Loop.Stolen, Loop.Stolen, htag]
  settling h resp hc := by rw [htag]; exact d.settling h resp (hctl h resp hc)

theorem Discipline.sets (d : Discipline c) {idx : Nat} {old new : EvHolder Ev}
    {events : Recycler (EvHolder Ev)} (hset : c.loop.events.Sets idx (some new) events)
    (hget : c.loop.events.get? idx = some old) (htag : new.tag = old.tag)
    (hevents : c'.loop.events = events) (hrunning : c'.running = c.running)
    (hctl : ∀ h resp, c'.ctl = .settle h resp → c.ctl = .settle h resp) : Discipline c' :=
  d.congr hrunning (Loop.tag_of_sets hset hget htag hevents) hctl

theorem discipline_init (now : Nat) : Discipline (init now : Config Ev) where
  nodup := List.nodup_nil
  mem_running h := by simp [running, init, Loop.new, Loop.Stolen, Loop.tag, Recycler.get?_new]
  settling h resp hc := by cases hc

theorem discipline_stored (d : Discipline c) {event : Ev} {gen idx : Nat} {growth : Growth}
    {events : Recycler (EvHolder Ev)}
    (hstore : c.loop.events.Stores (.new event gen) growth idx events)
    (hevents : c'.loop.events = events) (hrunning : c'.running = c.running)
    (hctl : ∀ h resp, c'.ctl ≠ .settle h resp) : Discipline c' where
  nodup := hrunning ▸ d.nodup
  mem_running h := by
    rw [hrunning, d.mem_running h]
    by_cases heq : h.id = idx
    · simp [Loop.Stolen, Loop.tag, hevents, hstore.get?, heq, hstore.vacant, EvHolder.tag,
        EvHolder.new, StolenCell.new]
    · simp [Loop.Stolen, Loop.tag, hevents, hstore.get?, heq]
  settling h resp hc := absurd hc (hctl h resp)

theorem discipline_entered (d : Discipline c) {handle : Handle} {holder : EvHolder Ev}
    {events : Recycler (EvHolder Ev)} (hget : c.loop.events.get? handle.id = some holder)
    (hgen : holder.generation = handle.generation) (hfree : holder.event.stolen = false)
    (hset : c.loop.events.Sets handle.id
      (some { holder with event := { holder.event with stolen := true } }) events)
    (hevents : c'.loop.events = events) (hrunning : c'.running = handle :: c.running)
    (hctl : ∀ h resp, c'.ctl ≠ .settle h resp) : Discipline c' where
  nodup := by
    rw [hrunning]
    refine List.nodup_cons.mpr ⟨fun hmem => ?_, d.nodup⟩
    have hstolen := (d.mem_running handle).mp hmem
    simp [Loop.Stolen, Loop.tag_of_get? hget, hfree] at hstolen
  mem_running h := by
    rw [hrunning, List.mem_cons, d.mem_running h]
    by_cases heq : h.id = handle.id
    · have hdead : ¬c.loop.Stolen h := by
        simp [Loop.Stolen, heq, Loop.tag_of_get? hget, hfree]
      have hnew : c'.loop.Stolen h ↔ holder.generation = h.generation := by
        simp [Loop.Stolen, Loop.tag, hevents, hset.get?, heq, EvHolder.tag]
      rw [or_iff_left hdead, hnew, hgen, Handle.eq_iff_generation heq, eq_comm]
    · have hne : h ≠ handle := fun hh => heq (hh ▸ rfl)
      simp [Loop.Stolen, Loop.tag, hevents, hset.get?, heq, hne]
  settling h resp hc := absurd hc (hctl h resp)

theorem discipline_finished (d : Discipline c) {handle : Handle} {holder : EvHolder Ev}
    {event : Ev} {events : Recycler (EvHolder Ev)} {resp : Response}
    (hget : c.loop.events.get? handle.id = some holder)
    (hset : c.loop.events.Sets handle.id (some { holder with event := ⟨event, false⟩ }) events)
    (hevents : c'.loop.events = events) (hrunning : c.running = handle :: c'.running)
    (hctl : c'.ctl = .settle handle resp) : Discipline c' := by
  have hnodup := d.nodup
  rw [hrunning] at hnodup
  obtain ⟨hnot, hrest⟩ := List.nodup_cons.mp hnodup
  have hstolen : c.loop.Stolen handle := (d.mem_running handle).mp (by simp [hrunning])
  have hgen : holder.generation = handle.generation := by
    simpa [Loop.Stolen, Loop.tag_of_get? hget] using congrArg (Option.map Prod.fst) hstolen
  refine ⟨hrest, fun h => ?_, fun h r hc => ?_⟩
  · by_cases heq : h.id = handle.id
    · have hnew : ¬c'.loop.Stolen h := by
        simp [Loop.Stolen, Loop.tag, hevents, hset.get?, heq, EvHolder.tag]
      refine iff_of_false (fun hmem => ?_) hnew
      have hs : c.loop.Stolen h := (d.mem_running h).mp (by simp [hrunning, hmem])
      simp only [Loop.Stolen, heq, Loop.tag_of_get? hget, Option.some.injEq, Prod.mk.injEq] at hs
      have hhandle : h = handle := (Handle.eq_iff_generation heq).mpr (hs.1.symm.trans hgen)
      exact hnot (hhandle ▸ hmem)
    · have hne : h ≠ handle := fun hh => heq (hh ▸ rfl)
      have hold := d.mem_running h
      rw [hrunning, List.mem_cons] at hold
      simpa [Loop.Stolen, Loop.tag, hevents, hset.get?, heq, hne] using hold
  · rw [hctl] at hc
    cases hc
    simp [Loop.tag, hevents, hset.get?, EvHolder.tag, hgen]

theorem discipline_killed (d : Discipline c) {handle : Handle} {resp : Response}
    {events : Recycler (EvHolder Ev)} (hctl : c.ctl = .settle handle resp)
    (hset : c.loop.events.Sets handle.id none events) (hevents : c'.loop.events = events)
    (hrunning : c'.running = c.running) (hctl' : ∀ h resp, c'.ctl ≠ .settle h resp) :
    Discipline c' where
  nodup := hrunning ▸ d.nodup
  mem_running h := by
    rw [hrunning, d.mem_running h]
    by_cases heq : h.id = handle.id
    · have hnew : c'.loop.tag handle.id = none := by simp [Loop.tag, hevents, hset.get?]
      simp [Loop.Stolen, hnew, heq, d.settling handle resp hctl]
    · simp [Loop.Stolen, Loop.tag, hevents, hset.get?, heq]
  settling h resp hc := absurd hc (hctl' h resp)

/-- The discipline survives every elementary change. -/
theorem Discipline.edit (d : Discipline c) (e : Edit a c c') : Discipline c' := by
  cases e with
  | stored event growth idx events ha hctl hstore =>
      exact discipline_stored d hstore rfl rfl nofun
  | entered handle cb holder events ha hctl hget hgen hfree hset =>
      exact discipline_entered d hget hgen hfree hset rfl rfl nofun
  | finished handle cb data rest event resp holder events ha hctl hstack hget haddr hset =>
      exact discipline_finished d hget hset rfl (by simp [running, hstack, Frame.callee]) rfl
  | killed handle resp result holder events deregisters handler ha hctl hresp hget hfree hset =>
      exact discipline_killed d hctl hset rfl rfl nofun
  | gaveBack frame rest result ans ha hctl hstack hframe =>
      exact d.congr (by simp [giveBack, running, hstack, hframe]) (fun _ => rfl) nofun
  | beganRun frame ha hctl =>
      refine d.congr ?_ (fun _ => rfl) nofun
      rcases ha with ⟨_, rfl⟩ | ⟨_, rfl⟩ <;> rfl
  | timer _ _ _ _ _ _ _ _ _ hget hset
  | expected _ _ _ _ _ _ _ hget hset
  | ioRegistered _ _ _ _ _ _ _ _ _ hget _ hset
  | ioRemoved _ _ _ _ _ _ _ _ _ _ hget _ hset
  | tracked _ _ _ _ _ _ _ hget _ hset
  | reaped _ _ _ _ _ _ _ _ hget _ hset =>
      exact d.sets hset hget rfl rfl rfl fun _ _ h => h
  | fired _ _ _ _ _ _ _ _ _ _ hget _ _ hset =>
      exact d.sets hset hget rfl rfl rfl nofun
  | beganRunOne | beganUntilComplete | posted | turnedAway | kept | passed | lost | again
  | gatherFailed =>
      exact d.congr rfl (fun _ => rfl) nofun
  | _ => exact d.congr rfl (fun _ => rfl) fun _ _ h => h

theorem Visited.discipline {P : Config Ev → Action Ev → Prop} (h : Visited P c) : Discipline c := by
  induction h with
  | start now => exact discipline_init now
  | edit _ _ he ih => exact ih.edit he

/-- The event whose callback runs is alive. -/
theorem Discipline.caller_alive (d : Discipline c) {handle : Handle}
    (h : c.caller = some handle) : c.loop.eventAlive handle = true := by
  have hmem : handle ∈ c.running := by
    unfold caller at h
    split at h
    · rename_i hstack
      cases h
      simp [running, hstack, Frame.callee]
    · cases h
  exact Loop.eventAlive_of_tag ((d.mem_running handle).mp hmem)

theorem Discipline.caller_gen (d : Discipline c) {handle : Handle} {holder : EvHolder Ev}
    (h : c.caller = some handle) (hget : c.loop.events.get? handle.id = some holder) :
    holder.generation = handle.generation := by
  obtain ⟨holder', hget', hgen⟩ := Loop.eventAlive_iff.mp (d.caller_alive h)
  rw [hget] at hget'
  cases hget'
  exact hgen

theorem Discipline.settling_gen (d : Discipline c) {handle : Handle} {resp : Response}
    {holder : EvHolder Ev} (h : c.ctl = .settle handle resp)
    (hget : c.loop.events.get? handle.id = some holder) :
    holder.generation = handle.generation := by
  simpa [Loop.tag_of_get? hget] using congrArg (Option.map Prod.fst) (d.settling handle resp h)

/-- An event dies only in `event_call`, after its callback has returned. -/
theorem Edit.eventAlive (d : Discipline c) (e : Edit a c c') {h : Handle}
    (halive : c.loop.eventAlive h = true) (hctl : ∀ resp, c.ctl ≠ .settle h resp) :
    c'.loop.eventAlive h = true := by
  have set {l' : Loop Ev} {idx : Nat} {old new : EvHolder Ev} {events : Recycler (EvHolder Ev)}
      (hset : c.loop.events.Sets idx (some new) events) (hget : c.loop.events.get? idx = some old)
      (hgen : new.generation = old.generation) (hevents : l'.events = events) :
      l'.eventAlive h = true := by
    rw [Loop.eventAlive_of_sets hset hget hgen hevents, halive]
  cases e with
  | stored event growth idx events ha hctl hstore =>
      have hne : h.id ≠ idx := by
        intro heq
        subst heq
        simp [Loop.eventAlive, hstore.vacant] at halive
      rw [← halive]
      exact Loop.eventAlive_congr (by simp [hstore.get?, hne])
  | killed handle resp result holder events deregisters handler ha hctl' hresp hget hfree hset =>
      have hne : h.id ≠ handle.id := by
        intro hid
        have hsettling := Loop.eventAlive_of_tag (d.settling handle resp hctl')
        exact hctl resp (Loop.eq_of_alive halive hsettling hid ▸ hctl')
      rw [← halive]
      exact Loop.eventAlive_congr (by simp [hset.get?, hne])
  | timer _ _ _ _ _ _ _ _ _ hget hset
  | expected _ _ _ _ _ _ _ hget hset
  | ioRegistered _ _ _ _ _ _ _ _ _ hget _ hset
  | ioRemoved _ _ _ _ _ _ _ _ _ _ hget _ hset
  | tracked _ _ _ _ _ _ _ hget _ hset
  | entered _ _ _ _ _ _ hget _ _ hset
  | finished _ _ _ _ _ _ _ _ _ _ _ hget _ hset
  | fired _ _ _ _ _ _ _ _ _ _ hget _ _ hset
  | reaped _ _ _ _ _ _ _ _ hget _ hset =>
      exact set hset hget rfl rfl
  | _ => exact halive

end Config

end Eveboros
