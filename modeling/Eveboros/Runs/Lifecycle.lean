import Eveboros.Runs.Discipline

/-!
# The life of an event

What one event sees of a run, whatever the loop and the other events do in the meantime: it is
stored, `init` is called on it, then other callbacks one after another, each on the value that the
last one left, until one of them does not answer `Ok(true)` and the event is killed.  The loop
refines this abstract life of every event.
-/

namespace Eveboros

variable {Ev : Type}

inductive Life (Ev : Type)
  /-- Not in the loop. -/
  | absent
  /-- In the loop, before `init`. -/
  | stored (event : Ev)
  /-- Between callbacks. -/
  | resting (event : Ev)
  | inside
  /-- After the last callback. -/
  | leaving (event : Ev)

def Obs.subject : Obs Ev → Option Handle
  | .stored handle _ => some handle
  | .killed handle => some handle
  | .called handle _ _ => some handle
  | .refused handle _ _ => some handle
  | .finished handle _ _ => some handle
  | .dispatched task => some task.recipient
  | .dropped task => some task.recipient
  | .answered caller _ _ => caller
  | .returned _ _ => none

namespace Life

/-- What the event of `handle` goes through at an observation. -/
inductive Next (handle : Handle) : Obs Ev → Life Ev → Life Ev → Prop
  | stored (event : Ev) : Next handle (.stored handle event) .absent (.stored event)
  | born (event : Ev) : Next handle (.called handle .init event) (.stored event) .inside
  | called (cb : Callback) (event : Ev) (hcb : cb ≠ .init) :
      Next handle (.called handle cb event) (.resting event) .inside
  | kept (event : Ev) : Next handle (.finished handle event (.ok true)) .inside (.resting event)
  | left (event : Ev) (resp : Response) (hresp : resp ≠ .ok true) :
      Next handle (.finished handle event resp) .inside (.leaving event)
  | killed (event : Ev) : Next handle (.killed handle) (.leaving event) .absent
  | missed (cb : Callback) : Next handle (.refused handle cb .missing) .absent .absent
  | busy (cb : Callback) : Next handle (.refused handle cb .busy) .inside .inside
  | dropped (task : Task) (hsubject : task.recipient = handle) :
      Next handle (.dropped task) .absent .absent
  | dispatched (task : Task) (event : Ev) (hsubject : task.recipient = handle) :
      Next handle (.dispatched task) (.resting event) (.resting event)
  | reentered (task : Task) (hsubject : task.recipient = handle) :
      Next handle (.dispatched task) .inside .inside
  /-- Only a running callback can call operations in the name of its event. -/
  | answered (op : Op Ev) (answer : Answer) :
      Next handle (.answered (some handle) op answer) .inside .inside
  | elsewhere (o : Obs Ev) (life : Life Ev) (hsubject : o.subject ≠ some handle) :
      Next handle o life life

/-- The life that the event of `handle` has had according to a history, newest first. -/
inductive Along (handle : Handle) : List (Obs Ev) → Life Ev → Prop
  | nil : Along handle [] .absent
  | cons {o : Obs Ev} {log : List (Obs Ev)} {life life' : Life Ev} :
      Along handle log life → Next handle o life life' → Along handle (o :: log) life'

end Life

/-! ## Cells of live events -/

/-- The cell, if the holder is the one of this generation. -/
def EvHolder.cellFor (holder : EvHolder Ev) (generation : Nat) : Option (StolenCell Ev) :=
  if holder.generation = generation then some holder.event else none

namespace Loop

variable {l l' : Loop Ev}

def cellOf (l : Loop Ev) (h : Handle) : Option (StolenCell Ev) :=
  (l.events.get? h.id).bind fun holder => holder.cellFor h.generation

theorem cellOf_of_get? {h : Handle} {holder : EvHolder Ev}
    (hget : l.events.get? h.id = some holder) (hgen : holder.generation = h.generation) :
    l.cellOf h = some holder.event := by
  simp [cellOf, hget, EvHolder.cellFor, hgen]

theorem cellOf_eq_none {h : Handle} : l.cellOf h = none ↔ l.eventAlive h = false := by
  unfold cellOf eventAlive
  cases l.events.get? h.id with
  | none => simp
  | some holder => simp [EvHolder.cellFor]

theorem stolen_iff_cellOf {h : Handle} : l.Stolen h ↔ ∃ event, l.cellOf h = some ⟨event, true⟩ := by
  unfold Stolen tag cellOf
  cases l.events.get? h.id with
  | none => simp
  | some holder =>
      rcases holder with ⟨⟨event, stolen⟩, generation, timeouts, ios, expected, children⟩
      by_cases hgen : generation = h.generation <;> simp [EvHolder.tag, EvHolder.cellFor, hgen]

theorem cellOf_congr {h : Handle} (hget : l'.events.get? h.id = l.events.get? h.id) :
    l'.cellOf h = l.cellOf h := by
  rw [cellOf, cellOf, hget]

/-- Updating a holder without touching its cell. -/
theorem cellOf_of_sets {idx : Nat} {old new : EvHolder Ev} {events : Recycler (EvHolder Ev)}
    (hset : l.events.Sets idx (some new) events) (hget : l.events.get? idx = some old)
    (hcell : ∀ generation, new.cellFor generation = old.cellFor generation)
    (hevents : l'.events = events) (h : Handle) : l'.cellOf h = l.cellOf h := by
  rw [cellOf, cellOf, hevents, hset.get?]
  split
  · rename_i hid
    simp [hid, hget, hcell]
  · rfl

/-- What happens to the cell of one event is nothing to another one, in the same slot or not. -/
theorem cellOf_other {h handle : Handle} {content : Option (EvHolder Ev)}
    (hget : ∀ idx, l'.events.get? idx =
      if idx = handle.id then content else l.events.get? idx)
    (hold : ∀ old, l.events.get? handle.id = some old → old.generation = handle.generation)
    (hnew : ∀ new, content = some new → new.generation = handle.generation) (hne : h ≠ handle) :
    l'.cellOf h = l.cellOf h := by
  by_cases hid : h.id = handle.id
  · have none_of (l : Loop Ev)
        (hall : ∀ old, l.events.get? handle.id = some old → old.generation = handle.generation) :
        l.cellOf h = none := by
      rw [cellOf_eq_none]
      apply Bool.eq_false_iff.mpr
      intro halive
      obtain ⟨holder, hat, hgen⟩ := eventAlive_iff.mp halive
      rw [hid] at hat
      exact hne ((Handle.eq_iff_generation hid).mpr (hgen.symm.trans (hall holder hat)))
    rw [none_of l hold, none_of l' fun new hat => hnew new (by rw [← hat, hget, if_pos rfl])]
  · exact cellOf_congr (by rw [hget, if_neg hid])

end Loop

namespace Config

variable {c c' : Config Ev} {a : Action Ev} {h : Handle} {life : Life Ev}

/-- What the loop holds for an event at this point of its life. -/
def Held (c : Config Ev) (h : Handle) : Life Ev → Prop
  | .absent => c.loop.cellOf h = none
  | .inside => h ∈ c.running
  | .stored event => c.loop.cellOf h = some ⟨event, false⟩
  | .resting event => c.loop.cellOf h = some ⟨event, false⟩
  | .leaving event => c.loop.cellOf h = some ⟨event, false⟩

def Dying (c : Config Ev) (h : Handle) : Prop := ∃ resp, resp ≠ .ok true ∧ c.ctl = .settle h resp

/-- The configuration is where the life of the event has come to. -/
structure Standing (c : Config Ev) (h : Handle) (life : Life Ev) : Prop where
  born : c.ctl = .call h .init ↔ ∃ event, life = .stored event
  dying : c.Dying h ↔ ∃ event, life = .leaving event
  held : c.Held h life

/-- The event has had a life that leads to where the configuration is. -/
def Lived (c : Config Ev) (h : Handle) : Prop := ∃ life, Life.Along h c.log life ∧ c.Standing h life

/-! ## What the configuration says about a life -/

theorem Held.of_dead (d : Discipline c) (hheld : c.Held h life) (hdead : c.loop.cellOf h = none) :
    life = .absent := by
  cases life with
  | absent => rfl
  | inside =>
      obtain ⟨event, hcell⟩ := Loop.stolen_iff_cellOf.mp ((d.mem_running h).mp hheld)
      cases hdead.symm.trans hcell
  | _ => cases hdead.symm.trans hheld

theorem Held.of_running (d : Discipline c) (hheld : c.Held h life) (hmem : h ∈ c.running) :
    life = .inside := by
  obtain ⟨event, hcell⟩ := Loop.stolen_iff_cellOf.mp ((d.mem_running h).mp hmem)
  cases life with
  | inside => rfl
  | _ => cases hcell.symm.trans hheld

theorem Held.of_free (d : Discipline c) (hheld : c.Held h life) {event : Ev}
    (hcell : c.loop.cellOf h = some ⟨event, false⟩) :
    life = .stored event ∨ life = .resting event ∨ life = .leaving event := by
  cases life with
  | absent => cases hcell.symm.trans hheld
  | inside =>
      obtain ⟨other, hstolen⟩ := Loop.stolen_iff_cellOf.mp ((d.mem_running h).mp hheld)
      cases hcell.symm.trans hstolen
  | stored other =>
      cases hcell.symm.trans hheld
      exact .inl rfl
  | resting other =>
      cases hcell.symm.trans hheld
      exact .inr (.inl rfl)
  | leaving other =>
      cases hcell.symm.trans hheld
      exact .inr (.inr rfl)

/-! ## Elementary changes -/

/-- Where the control is, the event is neither about to be born nor about to die. -/
def Spares (ctl : Ctl) (h : Handle) : Prop :=
  ctl ≠ .call h .init ∧ ∀ resp, resp ≠ .ok true → ctl ≠ .settle h resp

theorem spares_user : Spares .user h := by simp [Spares]

theorem spares_runOne : Spares .runOne h := by simp [Spares]

theorem spares_ret {result : Except Error Unit} : Spares (.ret result) h := by simp [Spares]

theorem spares_call {handle : Handle} {cb : Callback} (hother : h = handle → cb ≠ .init) :
    Spares (.call handle cb) h := by
  refine ⟨fun heq => ?_, fun _ _ heq => by cases heq⟩
  cases heq
  exact hother rfl rfl

theorem spares_settle {handle : Handle} {resp : Response} (hother : h = handle → resp = .ok true) :
    Spares (.settle handle resp) h := by
  refine ⟨fun heq => ?_, fun resp' hresp heq => ?_⟩
  · cases heq
  · cases heq
    exact hresp (hother rfl)

theorem Standing.spared (s : c.Standing h life) (hctl : Spares c.ctl h) :
    (∀ event, life ≠ .stored event) ∧ ∀ event, life ≠ .leaving event := by
  refine ⟨fun event heq => hctl.1 (s.born.mpr ⟨event, heq⟩), fun event heq => ?_⟩
  obtain ⟨resp, hresp, hsettle⟩ := s.dying.mpr ⟨event, heq⟩
  exact hctl.2 resp hresp hsettle

/-- A point of life at which nothing is about to happen. -/
theorem standing_of_spares (hctl : Spares c.ctl h) (hborn : ∀ event, life ≠ .stored event)
    (hdying : ∀ event, life ≠ .leaving event) (hheld : c.Held h life) : c.Standing h life where
  born := iff_of_false hctl.1 (not_exists.mpr hborn)
  dying := by
    refine iff_of_false ?_ (not_exists.mpr hdying)
    rintro ⟨resp, hresp, heq⟩
    exact hctl.2 resp hresp heq
  held := hheld

theorem Held.congr (hheld : c.Held h life) (hcell : c'.loop.cellOf h = c.loop.cellOf h)
    (hrunning : h ∈ c'.running ↔ h ∈ c.running) : c'.Held h life := by
  cases life with
  | inside => exact hrunning.mpr hheld
  | _ => exact hcell.trans hheld

/-- Nothing happens to the event. -/
theorem Standing.congr (s : c.Standing h life)
    (hctl : c'.ctl = c.ctl ∨ Spares c.ctl h ∧ Spares c'.ctl h)
    (hcell : c'.loop.cellOf h = c.loop.cellOf h) (hrunning : h ∈ c'.running ↔ h ∈ c.running) :
    c'.Standing h life := by
  have hheld := s.held.congr hcell hrunning
  rcases hctl with hctl | ⟨hbefore, hafter⟩
  · exact ⟨hctl ▸ s.born, by rw [Dying, hctl]; exact s.dying, hheld⟩
  · obtain ⟨hborn, hdying⟩ := s.spared hbefore
    exact standing_of_spares hafter hborn hdying hheld

theorem Lived.congr (lived : c.Lived h) (hlog : c'.log = c.log)
    (hctl : c'.ctl = c.ctl ∨ Spares c.ctl h ∧ Spares c'.ctl h)
    (hcell : c'.loop.cellOf h = c.loop.cellOf h) (hrunning : h ∈ c'.running ↔ h ∈ c.running) :
    c'.Lived h := by
  obtain ⟨life, halong, s⟩ := lived
  exact ⟨life, hlog ▸ halong, s.congr hctl hcell hrunning⟩

/-- Something is noted that leaves the event where it is. -/
theorem Lived.note (lived : c.Lived h) {o : Obs Ev} (hlog : c'.log = o :: c.log)
    (hnext : ∀ life, c.Standing h life → Life.Next h o life life)
    (hctl : c'.ctl = c.ctl ∨ Spares c.ctl h ∧ Spares c'.ctl h)
    (hcell : c'.loop.cellOf h = c.loop.cellOf h) (hrunning : h ∈ c'.running ↔ h ∈ c.running) :
    c'.Lived h := by
  obtain ⟨life, halong, s⟩ := lived
  exact ⟨life, hlog ▸ halong.cons (hnext life s), s.congr hctl hcell hrunning⟩

theorem mem_running_of_caller (hcaller : c.caller = some h) : h ∈ c.running := by
  unfold caller at hcaller
  split at hcaller
  · rename_i hstack
    cases hcaller
    simp [running, hstack, Frame.callee]
  · cases hcaller

theorem Lived.answer (d : Discipline c) (lived : c.Lived h) {op : Op Ev} {answer : Answer}
    (hlog : c'.log = .answered c.caller op answer :: c.log) (hctl : c'.ctl = c.ctl)
    (hcell : c'.loop.cellOf h = c.loop.cellOf h) (hrunning : h ∈ c'.running ↔ h ∈ c.running) :
    c'.Lived h := by
  refine lived.note hlog (fun life s => ?_) (.inl hctl) hcell hrunning
  by_cases hcaller : c.caller = some h
  · rw [hcaller, s.held.of_running d (mem_running_of_caller hcaller)]
    exact .answered op answer
  · exact .elsewhere _ _ hcaller

theorem callback_ne_init (param : TaskParam) : param.callback ≠ .init := by
  cases param <;> simp [TaskParam.callback]

/-- A task of the event is taken off the queue. -/
theorem Lived.dispatch (lived : c.Lived h) {task : Task}
    (hlog : c'.log = .dispatched task :: c.log) (hctl : c.ctl = .runOne)
    (halive : c.loop.eventAlive task.recipient = true)
    (hctl' : Spares c'.ctl h) (hcell : c'.loop.cellOf h = c.loop.cellOf h)
    (hrunning : h ∈ c'.running ↔ h ∈ c.running) : c'.Lived h := by
  have hspares : Spares c.ctl h := by rw [hctl]; exact spares_runOne
  refine lived.note hlog (fun life s => ?_) (.inr ⟨hspares, hctl'⟩) hcell hrunning
  by_cases hsubject : task.recipient = h
  · obtain ⟨hborn, hdying⟩ := s.spared hspares
    cases life with
    | absent =>
        have hdead := Loop.cellOf_eq_none.mp s.held
        rw [← hsubject, halive] at hdead
        cases hdead
    | stored event => exact absurd rfl (hborn event)
    | leaving event => exact absurd rfl (hdying event)
    | resting event => exact .dispatched task event hsubject
    | inside => exact .reentered task hsubject
  · exact .elsewhere _ _ fun heq => hsubject (Option.some.inj heq)

theorem Lived.other (lived : c.Lived h) {o : Obs Ev} (hlog : c'.log = o :: c.log)
    (hsubject : o.subject ≠ some h) (hbefore : Spares c.ctl h) (hafter : Spares c'.ctl h)
    (hcell : c'.loop.cellOf h = c.loop.cellOf h) (hrunning : h ∈ c'.running ↔ h ∈ c.running) :
    c'.Lived h :=
  lived.note hlog (fun life _ => .elsewhere o life hsubject) (.inr ⟨hbefore, hafter⟩) hcell hrunning

theorem lived_stored (d : Discipline c) (lived : c.Lived h) (handle : Handle) {event : Ev}
    {growth : Growth} {events : Recycler (EvHolder Ev)} (hctl : c.ctl = .user)
    (hstore : c.loop.events.Stores (.new event handle.generation) growth handle.id events)
    (hevents : c'.loop.events = events) (hctl' : c'.ctl = .call handle .init)
    (hrunning : c'.running = c.running) (hlog : c'.log = .stored handle event :: c.log) :
    c'.Lived h := by
  have hspares : Spares c.ctl h := by rw [hctl]; exact spares_user
  by_cases heq : h = handle
  · subst heq
    obtain ⟨life, halong, s⟩ := lived
    have hvacant : c.loop.cellOf h = none := by simp [Loop.cellOf, hstore.vacant]
    obtain rfl := s.held.of_dead d hvacant
    refine ⟨.stored event, hlog ▸ halong.cons (.stored event), ⟨?_, ?_, ?_⟩⟩
    · exact iff_of_true hctl' ⟨event, rfl⟩
    · rw [Dying, hctl']
      simp
    · have hget : c'.loop.events.get? h.id = some (.new event h.generation) := by
        rw [hevents, hstore.get?, if_pos rfl]
      exact Loop.cellOf_of_get? hget rfl
  · refine lived.other hlog (fun hsubject => heq (Option.some.inj hsubject).symm) hspares ?_ ?_ ?_
    · rw [hctl']
      exact spares_call fun hh => absurd hh heq
    · have hget (idx : Nat) : c'.loop.events.get? idx = if idx = handle.id then
          some (.new event handle.generation) else c.loop.events.get? idx := by
        rw [hevents, hstore.get?]
      refine Loop.cellOf_other hget (fun old hold => ?_) (fun new hnew => ?_) heq
      · rw [hstore.vacant] at hold
        cases hold
      · cases hnew
        rfl
    · rw [hrunning]

theorem lived_entered (lived : c.Lived h) {handle : Handle} {cb : Callback}
    {holder : EvHolder Ev} {events : Recycler (EvHolder Ev)} (d : Discipline c)
    (hctl : c.ctl = .call handle cb) (hget : c.loop.events.get? handle.id = some holder)
    (hgen : holder.generation = handle.generation) (hfree : holder.event.stolen = false)
    (hset : c.loop.events.Sets handle.id
      (some { holder with event := { holder.event with stolen := true } }) events)
    (hevents : c'.loop.events = events) (hctl' : c'.ctl = .user)
    (hrunning : c'.running = handle :: c.running)
    (hlog : c'.log = .called handle cb holder.event.data :: c.log) : c'.Lived h := by
  have hspares : Spares c'.ctl h := by rw [hctl']; exact spares_user
  by_cases heq : h = handle
  · subst heq
    obtain ⟨life, halong, s⟩ := lived
    have hcell : c.loop.cellOf h = some ⟨holder.event.data, false⟩ := by
      rw [Loop.cellOf_of_get? hget hgen, ← hfree]
    have hmem : h ∈ c'.running := by simp [hrunning]
    have hinside : c'.Standing h .inside := standing_of_spares hspares (by simp) (by simp) hmem
    rcases s.held.of_free d hcell with rfl | rfl | rfl
    · have hinit := s.born.mpr ⟨_, rfl⟩
      rw [hctl] at hinit
      cases hinit
      exact ⟨.inside, hlog ▸ halong.cons (.born _), hinside⟩
    · have hcb : cb ≠ .init := by
        rintro rfl
        obtain ⟨event, hstored⟩ := s.born.mp hctl
        cases hstored
      exact ⟨.inside, hlog ▸ halong.cons (.called cb _ hcb), hinside⟩
    · obtain ⟨resp, _, hsettle⟩ := s.dying.mpr ⟨_, rfl⟩
      cases hctl.symm.trans hsettle
  · refine lived.other hlog (fun hsubject => heq (Option.some.inj hsubject).symm) ?_ hspares ?_ ?_
    · rw [hctl]
      exact spares_call fun hh => absurd hh heq
    · refine Loop.cellOf_other (fun idx => by rw [hevents, hset.get?]) (fun old hold => ?_)
        (fun new hnew => ?_) heq
      · cases hget.symm.trans hold
        exact hgen
      · cases hnew
        exact hgen
    · simp [hrunning, heq]

/-- `init` is never refused, other callbacks for the reason that is given. -/
theorem lived_turnedAway (d : Discipline c) (lived : c.Lived h) {handle : Handle} {cb : Callback}
    {err : Error} (hctl : c.ctl = .call handle cb)
    (hwhy : (err = .missing ∧ c.loop.eventAlive handle = false) ∨
      (err = .busy ∧ ∃ holder, c.loop.events.get? handle.id = some holder ∧
        holder.generation = handle.generation ∧ holder.event.stolen = true))
    (hloop : c'.loop = c.loop) (hctl' : c'.ctl = .ret (.error err))
    (hrunning : c'.running = c.running) (hlog : c'.log = .refused handle cb err :: c.log) :
    c'.Lived h := by
  have hspares : Spares c'.ctl h := by rw [hctl']; exact spares_ret
  have hsame : h ∈ c'.running ↔ h ∈ c.running := by rw [hrunning]
  by_cases heq : h = handle
  · subst heq
    obtain ⟨life, halong, s⟩ := lived
    rcases hwhy with ⟨rfl, hdead⟩ | ⟨rfl, holder, hget, hgen, hstolen⟩
    · have hcell := Loop.cellOf_eq_none.mpr hdead
      obtain rfl := s.held.of_dead d hcell
      rw [← hloop] at hcell
      exact ⟨.absent, hlog ▸ halong.cons (.missed cb),
        standing_of_spares hspares (by simp) (by simp) hcell⟩
    · have hmem : h ∈ c.running :=
        (d.mem_running h).mpr (by rw [Loop.Stolen, Loop.tag_of_get? hget, hgen, hstolen])
      obtain rfl := s.held.of_running d hmem
      exact ⟨.inside, hlog ▸ halong.cons (.busy cb),
        standing_of_spares hspares (by simp) (by simp) (hsame.mpr hmem)⟩
  · refine lived.other hlog (fun hsubject => heq (Option.some.inj hsubject).symm) ?_ hspares
      (hloop ▸ rfl) hsame
    rw [hctl]
    exact spares_call fun hh => absurd hh heq

theorem lived_finished (d : Discipline c) (lived : c.Lived h) {handle : Handle} {event : Ev}
    {resp : Response} {holder : EvHolder Ev} {events : Recycler (EvHolder Ev)}
    (hctl : c.ctl = .user) (hget : c.loop.events.get? handle.id = some holder)
    (hset : c.loop.events.Sets handle.id (some { holder with event := ⟨event, false⟩ }) events)
    (hevents : c'.loop.events = events) (hctl' : c'.ctl = .settle handle resp)
    (hrunning : c.running = handle :: c'.running)
    (hlog : c'.log = .finished handle event resp :: c.log) : c'.Lived h := by
  have hmem : handle ∈ c.running := by simp [hrunning]
  have hgen : holder.generation = handle.generation := by
    have hstolen : c.loop.Stolen handle := (d.mem_running handle).mp hmem
    simpa [Loop.Stolen, Loop.tag_of_get? hget] using congrArg (Option.map Prod.fst) hstolen
  by_cases heq : h = handle
  · subst heq
    obtain ⟨life, halong, s⟩ := lived
    obtain rfl := s.held.of_running d hmem
    have hcell : c'.loop.cellOf h = some ⟨event, false⟩ := by
      have hget' : c'.loop.events.get? h.id = some { holder with event := ⟨event, false⟩ } := by
        rw [hevents, hset.get?, if_pos rfl]
      exact Loop.cellOf_of_get? hget' hgen
    by_cases hresp : resp = .ok true
    · have hspares : Spares c'.ctl h := by rw [hctl']; exact spares_settle fun _ => hresp
      exact ⟨.resting event, hlog ▸ halong.cons (hresp ▸ .kept event),
        standing_of_spares hspares (by simp) (by simp) hcell⟩
    · refine ⟨.leaving event, hlog ▸ halong.cons (.left event resp hresp), ?_, ?_, hcell⟩
      · simp [hctl']
      · exact iff_of_true ⟨resp, hresp, hctl'⟩ ⟨event, rfl⟩
  · refine lived.other hlog (fun hsubject => heq (Option.some.inj hsubject).symm)
      (by rw [hctl]; exact spares_user) ?_ ?_ ?_
    · rw [hctl']
      exact spares_settle fun hh => absurd hh heq
    · refine Loop.cellOf_other (fun idx => by rw [hevents, hset.get?]) (fun old hold => ?_)
        (fun new hnew => ?_) heq
      · cases hget.symm.trans hold
        exact hgen
      · cases hnew
        exact hgen
    · simp [hrunning, heq]

theorem lived_killed (d : Discipline c) (lived : c.Lived h) {handle : Handle} {resp : Response}
    {result : Except Error Unit} {holder : EvHolder Ev} {events : Recycler (EvHolder Ev)}
    (hctl : c.ctl = .settle handle resp) (hresp : resp ≠ .ok true)
    (hget : c.loop.events.get? handle.id = some holder)
    (hset : c.loop.events.Sets handle.id none events) (hevents : c'.loop.events = events)
    (hctl' : c'.ctl = .ret result) (hrunning : c'.running = c.running)
    (hlog : c'.log = .killed handle :: c.log) : c'.Lived h := by
  have hspares : Spares c'.ctl h := by rw [hctl']; exact spares_ret
  by_cases heq : h = handle
  · subst heq
    obtain ⟨life, halong, s⟩ := lived
    obtain ⟨event, rfl⟩ := s.dying.mp ⟨resp, hresp, hctl⟩
    have hcell : c'.loop.cellOf h = none := by
      simp [Loop.cellOf, hevents, hset.get?]
    exact ⟨.absent, hlog ▸ halong.cons (.killed event),
      standing_of_spares hspares (by simp) (by simp) hcell⟩
  · refine lived.other hlog (fun hsubject => heq (Option.some.inj hsubject).symm) ?_ hspares ?_ ?_
    · rw [hctl]
      exact spares_settle fun hh => absurd hh heq
    · refine Loop.cellOf_other (fun idx => by rw [hevents, hset.get?]) (fun old hold => ?_)
        (fun new hnew => ?_) heq
      · cases hget.symm.trans hold
        exact d.settling_gen hctl hget
      · cases hnew
    · rw [hrunning]

/-- Every elementary change is something that every event may live through. -/
theorem lived_edit (d : Discipline c) (lived : ∀ h, c.Lived h) (e : Edit a c c') (h : Handle) :
    c'.Lived h := by
  have kept {idx : Nat} {old new : EvHolder Ev} {events : Recycler (EvHolder Ev)} {l' : Loop Ev}
      (hset : c.loop.events.Sets idx (some new) events) (hget : c.loop.events.get? idx = some old)
      (hcell : ∀ generation, new.cellFor generation = old.cellFor generation)
      (hevents : l'.events = events) : l'.cellOf h = c.loop.cellOf h :=
    Loop.cellOf_of_sets hset hget hcell hevents h
  cases e with
  /- What is noted about the event itself. -/
  | stored event growth idx events ha hctl hstore =>
      exact lived_stored d (lived h) ⟨idx, c.loop.generation⟩ hctl hstore rfl rfl rfl rfl
  | entered handle cb holder events ha hctl hget hgen hfree hset =>
      exact lived_entered (lived h) d hctl hget hgen hfree hset rfl rfl rfl rfl
  | turnedAway handle cb err ha hctl hwhy =>
      exact lived_turnedAway d (lived h) hctl hwhy rfl rfl rfl rfl
  | finished handle cb data rest event resp holder events ha hctl hstack hget haddr hset =>
      exact lived_finished d (lived h) hctl hget hset rfl rfl
        (by simp [running, hstack, Frame.callee]) rfl
  | killed handle resp result holder events deregisters handler ha hctl hresp hget hfree hset =>
      have hne : resp ≠ .ok true := by
        rcases hresp with ⟨rfl, _⟩ | ⟨err, rfl, _⟩ <;> simp
      exact lived_killed d (lived h) hctl hne hget hset rfl rfl rfl rfl
  | dropped task rest ha hctl hsched hdead =>
      refine (lived h).note rfl (fun life s => ?_) (.inl rfl) rfl .rfl
      by_cases hsubject : task.recipient = h
      · subst hsubject
        obtain rfl := s.held.of_dead d (Loop.cellOf_eq_none.mpr hdead)
        exact .dropped task rfl
      · exact .elsewhere _ _ fun heq => hsubject (Option.some.inj heq)
  | passed task rest holder ha hctl hsched hget hgen hkind hio =>
      exact (lived h).dispatch rfl hctl (Loop.eventAlive_iff.mpr ⟨holder, hget, hgen⟩)
        (spares_call fun _ => callback_ne_init _) rfl .rfl
  | lost task rest id ready source holder ha hctl hsched hparam hget hgen hgone =>
      exact (lived h).dispatch rfl hctl (Loop.eventAlive_iff.mpr ⟨holder, hget, hgen⟩)
        spares_ret rfl .rfl
  | fired task rest id left holder events ha hctl hsched hparam hget hgen hleft hset =>
      exact (lived h).dispatch rfl hctl (Loop.eventAlive_iff.mpr ⟨holder, hget, hgen⟩)
        (spares_call fun _ => by simp) (kept hset hget (fun _ => rfl) rfl) .rfl
  /- Operations that answer at once. -/
  | timer _ _ _ _ _ _ _ _ _ hget hset
  | expected _ _ _ _ _ _ _ hget hset
  | ioRegistered _ _ _ _ _ _ _ _ _ hget _ hset
  | ioRemoved _ _ _ _ _ _ _ _ _ _ hget _ hset
  | tracked _ _ _ _ _ _ _ hget _ hset =>
      exact (lived h).answer d rfl rfl (kept hset hget (fun _ => rfl) rfl) .rfl
  | refusal | query | lent | stopped | sent | signalled | idled | ioRefused | submitted | poolSet
  | enabled => exact (lived h).answer d rfl rfl rfl .rfl
  /- The control moves on. -/
  | beganRunOne ha hctl | beganUntilComplete _ _ ha hctl =>
      exact (lived h).congr rfl (.inr ⟨hctl ▸ spares_user, spares_runOne⟩) rfl .rfl
  | beganRun frame ha hctl =>
      refine (lived h).congr rfl (.inr ⟨hctl ▸ spares_user, spares_runOne⟩) rfl ?_
      rcases ha with ⟨_, rfl⟩ | ⟨_, rfl⟩ <;> exact .rfl
  | posted _ _ _ _ ha hctl =>
      exact (lived h).congr rfl
        (.inr ⟨hctl ▸ spares_user, spares_call fun _ => by simp⟩) rfl .rfl
  | kept handle ha hctl =>
      exact (lived h).congr rfl (.inr ⟨hctl ▸ spares_settle fun _ => rfl, spares_ret⟩) rfl .rfl
  | again ha hctl =>
      exact (lived h).congr rfl (.inr ⟨hctl ▸ spares_ret, spares_runOne⟩) rfl .rfl
  | gaveBack frame rest result ans ha hctl hstack hframe =>
      refine (lived h).other rfl (by simp [Obs.subject]) (hctl ▸ spares_ret) spares_user rfl ?_
      simp [running, giveBack, hstack, hframe]
  | gatherFailed err ha hctl =>
      exact (lived h).congr rfl (.inr ⟨hctl ▸ spares_runOne, spares_ret⟩) rfl .rfl
  /- The environment, and the parts of a gather. -/
  | reaped _ _ _ _ _ _ _ _ hget _ hset =>
      exact (lived h).congr rfl (.inl rfl) (kept hset hget (fun _ => rfl) rfl) .rfl
  | _ => exact (lived h).congr rfl (.inl rfl) rfl .rfl

theorem lived_init (now : Nat) (h : Handle) : (init now : Config Ev).Lived h := by
  refine ⟨.absent, .nil, standing_of_spares spares_user (by simp) (by simp) ?_⟩
  simp [Held, Loop.cellOf, init, Loop.new, Recycler.get?_new]

theorem Visited.lived {P : Config Ev → Action Ev → Prop} (v : Visited P c) (h : Handle) :
    c.Lived h := by
  induction v generalizing h with
  | start now => exact lived_init now h
  | edit v _ he ih => exact lived_edit v.discipline ih he h

/-- At every moment of every run, each handle has had a life of the abstract kind, and the loop
holds the event that this life has come to. -/
theorem event_lifecycle (c : Config Ev) (handle : Handle) (hc : Reachable c) :
    ∃ life, Life.Along handle c.log life ∧ c.Standing handle life :=
  hc.visited.lived handle

/-- An event whose `init` inserts another one; that one posts to the first, which is busy. -/
def postsBack : List (Action Nat) :=
  [.call (.iface (.insertExact 7 ⟨3, true⟩)), .tick,
    .call (.scope (.expectMessage (.atom 1))),
    .call (.iface (.insertExact 8 ⟨3, true⟩)), .tick,
    .call (.iface (.postImpl ⟨0, 0⟩ (.atom 1 5) (.atom 1))), .tick, .tick,
    .finish 9 (.ok false), .settle true (.ok ()), .tick, .finish 10 (.ok true),
    .settle true (.ok ()), .tick]

theorem event_lifecycle_postsBack : (after 0 postsBack).loop.eventAlive ⟨0, 0⟩ = true ∧
    ∃ life, Life.Along ⟨0, 0⟩ (after 0 postsBack).log life ∧
      (after 0 postsBack).Standing ⟨0, 0⟩ life :=
  ⟨by decide, event_lifecycle _ _ (reachable_after 0 postsBack)⟩

end Config

end Eveboros
