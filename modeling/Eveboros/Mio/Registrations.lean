import Eveboros.Mio

/-!
# mio and the IOs of the events

As long as no id is handed out twice and every IO stays in its box, mio watches exactly the IOs of
the live events, so that deregistering the IOs of a dying event never fails.
-/

namespace Eveboros.Mio

open Config Loop TransitionSystem

variable {Ev : Type} {m : Mio} {s s' s'' : m.State} {calls calls' : List MioCall}

/-! ## Calls one after another -/

theorem serves_append (h : m.Serves s (calls ++ calls') s'') :
    ∃ s', m.Serves s calls s' ∧ m.Serves s' calls' s'' := by
  induction calls generalizing s with
  | nil => exact ⟨s, .nil s, h⟩
  | cons call rest ih =>
      cases h with
      | cons hcall h =>
          obtain ⟨s', hrest, h⟩ := ih h
          exact ⟨s', .cons hcall hrest, h⟩

theorem serves_none (h : m.Serves s [] s') : s' = s := by
  cases h
  rfl

theorem serves_one {call : MioCall} (h : m.Serves s [call] s') : m.Answers s call s' := by
  cases h with
  | cons hcall h =>
      cases h
      exact hcall

theorem Lawful.forgotten (hm : m.Lawful) {order : List Nat}
    (h : m.Serves s (order.map (.deregister · none)) s') (object : Nat) :
    m.watched s' object = if object ∈ order then none else m.watched s object := by
  induction order generalizing s with
  | nil =>
      obtain rfl := serves_none h
      simp
  | cons first rest ih =>
      cases h with
      | cons hcall h =>
          rw [ih h, hm.deregister hcall]
          by_cases heq : object = first <;> simp [heq]

/-- What is watched can be forgotten one after another. -/
theorem Lawful.forgets (hm : m.Lawful) {order : List Nat} (hnodup : order.Nodup)
    (hwatched : ∀ object ∈ order, m.watched s object ≠ none) :
    ∃ s', m.Serves s (order.map (.deregister · none)) s' := by
  induction order generalizing s with
  | nil => exact ⟨s, .nil s⟩
  | cons first rest ih =>
      obtain ⟨hnot, hrest⟩ := List.nodup_cons.mp hnodup
      obtain ⟨s₁, hcall⟩ := hm.can_let_go (hwatched first List.mem_cons_self)
      obtain ⟨s', h⟩ := ih (s := s₁) hrest fun object hmem => by
        have hne : object ≠ first := fun heq => hnot (heq ▸ hmem)
        rw [hm.deregister hcall, Function.update_of_ne hne]
        exact hwatched object (List.mem_cons_of_mem _ hmem)
      exact ⟨s', .cons hcall h⟩

/-- Forgetting what is watched does not fail. -/
theorem Lawful.not_stuck (hm : m.Lawful) {objects : List Nat} (hnodup : objects.Nodup)
    (hwatched : ∀ object ∈ objects, m.watched s object ≠ none)
    (hforgets : Forgets objects calls false) : ¬m.Serves s calls s' := by
  intro h
  obtain ⟨before, after, object, err, hperm, rfl⟩ := hforgets
  obtain ⟨s₁, hbefore, h⟩ := serves_append h
  have hnot : object ∉ before := by
    have hall := hperm.nodup_iff.mpr hnodup
    rw [List.nodup_append] at hall
    exact fun hmem => hall.2.2 object hmem object List.mem_cons_self rfl
  have hgone := hm.lets_go (serves_one h)
  rw [hm.forgotten hbefore, if_neg hnot] at hgone
  exact hwatched object (hperm.subset (by simp)) hgone

/-! ## mio watches what is registered -/

/-- Exactly the IOs of the live events are watched, each under the token of its id, and all of them
are still in the boxes they came in. -/
structure Mirrors (w : Nat → Option Nat) (c : Config Ev) : Prop where
  watched (object token : Nat) : w object = some token ↔ ∃ h idx io,
    c.loop.registration h idx = some io ∧ io.io = object ∧ token = (IoId.ofIdx idx).token
  fresh (object : Nat) : w object ≠ none → object < c.objects
  boxed : c.boxes = id

variable {w w' : Nat → Option Nat} {c c' : Config Ev} {a : Action Ev}

theorem Mirrors.of_registration (k : Mirrors w c) {h : Handle} {idx : Nat} {io : IoHolder}
    (hr : c.loop.registration h idx = some io) : w io.io = some (IoId.ofIdx idx).token :=
  (k.watched _ _).mpr ⟨h, idx, io, hr, rfl, rfl⟩

/-- An object is registered once. -/
theorem Mirrors.unique (k : Mirrors w c) (o : c.loop.IoClaims) {h h' : Handle} {idx idx' : Nat}
    {io io' : IoHolder} (hr : c.loop.registration h idx = some io)
    (hr' : c.loop.registration h' idx' = some io') (heq : io.io = io'.io) :
    h = h' ∧ idx = idx' := by
  have htoken := (k.of_registration hr).symm.trans (heq ▸ k.of_registration hr')
  have hidx : idx = idx' := by simpa [IoId.ofIdx] using htoken
  subst hidx
  exact ⟨o.owner_unique hr hr', rfl⟩

theorem Mirrors.congr (k : Mirrors w c)
    (hreg : ∀ h idx, c'.loop.registration h idx = c.loop.registration h idx)
    (hobjects : c.objects ≤ c'.objects) (hboxes : c'.boxes = c.boxes) : Mirrors w c' where
  watched object token := by simp only [hreg, k.watched]
  fresh object hne := (k.fresh object hne).trans_le hobjects
  boxed := hboxes.trans k.boxed

theorem mirrors_registered (k : Mirrors w c) {handle : Handle} {idx : Nat} {io : IoHolder}
    (hio : io.io = c.objects) (hvacant : ∀ h, c.loop.registration h idx = none)
    (hreg : ∀ h i, c'.loop.registration h i =
      if h = handle ∧ i = idx then some io else c.loop.registration h i)
    (hobjects : c'.objects = c.objects + 1) (hboxes : c'.boxes = c.boxes) :
    Mirrors (Function.update w c.objects (some (IoId.ofIdx idx).token)) c' := by
  have hunknown : w c.objects = none :=
    not_not.mp fun hne => Nat.lt_irrefl _ (k.fresh _ hne)
  refine ⟨fun object token => ?_, fun object hne => ?_, hboxes.trans k.boxed⟩
  · by_cases hobject : object = c.objects
    · rw [hobject, Function.update_self, Option.some.injEq]
      constructor
      · rintro rfl
        exact ⟨handle, idx, io, by simp [hreg], hio, rfl⟩
      · rintro ⟨h, i, io', hr, hsame, rfl⟩
        rw [hreg] at hr
        split at hr
        · rename_i hnew
          rw [hnew.2]
        · have hold := k.of_registration hr
          rw [hsame, hunknown] at hold
          cases hold
    · rw [Function.update_of_ne hobject, k.watched]
      refine exists_congr fun h => exists_congr fun i => exists_congr fun io' => ?_
      rw [hreg]
      by_cases hnew : h = handle ∧ i = idx
      · rw [if_pos hnew, hnew.2, hvacant h]
        refine iff_of_false (fun hold => by cases hold.1) fun hsame => hobject ?_
        rw [← hsame.2.1, ← hio, Option.some.inj hsame.1]
      · rw [if_neg hnew]
  · by_cases hobject : object = c.objects
    · omega
    · rw [Function.update_of_ne hobject] at hne
      have := k.fresh object hne
      omega

/-- Some registrations end, and mio stops watching their objects. -/
theorem mirrors_ended (k : Mirrors w c) (gone : Handle → Nat → Prop)
    (hafter : ∀ h i io, c'.loop.registration h i = some io ↔
      ¬gone h i ∧ c.loop.registration h i = some io)
    (hwatch : ∀ object, w' object = none ∨ w' object = w object)
    (hended : ∀ h i io, c.loop.registration h i = some io → (w' io.io = none ↔ gone h i))
    (hobjects : c'.objects = c.objects) (hboxes : c'.boxes = c.boxes) : Mirrors w' c' := by
  refine ⟨fun object token => ?_, fun object hne => ?_, hboxes.trans k.boxed⟩
  · simp only [hafter]
    constructor
    · intro hw
      have hold : w object = some token := by
        rcases hwatch object with hnone | hsame
        · cases hnone.symm.trans hw
        · exact hsame.symm.trans hw
      obtain ⟨h, i, io, hr, rfl, rfl⟩ := (k.watched object token).mp hold
      refine ⟨h, i, io, ⟨fun hgone => ?_, hr⟩, rfl, rfl⟩
      cases ((hended h i io hr).mpr hgone).symm.trans hw
    · rintro ⟨h, i, io, ⟨hstays, hr⟩, rfl, rfl⟩
      rcases hwatch io.io with hnone | hsame
      · exact absurd ((hended h i io hr).mp hnone) hstays
      · rw [hsame, k.of_registration hr]
  · rw [hobjects]
    rcases hwatch object with hnone | hsame
    · exact absurd hnone hne
    · exact k.fresh object (hsame ▸ hne)

/-- An IO is removed. -/
theorem mirrors_removed (k : Mirrors w c) (o : c.loop.IoClaims) {handle : Handle} {idx : Nat}
    {io : IoHolder} (hheld : c.loop.registration handle idx = some io)
    (hreg : ∀ h i, c'.loop.registration h i =
      if h = handle ∧ i = idx then none else c.loop.registration h i)
    (hobjects : c'.objects = c.objects) (hboxes : c'.boxes = c.boxes) :
    Mirrors (Function.update w io.io none) c' := by
  refine mirrors_ended k (fun h i => h = handle ∧ i = idx) (fun h i io' => ?_) (fun object => ?_)
    (fun h i io' hr => ?_) hobjects hboxes
  · rw [hreg]
    by_cases hgone : h = handle ∧ i = idx <;> simp [hgone]
  · by_cases hobject : object = io.io
    · exact .inl (by simp [hobject])
    · exact .inr (Function.update_of_ne hobject _ _)
  · constructor
    · intro hnone
      by_cases hobject : io'.io = io.io
      · exact k.unique o hr hheld hobject
      · rw [Function.update_of_ne hobject, k.of_registration hr] at hnone
        cases hnone
    · rintro ⟨rfl, rfl⟩
      rw [hheld] at hr
      cases hr
      exact Function.update_self _ _ _

/-! ## Dying events -/

theorem Mirrors.mem_objectsOf (k : Mirrors w c) {handle : Handle} {holder : EvHolder Ev}
    (hget : c.loop.events.get? handle.id = some holder)
    (hgen : holder.generation = handle.generation) (object : Nat) :
    object ∈ objectsOf c handle.id ↔
      ∃ idx io, c.loop.registration handle idx = some io ∧ io.io = object := by
  have hlookup (idx : Nat) (io : IoHolder) :
      c.loop.registration handle idx = some io ↔ (⟨idx, io⟩ : Sigma _) ∈ holder.ios.entries := by
    rw [registration_of_get? idx hget hgen]
    exact AList.mem_lookup_iff
  simp only [objectsOf, hget, k.boxed, List.mem_map]
  constructor
  · rintro ⟨⟨idx, io⟩, hmem, rfl⟩
    exact ⟨idx, io, (hlookup idx io).mpr hmem, rfl⟩
  · rintro ⟨idx, io, hr, rfl⟩
    exact ⟨⟨idx, io⟩, (hlookup idx io).mp hr, rfl⟩

/-- Each IO of a live event is watched, and on its own. -/
theorem Mirrors.objectsOf_watched (k : Mirrors w c) (o : c.loop.IoClaims) {handle : Handle}
    {holder : EvHolder Ev} (hget : c.loop.events.get? handle.id = some holder)
    (hgen : holder.generation = handle.generation) :
    (objectsOf c handle.id).Nodup ∧ ∀ object ∈ objectsOf c handle.id, w object ≠ none := by
  constructor
  · simp only [objectsOf, hget, k.boxed]
    refine List.Nodup.map_on ?_ holder.ios.nodupKeys.nodup
    rintro ⟨i, io⟩ hmem ⟨i', io'⟩ hmem' heq
    have hr : c.loop.registration handle i = some io :=
      (registration_of_get? i hget hgen).trans (AList.mem_lookup_iff.mpr hmem)
    have hr' : c.loop.registration handle i' = some io' :=
      (registration_of_get? i' hget hgen).trans (AList.mem_lookup_iff.mpr hmem')
    obtain ⟨_, rfl⟩ := k.unique o hr hr' heq
    cases hr.symm.trans hr'
    rfl
  · intro object hmem
    obtain ⟨idx, io, hr, rfl⟩ := (k.mem_objectsOf hget hgen object).mp hmem
    rw [k.of_registration hr]
    exact Option.some_ne_none _

theorem mirrors_killed (k : Mirrors w c) (o : c.loop.IoClaims) {handle : Handle}
    {holder : EvHolder Ev} (hget : c.loop.events.get? handle.id = some holder)
    (hgen : holder.generation = handle.generation)
    (hreg : ∀ h i, c'.loop.registration h i =
      if h = handle then none else c.loop.registration h i)
    (hobjects : c'.objects = c.objects) (hboxes : c'.boxes = c.boxes) :
    Mirrors (fun object => if object ∈ objectsOf c handle.id then none else w object) c' := by
  refine mirrors_ended k (fun h _ => h = handle) (fun h i io => ?_) (fun object => ?_)
    (fun h i io hr => ?_) hobjects hboxes
  · rw [hreg]
    by_cases hgone : h = handle <;> simp [hgone]
  · split
    · exact .inl rfl
    · exact .inr rfl
  · constructor
    · intro hnone
      split at hnone
      · rename_i hmem
        obtain ⟨idx, io', hr', heq⟩ := (k.mem_objectsOf hget hgen _).mp hmem
        exact (k.unique o hr hr' heq.symm).1
      · rw [k.of_registration hr] at hnone
        cases hnone
    · rintro rfl
      exact if_pos ((k.mem_objectsOf hget hgen _).mpr ⟨i, io, hr, rfl⟩)

/-! ## What the laws say about an action -/

/-- What the laws leave mio to watch after the action. -/
def watchedAfter (w : Nat → Option Nat) (c : Config Ev) : Action Ev → Nat → Option Nat
  | .call (.scope (.ioRegisterAny _ none)) =>
      Function.update w c.objects (some (IoId.ofIdx c.loop.ios.next).token)
  | .call (.scope (.ioRemove id _)) =>
      match callerIo c id with
      | some io => Function.update w io.io none
      | none => w
  | .settle _ _ =>
      match c.ctl with
      | .settle handle (.ok false) | .settle handle (.error _) =>
          fun object => if object ∈ objectsOf c handle.id then none else w object
      | _ => w
  | _ => w

def Dying (c : Config Ev) (handle : Handle) : Prop :=
  ∃ resp, c.ctl = .settle handle resp ∧ resp ≠ .ok true

theorem Dying.asks {handle : Handle} {deregisters : Bool} {handler : Except Error Unit}
    (h : Dying c handle) (hasks : Asks c calls (.settle deregisters handler)) :
    Forgets (objectsOf c handle.id) calls deregisters := by
  obtain ⟨resp, hctl, hresp⟩ := h
  rcases resp with err | _ | _
  · simpa only [Asks, hctl] using hasks
  · simpa only [Asks, hctl] using hasks
  · exact absurd rfl hresp

/-- mio deregisters the IOs of a dying event without an error. -/
theorem Lawful.deregisters (hm : m.Lawful) (d : Discipline c) (o : c.loop.IoClaims)
    (k : Mirrors (m.watched s) c) {handle : Handle} {deregisters : Bool}
    {handler : Except Error Unit} (hdying : Dying c handle)
    (hasks : Asks c calls (.settle deregisters handler)) (hserves : m.Serves s calls s') :
    deregisters = true := by
  have hforgets := hdying.asks hasks
  obtain ⟨resp, hctl, _⟩ := hdying
  obtain ⟨holder, hget, hgen, _⟩ := Loop.get?_of_tag (d.settling handle resp hctl)
  obtain ⟨hnodup, hwatched⟩ := k.objectsOf_watched o hget hgen
  cases deregisters with
  | true => rfl
  | false => exact absurd hserves (hm.not_stuck hnodup hwatched hforgets)

theorem Lawful.settled (hm : m.Lawful) (d : Discipline c) (o : c.loop.IoClaims)
    (k : Mirrors (m.watched s) c) {handle : Handle} {deregisters : Bool}
    {handler : Except Error Unit} (hdying : Dying c handle)
    (hasks : Asks c calls (.settle deregisters handler)) (hserves : m.Serves s calls s') :
    m.watched s' =
      fun object => if object ∈ objectsOf c handle.id then none else m.watched s object := by
  obtain rfl := hm.deregisters d o k hdying hasks hserves
  obtain ⟨order, hperm, rfl⟩ := hdying.asks hasks
  funext object
  rw [hm.forgotten hserves]
  simp only [hperm.mem_iff]

theorem callerIo_token {id : IoId} {io : IoHolder} (k : Mirrors w c)
    (hio : callerIo c id = some io) : w io.io = some id.token := by
  obtain ⟨handle, _, hheld⟩ := Option.bind_eq_some_iff.mp hio
  rw [k.of_registration hheld, IoId.ofIdx_idx]

/-- What mio watches after the calls of an action. -/
theorem Lawful.watchedAfter_eq (hm : m.Lawful) (d : Discipline c) (o : c.loop.IoClaims)
    (k : Mirrors (m.watched s) c) (hasks : Asks c calls a) (hserves : m.Serves s calls s') :
    m.watched s' = Mio.watchedAfter (m.watched s) c a := by
  have quiet (hcalls : calls = []) : m.watched s' = m.watched s := by
    subst hcalls
    rw [serves_none hserves]
  cases a with
  | call op =>
      rcases op with op | op | op
      · exact quiet hasks
      · cases op with
        | ioRegisterAny growth outcome =>
            have hcall := serves_one (hasks ▸ hserves)
            cases outcome with
            | none => exact hm.register hcall
            | some err => exact hm.failed hcall rfl
        | ioUpdate id outcome =>
            cases hio : callerIo c id with
            | none => exact quiet (by simpa [Asks, hio] using hasks)
            | some io =>
                have hcall : m.Answers s (.reregister io.io id.token outcome) s' := by
                  simp only [Asks, hio, k.boxed, id_eq, Option.toList_some, List.map_cons,
                    List.map_nil] at hasks
                  exact serves_one (hasks ▸ hserves)
                cases outcome with
                | none =>
                    rw [hm.reregister hcall, ← callerIo_token k hio, Function.update_eq_self]
                    rfl
                | some err => exact hm.failed hcall rfl
        | ioRemove id outcome =>
            cases hio : callerIo c id with
            | none =>
                simp only [Mio.watchedAfter, hio]
                exact quiet (by simpa [Asks, hio] using hasks)
            | some io =>
                have hcall : m.Answers s (.deregister io.io outcome) s' := by
                  simp only [Asks, hio, k.boxed, id_eq, Option.toList_some, List.map_cons,
                    List.map_nil] at hasks
                  exact serves_one (hasks ▸ hserves)
                simp only [Mio.watchedAfter, hio]
                cases outcome with
                | none => exact hm.deregister hcall
                | some err =>
                    rw [hm.failed hcall rfl, ← hm.lets_go hcall, Function.update_eq_self]
        | _ => exact quiet hasks
      · exact quiet hasks
  | settle deregisters handler =>
      cases hctl : c.ctl with
      | settle handle resp =>
          rcases resp with err | _ | _
          · simp only [Mio.watchedAfter, hctl]
            exact hm.settled d o k ⟨_, hctl, by simp⟩ hasks hserves
          · simp only [Mio.watchedAfter, hctl]
            exact hm.settled d o k ⟨_, hctl, by simp⟩ hasks hserves
          · simp only [Mio.watchedAfter, hctl]
            exact quiet (by simpa only [Asks, hctl] using hasks)
      | _ =>
          simp only [Mio.watchedAfter, hctl]
          exact quiet (by simpa only [Asks, hctl] using hasks)
  | gather env =>
      simp only [Asks] at hasks
      split at hasks
      · have hcall := serves_one (hasks ▸ hserves)
        cases hpoll : env.poll with
        | error err => exact hm.failed (hpoll ▸ hcall) rfl
        | ok polled => exact hm.poll (hpoll ▸ hcall)
      · exact quiet hasks
  | _ => exact quiet hasks

/-! ## Steps -/

/-- A callback leaves something else in the box of an IO. -/
def ReplacesIo (a : Action Ev) : Prop :=
  ∃ id object, a = .call (.scope (.ioMut id (some object)))

theorem removal_loop {handle : Handle} {id : IoId} {outcome : Option IoErrorKind}
    (hcaller : c.caller = some handle)
    (h : c.step (.call (.scope (.ioRemove id outcome))) = .ok c') :
    ∃ removed, c.loop.ioRemove handle id outcome = .ok (removed, c'.loop) := by
  simp only [Config.step] at h
  split at h
  · simp only [callOp, hcaller] at h
    obtain ⟨⟨removed, l⟩, hrem, h⟩ := Except.bind_eq_ok.mp (Except.mapError_eq_ok.mp h)
    cases h
    exact ⟨removed, hrem⟩
  · cases h

/-- An operation that is refused is none that mio takes part in. -/
theorem watchedAfter_refused (o : c.loop.IoClaims) {op : Op Ev} {err : Error} (hr : op.CanRefuse)
    (h : c.step (.call op) = .ok (c.answer c.loop op (.error err))) :
    watchedAfter w c (.call op) = w := by
  rcases op with op | op | op
  · rfl
  · cases op with
    | ioRemove id outcome =>
        simp only [watchedAfter]
        split
        · rename_i io hio
          obtain ⟨handle, hcaller, hheld⟩ := Option.bind_eq_some_iff.mp hio
          obtain ⟨removed, hrem⟩ := removal_loop hcaller h
          exact absurd (ioRemove_ok hheld hrem).2 (o.registered handle _ io hheld).2
        · rfl
    | ioRegisterAny => exact hr.elim
    | _ => rfl
  · rfl

theorem watchedAfter_query {op : Op Ev} (hq : op.IsQuery) : watchedAfter w c (.call op) = w := by
  rcases op with op | op | op
  · rfl
  · cases op <;> first | rfl | exact hq.elim
  · rfl

theorem watchedAfter_deadline {op : ScopeOp} {now when : Nat} (hop : op.deadline now = some when) :
    watchedAfter w c (.call (.scope op)) = w := by
  cases op <;> first | rfl | cases hop

theorem watchedAfter_gather (ha : a.IsGather) : watchedAfter w c a = w := by
  obtain ⟨env, rfl⟩ := ha.env
  rfl

/-- mio and the loop stay in step. -/
theorem mirrors_edit (d : Discipline c) (o : c.loop.IoClaims) (k : Mirrors w c)
    (hfresh : ¬ReusesId c a) (hstays : ¬ReplacesIo a) (h : c.step a = .ok c') (e : Edit a c c') :
    Mirrors (watchedAfter w c a) c' := by
  have same (hw : watchedAfter w c a = w) (hreg : c'.loop.registration = c.loop.registration)
      (hobjects : c.objects ≤ c'.objects) (hboxes : c'.boxes = c.boxes) :
      Mirrors (watchedAfter w c a) c' := by
    rw [hw]
    exact k.congr (fun _ _ => by rw [hreg]) hobjects hboxes
  have kept {idx : Nat} {old new : EvHolder Ev} {events : Recycler (EvHolder Ev)} {l' : Loop Ev}
      (hset : c.loop.events.Sets idx (some new) events) (hget : c.loop.events.get? idx = some old)
      (hgen : new.generation = old.generation) (hios : new.ios = old.ios)
      (hevents : l'.events = events) : l'.registration = c.loop.registration :=
    funext fun h => funext fun i => registration_of_sets hset hget hgen hios hevents h i
  cases e with
  | ioRegistered growth handle holder idx ios events ha hctl hcaller hget hstore hset =>
      subst ha
      obtain rfl := Recycler.store_next hstore
      exact mirrors_registered k rfl o.next_unregistered
        (registered_edit d hcaller hget hset rfl) rfl rfl
  | ioRemoved id outcome handle holder ios events ans ha hctl hcaller hget hmem hset hios =>
      subst ha
      obtain ⟨io, hheld⟩ := (mem_ios_iff hget (d.caller_gen hcaller hget) _).mp hmem
      have hio : callerIo c id = some io := by simp [callerIo, hcaller, hheld]
      simp only [watchedAfter, hio]
      exact mirrors_removed k o hheld (removed_edit d hcaller hget hset rfl) rfl rfl
  | lent id left handle holder io ha =>
      subst ha
      cases left with
      | none => exact same rfl rfl le_rfl rfl
      | some object => exact absurd ⟨id, object, rfl⟩ hstays
  | killed handle resp result holder events deregisters handler ha hctl hresp hget hfree hset =>
      subst ha
      have hgen := d.settling_gen hctl hget
      have hw : watchedAfter w c (.settle deregisters handler) =
          fun object => if object ∈ objectsOf c handle.id then none else w object := by
        rcases hresp with ⟨rfl, _⟩ | ⟨err, rfl, _⟩ <;> simp only [watchedAfter, hctl]
      rw [hw]
      exact mirrors_killed k o hget hgen (killed_edit hget hgen hset rfl) rfl rfl
  | kept handle ha hctl =>
      refine same ?_ rfl le_rfl rfl
      cases a with
      | settle => simp only [watchedAfter, hctl]
      | _ => exact ha.elim
  | refusal op err ha hctl hr =>
      subst ha
      exact same (watchedAfter_refused o hr h) rfl le_rfl rfl
  | query op v ha hctl hq =>
      subst ha
      exact same (watchedAfter_query hq) rfl le_rfl rfl
  | timer op handle when holder events ha hctl hcaller hop hget hset =>
      subst ha
      exact same (watchedAfter_deadline hop) (kept hset hget rfl rfl rfl) le_rfl rfl
  | ioRefused growth err handle ios ha hctl hcaller hios =>
      subst ha
      exact same rfl rfl (Nat.le_succ _) rfl
  | stored event growth idx events ha hctl hstore =>
      subst ha
      refine same rfl (funext fun h => funext fun i => ?_) le_rfl rfl
      exact registration_of_stored hstore rfl h i
  | expected _ _ _ _ ha _ _ hget hset
  | tracked _ _ _ _ ha _ _ hget _ hset
  | entered _ _ _ _ ha _ hget _ _ hset
  | finished _ _ _ _ _ _ _ _ ha _ _ hget _ hset
  | fired _ _ _ _ _ _ ha _ _ _ hget _ _ hset =>
      subst ha
      exact same rfl (kept hset hget rfl rfl rfl) le_rfl rfl
  | beganRun frame ha hctl =>
      rcases ha with ⟨rfl, _⟩ | ⟨rfl, _⟩ <;> exact same rfl rfl le_rfl rfl
  | reaped _ _ _ _ _ ha _ _ hget _ hset =>
      exact same (watchedAfter_gather ha) (kept hset hget rfl rfl rfl) le_rfl rfl
  | woke _ ha | ready _ _ _ _ _ ha =>
      subst ha
      exact same rfl rfl le_rfl rfl
  | drained _ ha | pruned ha | received _ _ ha | ignored _ _ ha | wakeupTaken ha | flagCleared _ ha
  | broadcast _ ha | cleaned _ _ ha | rebuilt _ _ ha | timed ha | idleTaken _ _ ha
  | gatherFailed _ ha => exact same (watchedAfter_gather ha) rfl le_rfl rfl
  | _ =>
      subst_vars
      exact same rfl rfl le_rfl rfl

theorem mirrors_step (hv : Visited Anything c) (o : c.loop.IoClaims) (k : Mirrors w c)
    (hfresh : ¬ReusesId c a) (hstays : ¬ReplacesIo a) (h : c.step a = .ok c') :
    Mirrors (watchedAfter w c a) c' := by
  rcases step_cases h with ⟨env, rfl⟩ | e
  · refine k.congr (fun h' idx => ?_) ?_ ?_
    · exact gather_frame (fun c => c.loop.registration h' idx)
        (fun _ _ e => e.registration_of_gather h' idx) h
    · refine (gather_frame Config.objects (fun _ _ e => ?_) h).ge
      cases e <;> first | rfl | simp_all
    · refine gather_frame Config.boxes (fun _ _ e => ?_) h
      cases e <;> first | rfl | simp_all
  · exact mirrors_edit hv.discipline o k hfresh hstays h e

/-- What mio reports is the readiness of a registered object under its own token. -/
theorem mioSane_of_reports (hm : m.Lawful) (k : Mirrors (m.watched s) c) {env : GatherEnv}
    (h : m.Answers s (.poll env.poll) s') : MioSane c (.gather env) := by
  rintro env polled ⟨⟩ hpoll ev hev id hid
  have hshifted : ¬ev.token < TOKEN_SHIFT := Nat.not_lt.mpr (hid ▸ id.shifted)
  have hwatched := (hm.reports (hpoll ▸ h) ev hev).resolve_left hshifted
  obtain ⟨h, idx, io, hr, hio, htoken⟩ := (k.watched _ _).mp hwatched
  refine ⟨h, io, ?_, hio⟩
  rwa [IoId.idx, hid, htoken, IoId.ofIdx, Nat.add_sub_cancel]

/-! ## Runs -/

/-- No action hands out an id that is listed for release, or puts something else into the box of an
IO. -/
def Frugal (c : Config Ev) (a : Action Ev) : Prop := ¬ReusesId c a ∧ ¬ReplacesIo a

/-- What holds along a run of the loop over mio. -/
structure InStep (m : Mio) (c : Config Ev) (s : m.State) : Prop where
  visited : Visited Anything c
  claims : c.loop.IoClaims
  mirrors : Mirrors (m.watched s) c

theorem inStep_start (hm : m.Lawful) (now : Nat) : InStep m (init now : Config Ev) m.start where
  visited := .start now
  claims := ioClaims_new now
  mirrors := by
    refine ⟨fun object token => ?_, fun object hne => absurd (hm.start object) hne, rfl⟩
    simp [hm.start, registration, init, Loop.new, Recycler.get?_new]

theorem not_reusesId_gather (c : Config Ev) (env : GatherEnv) : ¬ReusesId c (.gather env) := by
  rintro ⟨_, ⟨⟩, _⟩

theorem ioClaims_step (hv : Visited Anything c) (o : c.loop.IoClaims) (hfresh : ¬ReusesId c a)
    (h : c.step a = .ok c') : c'.loop.IoClaims :=
  (keep_step (P := fun c a => ¬ReusesId c a)
    (Q := fun c => Visited Anything c ∧ c.loop.IoClaims) (.of_forall not_reusesId_gather)
    (fun _ _ hq hp e => ⟨hq.1.edit trivial e, ioClaims_edit hq.1.discipline hq.2 e hp⟩)
    ⟨hv, o⟩ hfresh h).2

theorem InStep.next (hm : m.Lawful) (i : InStep m c s) (hfrugal : Frugal c a)
    (hasks : Asks c calls a) (hserves : m.Serves s calls s') (h : c.step a = .ok c') :
    InStep m c' s' := by
  refine ⟨i.visited.step gatherStable_anything trivial h,
    ioClaims_step i.visited i.claims hfrugal.1 h, ?_⟩
  rw [hm.watchedAfter_eq i.visited.discipline i.claims i.mirrors hasks hserves]
  exact mirrors_step i.visited i.claims i.mirrors hfrugal.1 hfrugal.2 h

theorem inStep_of_runs (hm : m.Lawful) {now : Nat} (h : Runs m Frugal now c s) : InStep m c s := by
  induction h with
  | start => exact inStep_start hm now
  | step _ hfrugal hasks hserves hstep ih => exact ih.next hm hfrugal hasks hserves hstep

theorem dying_of_panic {deregisters : Bool} {handler : Except Error Unit} {p : Panic}
    (h : c.step (.settle deregisters handler) = .error (.panic p)) : ∃ handle, Dying c handle := by
  cases hctl : c.ctl with
  | settle handle resp =>
      refine ⟨handle, resp, hctl, ?_⟩
      rintro rfl
      simp only [Config.step, hctl, Config.settle, Except.mapError_ok] at h
      cases h
  | _ =>
      simp only [Config.step, hctl] at h
      cases h

theorem InStep.not_deregister (hm : m.Lawful) (i : InStep m c s) (hasks : Asks c calls a)
    (hserves : m.Serves s calls s') : c.step a ≠ .error (.panic .deregister) := by
  intro hpanic
  rcases fail_cases hpanic with ⟨env, rfl⟩ | hfail
  · obtain ⟨_, _, hfail⟩ := gather_fails hpanic
    cases hfail with
    | deregister handler ha => cases ha
  · cases hfail with
    | deregister handler ha =>
        subst ha
        obtain ⟨handle, hdying⟩ := dying_of_panic hpanic
        cases hm.deregisters i.visited.discipline i.claims i.mirrors hdying hasks hserves

/-- In every run over a lawful mio that hands out no id listed for release and leaves the IOs in
their boxes, mio watches exactly the IOs of the live events, each under its token.  So deregistering
the IOs of a dying event never fails, and what a poll reports is the readiness of an IO that is
registered under this token. -/
theorem mio_mirrors_registrations (m : Mio) (hm : m.Lawful) (now : Nat) (c : Config Ev)
    (s : m.State) (h : Runs m Frugal now c s) :
    (∀ object token, m.watched s object = some token ↔ ∃ handle idx io,
      c.loop.registration handle idx = some io ∧ c.boxes io.io = object ∧
        token = (IoId.ofIdx idx).token) ∧
    (∀ a calls s', Asks c calls a → m.Serves s calls s' →
      c.step a ≠ .error (.panic .deregister)) ∧
    ∀ env s', m.Answers s (.poll env.poll) s' → MioSane c (.gather env) := by
  have i := inStep_of_runs hm h
  refine ⟨fun object token => ?_, fun a calls s' => i.not_deregister hm,
    fun env s' => mioSane_of_reports hm i.mirrors⟩
  simp only [i.mirrors.boxed]
  exact i.mirrors.watched object token

/-! ## A selector -/

/-- What a selector watches after a call, unless it would not give that answer. -/
def select (w : Nat → Option Nat) : MioCall → Option (Nat → Option Nat)
  | .register object token none => some (Function.update w object (some token))
  | .reregister object token none =>
      if (w object).isSome then some (Function.update w object (some token)) else none
  | .deregister object none =>
      if (w object).isSome then some (Function.update w object none) else none
  | .deregister object (some _) => if (w object).isSome then none else some w
  | .poll (.ok polled) =>
      if polled.all fun ev => ev.token < TOKEN_SHIFT || w ev.source = some ev.token then some w
      else none
  | _ => some w

/-- A mio that obeys the laws, to run the loop over. -/
abbrev selector : Mio where
  State := Nat → Option Nat
  start := fun _ => none
  Answers w call w' := select w call = some w'
  watched := id

theorem selector_lawful : selector.Lawful where
  start _ := rfl
  register h := (Option.some.inj h).symm
  reregister h := by
    simp only [select, Option.ite_none_right_eq_some, Option.some.injEq] at h
    exact h.2.symm
  deregister h := by
    simp only [select, Option.ite_none_right_eq_some, Option.some.injEq] at h
    exact h.2.symm
  lets_go {w _ object _} h := by
    simp only [select, Option.ite_none_left_eq_some] at h
    simpa using h.1
  can_let_go {w object} h := by
    exact ⟨Function.update w object none, if_pos (Option.isSome_iff_ne_none.mpr h)⟩
  failed {w w' call} h hfailed := by
    match call with
    | .register _ _ (some _) | .reregister _ _ (some _) | .poll (.error _) =>
        exact (Option.some.inj h).symm
    | .deregister _ (some _) =>
        simp only [select, Option.ite_none_left_eq_some, Option.some.injEq] at h
        exact h.2.symm
  poll h := by
    simp only [select, Option.ite_none_right_eq_some, Option.some.injEq] at h
    exact h.2.symm
  reports h ev hev := by
    simp only [select, Option.ite_none_right_eq_some, List.all_eq_true,
      Bool.or_eq_true, decide_eq_true_eq] at h
    exact h.1 ev hev

/-- The calls in the order of the tables, all of which go well for a dying event. -/
def plainCalls (c : Config Ev) : Action Ev → List MioCall
  | .call (.scope (.ioRegisterAny _ outcome)) =>
      [.register c.objects (IoId.ofIdx c.loop.ios.next).token outcome]
  | .call (.scope (.ioUpdate id outcome)) =>
      (callerIo c id).toList.map fun io => .reregister (c.boxes io.io) id.token outcome
  | .call (.scope (.ioRemove id outcome)) =>
      (callerIo c id).toList.map fun io => .deregister (c.boxes io.io) outcome
  | .settle _ _ =>
      match c.ctl with
      | .settle handle (.ok false) | .settle handle (.error _) =>
          (objectsOf c handle.id).map (.deregister · none)
      | _ => []
  | .gather env => if c.loop.events.isEmpty = .ok false then [.poll env.poll] else []
  | _ => []

theorem asks_plainCalls (hplain : ∀ handler, a ≠ .settle false handler) :
    Asks c (plainCalls c a) a := by
  cases a with
  | call op =>
      rcases op with op | op | op
      · rfl
      · cases op <;> rfl
      · rfl
  | settle deregisters handler =>
      cases deregisters with
      | false => exact absurd rfl (hplain handler)
      | true =>
          cases hctl : c.ctl with
          | settle handle resp =>
              rcases resp with err | _ | _ <;> simp only [Asks, plainCalls, hctl]
              · exact ⟨_, .refl _, rfl⟩
              · exact ⟨_, .refl _, rfl⟩
          | _ => simp only [Asks, plainCalls, hctl]
  | _ => rfl

theorem selector_serves {w w' : Nat → Option Nat} (h : calls.foldlM select w = some w') :
    selector.Serves w calls w' := by
  induction calls generalizing w with
  | nil =>
      cases h
      exact .nil _
  | cons call rest ih =>
      rw [List.foldlM_cons] at h
      obtain ⟨w₁, hcall, h⟩ := Option.bind_eq_some_iff.mp h
      exact .cons hcall (ih h)

/-- Perform a run over the selector, with a test of every step. -/
def drive (p : Config Ev → Action Ev → Bool) :
    List (Action Ev) → Config Ev × (Nat → Option Nat) → Option (Config Ev × (Nat → Option Nat))
  | [], s => some s
  | a :: as, (c, w) =>
      match p c a, (plainCalls c a).foldlM select w, c.step a with
      | true, some w', .ok c' => drive p as (c', w')
      | _, _, _ => none

theorem runs_of_drive {P : Config Ev → Action Ev → Prop} {p : Config Ev → Action Ev → Bool}
    (hp : ∀ c a, p c a = true → P c a ∧ ∀ handler, a ≠ .settle false handler) {now : Nat}
    (as : List (Action Ev)) {s s' : Config Ev × (Nat → Option Nat)}
    (h : Runs selector P now s.1 s.2) (hdrive : drive p as s = some s') :
    Runs selector P now s'.1 s'.2 := by
  induction as generalizing s with
  | nil =>
      cases hdrive
      exact h
  | cons a as ih =>
      unfold drive at hdrive
      split at hdrive
      · rename_i w' c' htest hserves hstep
        obtain ⟨hallowed, hplain⟩ := hp _ a htest
        exact ih (h.step hallowed (asks_plainCalls hplain) (selector_serves hserves) hstep) hdrive
      · cases hdrive

/-- Two IOs become ready, and the callback for the first gives up. -/
def givesUpReady : List (Action Unit) :=
  twoIos ++ [.gather bothReady, .tick, .tick, .finish () (.ok false)]

def frugal (c : Config Ev) (a : Action Ev) : Bool :=
  !reuses c a && match a with
    | .call (.scope (.ioMut _ left)) => left.isNone
    | .settle deregisters _ => deregisters
    | _ => true

theorem frugal_of_test (c : Config Ev) (a : Action Ev) (h : frugal c a = true) :
    Frugal c a ∧ ∀ handler, a ≠ .settle false handler := by
  refine ⟨⟨?_, ?_⟩, ?_⟩
  · rintro ⟨growth, rfl, hmem⟩
    simp [frugal, reuses, hmem] at h
  · rintro ⟨id, object, rfl⟩
    simp [frugal] at h
  · rintro handler rfl
    simp [frugal] at h

/-- The event dies, and whatever becomes of its two IOs, it is no panic. -/
theorem mio_mirrors_registrations_givesUpReady :
    ∃ (c : Config Unit) (w : Nat → Option Nat), Runs selector Frugal 0 c w ∧
      c.ctl = .settle ⟨0, 0⟩ (.ok false) ∧ w 1 = some 3 ∧
      (∃ handle idx io, c.loop.registration handle idx = some io ∧ c.boxes io.io = 1) ∧
      ∀ deregisters calls w', Asks c calls (.settle deregisters (.ok ())) →
        selector.Serves w calls w' →
        c.step (.settle deregisters (.ok ())) ≠ .error (.panic .deregister) := by
  obtain ⟨⟨c, w⟩, hdrive⟩ : ∃ s, drive frugal givesUpReady (init 0, fun _ => none) = some s :=
    Option.isSome_iff_exists.mp (by decide)
  have hends : (drive frugal givesUpReady (init 0, fun _ => none)).map
      (fun s => (s.1.ctl, s.2 1)) = some (.settle ⟨0, 0⟩ (.ok false), some 3) := rfl
  simp only [hdrive, Option.map_some, Option.some.injEq, Prod.mk.injEq] at hends
  have hruns := runs_of_drive frugal_of_test givesUpReady .start hdrive
  have h := mio_mirrors_registrations selector selector_lawful 0 c w hruns
  obtain ⟨handle, idx, io, hr, hio, _⟩ := (h.1 1 3).mp hends.2
  exact ⟨c, w, hruns, hends.1, hends.2, ⟨handle, idx, io, hr, hio⟩,
    fun deregisters calls w' => h.2.1 _ calls w'⟩

end Eveboros.Mio
