import Mathlib.Data.List.Count
import Eveboros.Lib.Stamps
import Eveboros.Runs.Reentrancy

/-!
# Handles identify events

A handle is a slot together with the generation that the event got when it was stored.  The
generation counter wraps around, so everything here that tells events apart is said of runs with
fewer than 2^64 insertions.
-/

namespace Eveboros

variable {Ev : Type}

def Obs.issued : Obs Ev → Option Handle
  | .stored handle _ => some handle
  | _ => none

def Obs.slain : Obs Ev → Option Handle
  | .killed handle => some handle
  | _ => none

/-- The value of the event stored under a handle: what was inserted, or what the last callback
left. -/
def lastValue (handle : Handle) : List (Obs Ev) → Option Ev
  | [] => none
  | .stored other event :: older => if other = handle then some event else lastValue handle older
  | .finished other event _ :: older =>
      if other = handle then some event else lastValue handle older
  | _ :: older => lastValue handle older

theorem lastValue_killed (handle other : Handle) (older : List (Obs Ev)) :
    lastValue handle (.killed other :: older) = lastValue handle older := rfl

def EvHolder.content (holder : EvHolder Ev) : Nat × Ev := (holder.generation, holder.event.data)

namespace Config

open Loop

variable {c c' : Config Ev} {a : Action Ev}

def issued (c : Config Ev) : List Handle := c.log.filterMap Obs.issued

def slain (c : Config Ev) : List Handle := c.log.filterMap Obs.slain

structure Identity (c : Config Ev) : Prop where
  generation : c.loop.generation = c.issued.length % 2 ^ 64
  issued : c.issued.map Handle.generation = Stamps.issue (2 ^ 64) c.issued.length
  /-- An event is alive if it was stored once more than it was killed. -/
  alive (handle : Handle) : c.issued.count handle =
    c.slain.count handle + if c.loop.eventAlive handle then 1 else 0
  value (handle : Handle) (holder : EvHolder Ev) : c.loop.events.get? handle.id = some holder →
    holder.generation = handle.generation → lastValue handle c.log = some holder.event.data

theorem identity_init (now : Nat) : Identity (init now : Config Ev) where
  generation := rfl
  issued := rfl
  alive handle := by simp [Config.issued, slain, init, eventAlive, Loop.new, Recycler.get?_new]
  value handle holder hget := by simp [init, Loop.new, Recycler.get?_new] at hget

/-- A change that stores and kills nothing and leaves the values alone. -/
theorem Identity.congr (i : Identity c) (hgeneration : c'.loop.generation = c.loop.generation)
    (hissued : c'.issued = c.issued) (hslain : c'.slain = c.slain)
    (hcontent : ∀ idx, (c'.loop.events.get? idx).map EvHolder.content =
      (c.loop.events.get? idx).map EvHolder.content)
    (hvalue : ∀ handle, lastValue handle c'.log = lastValue handle c.log) : Identity c' where
  generation := by rw [hgeneration, hissued, i.generation]
  issued := by rw [hissued, i.issued]
  alive handle := by
    have hgen := congrArg (Option.map Prod.fst) (hcontent handle.id)
    simp only [Option.map_map, Function.comp_def, EvHolder.content] at hgen
    rw [hissued, hslain, i.alive handle, eventAlive_eq_map, eventAlive_eq_map]
    simp only [← show (fun h : EvHolder Ev => h.generation) = EvHolder.generation from rfl, hgen]
  value handle holder hget hgen := by
    have hcont := hcontent handle.id
    rw [hget, Option.map_some, eq_comm, Option.map_eq_some_iff] at hcont
    rcases hcont with ⟨old, hold, heq⟩
    obtain ⟨hg, hd⟩ := Prod.mk.inj heq
    rw [hvalue, i.value handle old hold (hg.trans hgen), hd]

theorem Identity.sets (i : Identity c) {idx : Nat} {old new : EvHolder Ev}
    {events : Recycler (EvHolder Ev)} (hset : c.loop.events.Sets idx (some new) events)
    (hget : c.loop.events.get? idx = some old) (hcontent : new.content = old.content)
    (hevents : c'.loop.events = events) (hgeneration : c'.loop.generation = c.loop.generation)
    (hissued : c'.issued = c.issued) (hslain : c'.slain = c.slain)
    (hvalue : ∀ handle, lastValue handle c'.log = lastValue handle c.log) : Identity c' :=
  i.congr hgeneration hissued hslain (fun j => by rw [hevents, hset.map_eq hget hcontent]) hvalue

theorem identity_stored (i : Identity c) {event : Ev} {idx : Nat} {growth : Growth}
    {events : Recycler (EvHolder Ev)}
    (hstore : c.loop.events.Stores (.new event c.loop.generation) growth idx events)
    (hevents : c'.loop.events = events)
    (hgeneration : c'.loop.generation = wrappingSucc c.loop.generation)
    (hlog : c'.log = .stored ⟨idx, c.loop.generation⟩ event :: c.log) : Identity c' := by
  have hissued : c'.issued = ⟨idx, c.loop.generation⟩ :: c.issued := by
    simp [Config.issued, hlog, Obs.issued]
  have hslain : c'.slain = c.slain := by rw [slain, hlog]; rfl
  have hdead {handle : Handle} (hid : handle.id = idx) : c.loop.eventAlive handle = false := by
    simp [eventAlive, hid, hstore.vacant]
  refine ⟨?_, ?_, fun handle => ?_, fun handle holder hget hgen => ?_⟩
  · rw [hgeneration, hissued, wrappingSucc, i.generation, List.length_cons, Nat.mod_add_mod]
  · rw [hissued, List.map_cons, i.issued, List.length_cons, Stamps.issue_succ, i.generation]
  · rw [hissued, hslain, List.count_cons, i.alive handle]
    by_cases hid : handle.id = idx
    · have halive : c'.loop.eventAlive handle = (c.loop.generation == handle.generation) := by
        simp [eventAlive, hevents, hstore.get?, hid, EvHolder.new]
      have heq : (⟨idx, c.loop.generation⟩ : Handle) = handle ↔
          c.loop.generation = handle.generation := Handle.eq_iff_generation hid.symm
      simp [hdead hid, halive, heq]
    · have halive : c'.loop.eventAlive handle = c.loop.eventAlive handle :=
        eventAlive_congr (by simp [hevents, hstore.get?, hid])
      have hne : (⟨idx, c.loop.generation⟩ : Handle) ≠ handle := fun heq => hid (heq ▸ rfl)
      simp [halive, hne]
  · rw [hlog, lastValue]
    by_cases hid : handle.id = idx
    · rw [hevents, hstore.get?, if_pos hid, Option.some.injEq] at hget
      subst hget
      have heq : (⟨idx, c.loop.generation⟩ : Handle) = handle :=
        (Handle.eq_iff_generation hid.symm).mpr hgen
      simp [heq, EvHolder.new, StolenCell.new]
    · have hne : (⟨idx, c.loop.generation⟩ : Handle) ≠ handle := fun heq => hid (heq ▸ rfl)
      rw [hevents, hstore.get?, if_neg hid] at hget
      simp [hne, i.value handle holder hget hgen]

theorem identity_killed (i : Identity c) {handle : Handle} {holder : EvHolder Ev}
    {events : Recycler (EvHolder Ev)} (hget : c.loop.events.get? handle.id = some holder)
    (hgen : holder.generation = handle.generation)
    (hset : c.loop.events.Sets handle.id none events) (hevents : c'.loop.events = events)
    (hgeneration : c'.loop.generation = c.loop.generation)
    (hlog : c'.log = .killed handle :: c.log) : Identity c' := by
  have hissued : c'.issued = c.issued := by rw [Config.issued, hlog]; rfl
  have hslain : c'.slain = handle :: c.slain := by simp [slain, hlog, Obs.slain]
  refine ⟨by rw [hgeneration, hissued, i.generation], by rw [hissued, i.issued], fun h => ?_,
    fun h old hold hg => ?_⟩
  · rw [hissued, hslain, List.count_cons, i.alive h]
    by_cases hid : h.id = handle.id
    · have hdead : c'.loop.eventAlive h = false := by simp [eventAlive, hevents, hset.get?, hid]
      have halive : c.loop.eventAlive h = (handle.generation == h.generation) := by
        simp [eventAlive, hid, hget, hgen]
      have heq : handle = h ↔ handle.generation = h.generation :=
        Handle.eq_iff_generation hid.symm
      simp [hdead, halive, heq]
    · have halive : c'.loop.eventAlive h = c.loop.eventAlive h :=
        eventAlive_congr (by simp [hevents, hset.get?, hid])
      have hne : handle ≠ h := fun heq => hid (heq ▸ rfl)
      simp [halive, hne]
  · by_cases hid : h.id = handle.id
    · simp [hevents, hset.get?, hid] at hold
    · rw [hevents, hset.get?, if_neg hid] at hold
      rw [hlog, lastValue_killed]
      exact i.value h old hold hg

/-- A callback returns: its event is back with the value that the callback left. -/
theorem identity_finished (i : Identity c) {handle : Handle} {holder : EvHolder Ev} {event : Ev}
    {resp : Response} {events : Recycler (EvHolder Ev)}
    (hget : c.loop.events.get? handle.id = some holder)
    (hgen : holder.generation = handle.generation)
    (hset : c.loop.events.Sets handle.id (some { holder with event := ⟨event, false⟩ }) events)
    (hevents : c'.loop.events = events) (hgeneration : c'.loop.generation = c.loop.generation)
    (hlog : c'.log = .finished handle event resp :: c.log) : Identity c' := by
  have hissued : c'.issued = c.issued := by rw [Config.issued, hlog]; rfl
  have hslain : c'.slain = c.slain := by rw [slain, hlog]; rfl
  refine ⟨by rw [hgeneration, hissued, i.generation], by rw [hissued, i.issued], fun h => ?_,
    fun h old hold hg => ?_⟩
  · rw [hissued, hslain, i.alive h, eventAlive_of_sets hset hget rfl hevents]
  · rw [hlog, lastValue]
    by_cases hid : h.id = handle.id
    · rw [hevents, hset.get?, if_pos hid, Option.some.injEq] at hold
      subst hold
      have heq : handle = h := (Handle.eq_iff_generation hid.symm).mpr (hgen.symm.trans hg)
      simp [heq]
    · have hne : handle ≠ h := fun heq => hid (heq ▸ rfl)
      rw [hevents, hset.get?, if_neg hid] at hold
      simp [hne, i.value h old hold hg]

theorem identity_edit (d : Discipline c) (i : Identity c) (e : Edit a c c') : Identity c' := by
  cases e with
  | stored event growth idx events ha hctl hstore => exact identity_stored i hstore rfl rfl rfl
  | killed handle resp result holder events deregisters handler ha hctl hresp hget hfree hset =>
      exact identity_killed i hget (d.settling_gen hctl hget) hset rfl rfl rfl
  | finished handle cb data rest event resp holder events ha hctl hstack hget haddr hset =>
      exact identity_finished i hget (d.caller_gen (by simp [caller, hstack]) hget) hset rfl rfl rfl
  | timer _ _ _ _ _ _ _ _ _ hget hset
  | expected _ _ _ _ _ _ _ hget hset
  | ioRegistered _ _ _ _ _ _ _ _ _ hget _ hset
  | ioRemoved _ _ _ _ _ _ _ _ _ _ hget _ hset
  | tracked _ _ _ _ _ _ _ hget _ hset
  | entered _ _ _ _ _ _ hget _ _ hset
  | fired _ _ _ _ _ _ _ _ _ _ hget _ _ hset
  | reaped _ _ _ _ _ _ _ _ hget _ hset =>
      exact i.sets hset hget rfl rfl rfl rfl rfl fun _ => rfl
  | _ => exact i.congr rfl rfl rfl (fun _ => rfl) fun _ => rfl

theorem Visited.identity {P : Config Ev → Action Ev → Prop} (h : Visited P c) : Identity c := by
  induction h with
  | start now => exact identity_init now
  | edit hv _ he ih => exact identity_edit hv.discipline ih he

/-! ## With fewer than 2^64 insertions -/

theorem Identity.issued_nodup (i : Identity c) (hfew : c.issued.length ≤ 2 ^ 64) :
    c.issued.Nodup := Stamps.nodup_of_stamped i.issued hfew

theorem Identity.alive_iff (i : Identity c) (hfew : c.issued.length ≤ 2 ^ 64) (handle : Handle) :
    c.loop.eventAlive handle = true ↔ handle ∈ c.issued ∧ handle ∉ c.slain := by
  have hcount := i.alive handle
  have honce := List.nodup_iff_count_le_one.mp (i.issued_nodup hfew) handle
  rw [← List.count_pos_iff, ← List.count_eq_zero]
  cases halive : c.loop.eventAlive handle with
  | false =>
      simp only [halive, Bool.false_eq_true, ↓reduceIte, Nat.add_zero, false_iff] at hcount ⊢
      omega
  | true =>
      simp only [halive, ↓reduceIte, true_iff] at hcount ⊢
      omega

/-! ## Calls -/

/-- The ways in which the loop comes to call an event. -/
inductive Addressed (a : Action Ev) (c c' : Config Ev) : Handle → Callback → Prop
  | task (task : Task) (rest : List Task) (ha : a = .tick)
      (hsched : c.loop.scheduled = task :: rest) :
      Addressed a c c' task.recipient task.param.callback
  | post (handle : Handle) (data : AnyBox) (tp : TypeId)
      (ha : a = .call (.iface (.postImpl handle data tp))) :
      Addressed a c c' handle (.message ⟨data, tp, .post c.caller⟩)
  | insert (handle : Handle) (event : Ev) (growth : Growth)
      (ha : a = .call (.iface (.insertExact event growth)))
      (hlog : c'.log = .stored handle event :: c.log) : Addressed a c c' handle .init

theorem Edit.ctl_of_gather {env : GatherEnv} (e : Edit (.gather env) c c') :
    c'.ctl = c.ctl ∨ ∃ err, c'.ctl = .ret (.error err) := by
  cases e with
  | gatherFailed err => exact .inr ⟨err, rfl⟩
  | kept _ ha => exact ha.elim
  | _ => first | exact .inl rfl | simp_all

theorem Edit.log_of_gather {env : GatherEnv} (e : Edit (.gather env) c c') : c'.log = c.log := by
  cases e <;> first | rfl | simp_all

theorem Edit.log_suffix (e : Edit a c c') : c.log <:+ c'.log := by
  cases e <;> first | exact List.suffix_refl _ | exact List.suffix_cons _ _

theorem Edit.issued_length_le (e : Edit a c c') : c.issued.length ≤ c'.issued.length :=
  (e.log_suffix.sublist.filterMap Obs.issued).length_le

theorem step_log_suffix (h : c.step a = .ok c') : c.log <:+ c'.log := by
  have hedits := step_edits h
  clear h
  induction hedits with
  | refl => exact List.suffix_refl _
  | tail _ hlast ih => exact ih.trans hlast.log_suffix

theorem reach_log_suffix {P : Config Ev → Action Ev → Prop}
    (h : TransitionSystem.Reach step P c c') : c.log <:+ c'.log :=
  h.invariant (Q := fun s => c.log <:+ s.log) (List.suffix_refl _)
    fun _ _ _ ih _ hs => ih.trans (step_log_suffix hs)

theorem step_addressed (h : c.step a = .ok c') {handle : Handle} {cb : Callback}
    (hctl : c'.ctl = .call handle cb) :
    c.ctl = .call handle cb ∨ Addressed a c c' handle cb := by
  rcases step_cases h with ⟨env, rfl⟩ | e
  · have hedits := gather_edits h
    clear h
    refine .inl ?_
    induction hedits with
    | refl => exact hctl
    | tail _ hlast ih =>
        rcases hlast.ctl_of_gather with hsame | ⟨err, hret⟩
        · exact ih (hsame ▸ hctl)
        · simp [hret] at hctl
  · cases e with
    | stored event growth idx events ha hctl' hstore =>
        cases hctl
        exact .inr (.insert _ event growth ha rfl)
    | posted handle data tp holder ha hctl' =>
        cases hctl
        exact .inr (.post _ data tp ha)
    | passed task rest holder ha hctl' hsched =>
        cases hctl
        exact .inr (.task task rest ha hsched)
    | fired task rest id left holder events ha hctl' hsched hparam =>
        have hcb : task.param.callback = .timeout id := by rw [hparam]; rfl
        cases hctl
        exact .inr (hcb ▸ .task task rest ha hsched)
    | _ => first | exact .inl hctl | simp_all [giveBack]

/-- A call runs on the value that is stored under the handle. -/
theorem step_called (h : Reachable c) (hstep : c.step a = .ok c') {handle : Handle} {cb : Callback}
    {event : Ev} (hlog : c'.log = .called handle cb event :: c.log) :
    c.ctl = .call handle cb ∧ c.loop.eventAlive handle = true ∧
      lastValue handle c.log = some event := by
  rcases step_cases hstep with ⟨env, rfl⟩ | e
  · have hsame := gather_frame Config.log (fun _ _ => Edit.log_of_gather) hstep
    simp [hsame] at hlog
  · cases e with
    | entered handle' cb' holder events ha hctl hget hgen hfree hset =>
        cases hlog
        exact ⟨hctl, eventAlive_iff.mpr ⟨holder, hget, hgen⟩,
          h.visited.identity.value handle holder hget hgen⟩
    | _ => simp_all [answer, giveBack]

/-- Handles are never reused, they tell whether their event is alive, and every callback of a
task, a message or an insertion runs on the event that was inserted under the handle it is
addressed to. -/
theorem handles_identify_events (c : Config Ev) (h : Reachable c)
    (hfew : c.issued.length < 2 ^ 64) :
    c.issued.Nodup ∧
    (∀ handle, c.loop.eventAlive handle = true ↔ handle ∈ c.issued ∧ handle ∉ c.slain) ∧
    (∀ handle ∈ c.slain, ∀ c', TransitionSystem.Reach step Anything c c' →
      c'.issued.length < 2 ^ 64 → c'.loop.eventAlive handle = false) ∧
    (∀ a c' handle cb, c.step a = .ok c' → c'.ctl = .call handle cb →
      c.ctl = .call handle cb ∨ Addressed a c c' handle cb) ∧
    ∀ a c' handle cb event, c.step a = .ok c' → c'.log = .called handle cb event :: c.log →
      c.ctl = .call handle cb ∧ handle ∈ c.issued ∧ handle ∉ c.slain ∧
        lastValue handle c.log = some event := by
  have i := h.visited.identity
  refine ⟨i.issued_nodup (Nat.le_of_lt hfew), i.alive_iff (Nat.le_of_lt hfew), ?_,
    fun _ _ _ _ hstep hctl => step_addressed hstep hctl, ?_⟩
  · intro handle hslain c' hreach hfew'
    have hslain' : handle ∈ c'.slain :=
      ((reach_log_suffix hreach).sublist.filterMap Obs.slain).subset hslain
    have hiff := (h.reach hreach).visited.identity.alive_iff (Nat.le_of_lt hfew') handle
    exact Bool.eq_false_iff.mpr fun halive => (hiff.mp halive).2 hslain'
  · intro a c' handle cb event hstep hlog
    obtain ⟨hctl, halive, hvalue⟩ := step_called h hstep hlog
    obtain ⟨hissued, hslain⟩ := (i.alive_iff (Nat.le_of_lt hfew) handle).mp halive
    exact ⟨hctl, hissued, hslain, hvalue⟩

/-- An event dies in its `init`, and the next one gets its slot. -/
def reusedSlot : List (Action Nat) :=
  [.call (.iface (.insertExact 5 ⟨4, false⟩)), .tick, .finish 5 (.ok false), .settle true (.ok ()),
    .tick, .call (.iface (.insertExact 6 ⟨4, false⟩)), .tick]

theorem handles_identify_events_reusedSlot :
    (after 0 reusedSlot).issued = [⟨0, 1⟩, ⟨0, 0⟩] ∧ (after 0 reusedSlot).issued.Nodup ∧
      ((after 0 reusedSlot).loop.eventAlive ⟨0, 0⟩ = true ↔
        ⟨0, 0⟩ ∈ (after 0 reusedSlot).issued ∧ ⟨0, 0⟩ ∉ (after 0 reusedSlot).slain) := by
  have h := handles_identify_events (after 0 reusedSlot) (reachable_after 0 reusedSlot) (by decide)
  exact ⟨by decide, h.1, h.2.1 ⟨0, 0⟩⟩

end Config

end Eveboros
