import Eveboros.Runs.Reentrancy

/-!
# Addresses of running events

A callback runs on a raw pointer into the vector of events.  The slot stays, but the vector may
have to grow, and then its elements move to a fresh buffer.
-/

namespace Eveboros.Config

open Loop TransitionSystem

variable {Ev : Type} {c c' : Config Ev} {a : Action Ev}

/-- Every callback holds the address of the cell of its event, which is alive. -/
def AddressStable (c : Config Ev) : Prop :=
  ∀ handle cb data, .callback handle cb data ∈ c.stack →
    data.ptr = c.loop.cellAddr handle.id ∧ c.loop.eventAlive handle = true

/-- An insertion from inside a callback makes the vector of events move. -/
def MovesEvents (c : Config Ev) (a : Action Ev) : Prop :=
  ∃ event growth, a = .call (.iface (.insertExact event growth)) ∧
    c.loop.events.relocates growth = true ∧ c.running ≠ []

theorem mem_running_of_frame {handle : Handle} {cb : Callback} {data : StolenData}
    (h : .callback handle cb data ∈ c.stack) : handle ∈ c.running :=
  List.mem_filterMap.mpr ⟨_, h, rfl⟩

theorem frame_of_mem_running {handle : Handle} (h : handle ∈ c.running) :
    ∃ cb data, .callback handle cb data ∈ c.stack := by
  obtain ⟨frame, hmem, hcallee⟩ := List.mem_filterMap.mp h
  cases frame with
  | callback handle' cb data =>
      cases hcallee
      exact ⟨cb, data, hmem⟩
  | _ => cases hcallee

theorem alive_of_frame (d : Discipline c) {handle : Handle} {cb : Callback} {data : StolenData}
    (h : .callback handle cb data ∈ c.stack) : c.loop.eventAlive handle = true :=
  eventAlive_of_tag ((d.mem_running handle).mp (mem_running_of_frame h))

/-- A change that moves no event and starts no callback. -/
theorem AddressStable.congr (q : AddressStable c) (d' : Discipline c')
    (hbuf : c'.loop.events.data.buf = c.loop.events.data.buf)
    (hstack : ∀ handle cb data, .callback handle cb data ∈ c'.stack →
      .callback handle cb data ∈ c.stack) : AddressStable c' := by
  intro handle cb data hmem
  refine ⟨?_, alive_of_frame d' hmem⟩
  rw [cellAddr, hbuf]
  exact (q handle cb data (hstack handle cb data hmem)).1

theorem addressStable_edit (d : Discipline c) (q : AddressStable c) (e : Edit a c c')
    (hstill : ¬MovesEvents c a) : AddressStable c' := by
  have d' := d.edit e
  cases e with
  | stored event growth idx events ha hctl hstore =>
      by_cases hmove : c.loop.events.relocates growth = true
      · -- The vector moves, but nobody holds a pointer into it.
        have hidle : c.running = [] :=
          not_not.mp fun hrun => hstill ⟨event, growth, ha, hmove, hrun⟩
        intro handle cb data hmem
        have hrun := mem_running_of_frame (List.mem_of_ne_of_mem (by rintro ⟨⟩) hmem)
        simp [hidle] at hrun
      · refine q.congr d' ?_ fun _ _ _ hmem => List.mem_of_ne_of_mem (by rintro ⟨⟩) hmem
        change events.data.buf = _
        simp [hstore.buf, hmove]
  | entered handle cb holder events ha hctl hget hgen hfree hset =>
      intro handle' cb' data hmem
      refine ⟨?_, alive_of_frame d' hmem⟩
      rw [cellAddr, show Recycler.data events = _ from rfl, hset.buf]
      rcases List.mem_cons.mp hmem with heq | hmem
      · cases heq
        rfl
      · exact (q handle' cb' data hmem).1
  | finished handle cb data rest event resp holder events ha hctl hstack hget haddr hset =>
      exact q.congr d' hset.buf fun _ _ _ hmem => hstack ▸ List.mem_cons_of_mem _ hmem
  | gaveBack frame rest result ans ha hctl hstack =>
      exact q.congr d' rfl fun _ _ _ hmem => hstack ▸ List.mem_cons_of_mem _ hmem
  | beganRunOne | beganUntilComplete | posted =>
      exact q.congr d' rfl fun _ _ _ hmem => List.mem_of_ne_of_mem (by rintro ⟨⟩) hmem
  | beganRun frame ha hctl =>
      refine q.congr d' rfl fun _ _ _ hmem => List.mem_of_ne_of_mem ?_ hmem
      rcases ha with ⟨_, rfl⟩ | ⟨_, rfl⟩ <;> rintro ⟨⟩
  | timer _ _ _ _ _ _ _ _ _ _ hset
  | expected _ _ _ _ _ _ _ _ hset
  | ioRegistered _ _ _ _ _ _ _ _ _ _ _ hset
  | ioRemoved _ _ _ _ _ _ _ _ _ _ _ _ hset
  | tracked _ _ _ _ _ _ _ _ _ hset
  | killed _ _ _ _ _ _ _ _ _ _ _ _ hset
  | fired _ _ _ _ _ _ _ _ _ _ _ _ _ hset
  | reaped _ _ _ _ _ _ _ _ _ _ hset =>
      exact q.congr d' hset.buf fun _ _ _ hmem => hmem
  | _ => exact q.congr d' rfl fun _ _ _ hmem => hmem

/-! ## Runs -/

theorem not_movesEvents_gather (c : Config Ev) (env : GatherEnv) :
    ¬MovesEvents c (.gather env) := by
  intro h
  rcases h with ⟨_, _, ⟨⟩, _⟩

theorem addressStable_keep (hq : Visited Anything c ∧ AddressStable c) (hstill : ¬MovesEvents c a)
    (e : Edit a c c') : Visited Anything c' ∧ AddressStable c' :=
  ⟨hq.1.edit trivial e, addressStable_edit hq.1.discipline hq.2 e hstill⟩

theorem addressStable_step (hv : Visited Anything c) (q : AddressStable c)
    (hstill : ¬MovesEvents c a) (h : c.step a = .ok c') : AddressStable c' :=
  (keep_step (P := fun c a => ¬MovesEvents c a)
    (Q := fun c => Visited Anything c ∧ AddressStable c) (.of_forall not_movesEvents_gather)
    (fun _ _ => addressStable_keep) ⟨hv, q⟩ hstill h).2

/-- After a move every callback below holds a dangling pointer. -/
theorem not_addressStable_of_move (q : AddressStable c) (hmove : MovesEvents c a)
    (h : c.step a = .ok c') : ¬AddressStable c' := by
  rcases hmove with ⟨event, growth, rfl, hrelocates, hrunning⟩
  obtain ⟨handle, hmem⟩ := List.exists_mem_of_ne_nil _ hrunning
  obtain ⟨cb, data, hframe⟩ := frame_of_mem_running hmem
  have e := step_edit h nofun
  cases e with
  | stored event' growth' idx events ha hctl hstore =>
      cases ha
      intro q'
      have hnew := (q' handle cb data (List.mem_cons_of_mem _ hframe)).1
      have hold := (q handle cb data hframe).1
      have hbuf := congrArg Addr.buf (hold.symm.trans hnew)
      simp [cellAddr, hstore.buf, hrelocates] at hbuf
  | refusal op err ha hctl hr => cases ha; exact hr.elim
  | query op v ha hctl hq => cases ha; exact hq.elim
  | _ => simp_all [Action.IsGather, Action.IsSettle]

/-- The pointer that a callback gives back is the one it got. -/
theorem not_moved (hv : Visited Anything c) (q : AddressStable c) :
    c.step a ≠ .error (.panic (.cell .moved)) := by
  intro hstep
  obtain ⟨c', ⟨_, q'⟩, _, hfail⟩ := keep_fail
    (Q := fun c => Visited Anything c ∧ AddressStable c) gatherStable_anything
    (fun env c _ hq _ => addressStable_keep hq (not_movesEvents_gather c env)) ⟨hv, q⟩ trivial hstep
  cases hfail with
  | moved handle cb data rest hctl hstack hne => exact hne (q' handle cb data (by simp [hstack])).1

/-- The pointers of callbacks stay good exactly as long as no insertion from inside a callback
makes the vector of events move.  Until then the pointer given back is always the expected one. -/
theorem address_stable_iff_no_move (now : Nat) :
    (∀ as : List (Action Ev), Always step AddressStable (init now) as ↔
      Along step (fun c a => ¬MovesEvents c a) (init now) as) ∧
    ∀ c : Config Ev, Reach step (fun c a => ¬MovesEvents c a) (init now) c →
      ∀ a, c.step a ≠ .error (.panic (.cell .moved)) := by
  have hstart : AddressStable (init now : Config Ev) := by
    intro handle cb data hmem
    simp [init] at hmem
  constructor
  · intro as
    refine always_iff_along (C := Visited Anything)
      (fun c c' a hv hs => hv.step gatherStable_anything trivial hs) (fun c c' a hv q hs => ?_) as
      (init now) (.start now) hstart
    exact ⟨fun q' hmove => not_addressStable_of_move q hmove hs q',
      fun hstill => addressStable_step hv q hstill hs⟩
  · intro c hreach a
    obtain ⟨hv, q⟩ : Visited Anything c ∧ AddressStable c :=
      hreach.invariant (Q := fun c => Visited Anything c ∧ AddressStable c) ⟨.start now, hstart⟩
        fun c c' a ih hstill hs =>
          ⟨ih.1.step gatherStable_anything trivial hs, addressStable_step ih.1 ih.2 hstill hs⟩
    exact not_moved hv q

/-- The insertion of an event whose `init` does nothing, from the call to the return. -/
def quickInsert : List (Action Unit) :=
  [.call (.iface (.insertExact () ⟨3, true⟩)), .tick, .finish () (.ok true), .settle true (.ok ()),
    .tick]

/-- The `init` callback of one event inserts four more. -/
def crowdedInit : List (Action Unit) :=
  [.call (.iface (.insertExact () ⟨3, true⟩)), .tick] ++
    quickInsert ++ quickInsert ++ quickInsert ++ quickInsert

/-- With room for four events, the fifth makes the vector move, and the event cannot return. -/
theorem crowdedInit_moves :
    ¬AddressStable (after 0 crowdedInit) ∧
      (after 0 crowdedInit).step (.finish () (.ok true)) = .error (.panic (.cell .moved)) := by
  refine ⟨fun q => ?_, by with_unfolding_all rfl⟩
  have hptr := (q ⟨0, 0⟩ .init ⟨⟨1, 0⟩⟩ (by decide)).1
  revert hptr
  decide

end Eveboros.Config
