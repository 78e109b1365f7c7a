import Mathlib.Order.Bounds.Basic
import Eveboros.Loop.Polling
import Eveboros.Runs.Timeouts

/-!
# How long the poll waits

The poll waits until the earliest deadline of a live event, not at all while an event wants to be
idle, and for ever if nobody waits for anything.  When it has waited that long, the gather has found
something to do.
-/

namespace Eveboros

variable {Ev : Type}

namespace Loop

variable {l l' : Loop Ev} {env : GatherEnv}

def deadlines (l : Loop Ev) : Set Nat :=
  {when | ∃ t ∈ l.timeouts, l.eventAlive t.recipient = true ∧ t.when = when}

/-- This is how long the poll may wait at the clock reading `now`. -/
structure ProperWait (l : Loop Ev) (now : Nat) (wait : Option Nat) : Prop where
  forever : wait = none ↔ l.wantIdle.toList = [] ∧ l.deadlines = ∅
  atOnce : l.wantIdle.toList ≠ [] → wait = some 0
  /-- Subtraction of natural numbers stops at zero. -/
  earliest : l.wantIdle.toList = [] → ∀ m, IsLeast l.deadlines m → wait = some (m - now)

/-- `l'` is `l` without some timeouts of dead events. -/
structure DropsDead (l l' : Loop Ev) : Prop where
  perm : ∃ dropped, (dropped ++ l'.timeouts).Perm l.timeouts ∧
    ∀ t ∈ dropped, l.eventAlive t.recipient = false
  frame : l' = { l with timeouts := l'.timeouts }

/-! ## The wait -/

theorem timeoutMin_drops (l : Loop Ev) (now : Nat) : DropsDead l (l.timeoutMin now).2 where
  perm := by
    refine ⟨_, PriorityHeap.popWhile_perm _ l.timeouts, fun t ht => ?_⟩
    simpa using PriorityHeap.popWhile_popped _ l.timeouts t ht
  frame := rfl

/-- Every timeout of a live event is still there. -/
theorem DropsDead.mem (d : DropsDead l l') {t : TimeoutHolder} (ht : t ∈ l.timeouts)
    (halive : l.eventAlive t.recipient = true) : t ∈ l'.timeouts := by
  obtain ⟨dropped, hperm, hdead⟩ := d.perm
  rcases List.mem_append.mp (hperm.mem_iff.mpr ht) with hdropped | hkept
  · simp [hdead t hdropped] at halive
  · exact hkept

theorem DropsDead.subset (d : DropsDead l l') : l'.timeouts ⊆ l.timeouts := by
  obtain ⟨dropped, hperm, _⟩ := d.perm
  exact fun t ht => hperm.subset (List.mem_append_right _ ht)

/-- The root that is left is a timeout of a live event, and the earliest of them. -/
theorem timeoutMin_root (now : Nat) {t : TimeoutHolder}
    (hroot : PriorityHeap.peek TimeoutHolder.key (l.timeoutMin now).2.timeouts = some t) :
    t ∈ (l.timeoutMin now).2.timeouts ∧ l.eventAlive t.recipient = true ∧
      IsLeast l.deadlines t.when := by
  have hdrops := timeoutMin_drops l now
  have hmem := PriorityHeap.peek_mem hroot
  have halive : l.eventAlive t.recipient = true := by
    simpa using PriorityHeap.popWhile_root _ l.timeouts hroot
  refine ⟨hmem, halive, ⟨t, hdrops.subset hmem, halive, rfl⟩, ?_⟩
  rintro _ ⟨t', ht', halive', rfl⟩
  exact TimeoutHolder.key_le_key.mp (PriorityHeap.le_peek hroot (hdrops.mem ht' halive'))

/-- Where no root is left, no live event has a timeout. -/
theorem deadlines_of_no_root (now : Nat)
    (hroot : PriorityHeap.peek TimeoutHolder.key (l.timeoutMin now).2.timeouts = none) :
    l.deadlines = ∅ := by
  rw [Set.eq_empty_iff_forall_notMem]
  rintro _ ⟨t, ht, halive, rfl⟩
  have hmem := (timeoutMin_drops l now).mem ht halive
  rw [PriorityHeap.peek_eq_none.mp hroot] at hmem
  cases hmem

theorem timeoutMin_of_idle (now : Nat) (h : l.wantIdle.toList ≠ []) :
    (l.timeoutMin now).1 = some 0 := by
  simp [timeoutMin, h]

theorem timeoutMin_of_not_idle (now : Nat) (h : l.wantIdle.toList = []) :
    (l.timeoutMin now).1 =
      (PriorityHeap.peek TimeoutHolder.key (l.timeoutMin now).2.timeouts).map
        fun t => t.when - now := by
  have hwait (t : TimeoutHolder) : (if t.when < now then 0 else t.when - now) = t.when - now := by
    split
    · omega
    · rfl
  simp [timeoutMin, h, hwait]

theorem timeoutMin_proper (l : Loop Ev) (now : Nat) : ProperWait l now (l.timeoutMin now).1 := by
  by_cases hidle : l.wantIdle.toList = []
  · have hwait := timeoutMin_of_not_idle now hidle
    cases hroot : PriorityHeap.peek TimeoutHolder.key (l.timeoutMin now).2.timeouts with
    | none =>
        have hnone := deadlines_of_no_root now hroot
        rw [hwait, hroot]
        refine ⟨iff_of_true rfl ⟨hidle, hnone⟩, fun hne => absurd hidle hne, fun _ m hm => ?_⟩
        have hmem := hm.1
        rw [hnone] at hmem
        exact hmem.elim
    | some t =>
        obtain ⟨_, _, hleast⟩ := timeoutMin_root now hroot
        rw [hwait, hroot]
        refine ⟨iff_of_false nofun fun hnone => ?_, fun hne => absurd hidle hne, fun _ m hm => ?_⟩
        · have hmem := hleast.1
          rw [hnone.2] at hmem
          exact hmem
        · rw [hm.unique hleast]
          rfl
  · rw [timeoutMin_of_idle now hidle]
    exact ⟨iff_of_false nofun fun hnone => hidle hnone.1, fun _ => rfl,
      fun hnone => absurd hnone hidle⟩

/-! ## What the gather finds -/

/-- Timeouts, the idle queue and the clock are left alone, no event dies, and the queue grows. -/
structure Untimed (l l' : Loop Ev) : Prop where
  timeouts : l'.timeouts = l.timeouts
  idle : l'.wantIdle = l.wantIdle
  now : l'.now = l.now
  alive (handle : Handle) : l'.eventAlive handle = l.eventAlive handle

theorem Untimed.of_childPush {pid : Pid} {exit : ChildExit} (h : l.childPush pid exit = .ok l') :
    Untimed l l' := by
  rcases childPush_ok h with rfl | ⟨_, _, _, hget, hset, rfl⟩
  · exact ⟨rfl, rfl, rfl, fun _ => rfl⟩
  · exact ⟨rfl, rfl, rfl, eventAlive_of_sets hset hget rfl rfl⟩

theorem allowsPoll_untimed : AllowsPoll (Untimed : Loop Ev → Loop Ev → Prop) where
  refl _ := ⟨rfl, rfl, rfl, fun _ => rfl⟩
  trans h h' := ⟨h'.timeouts.trans h.timeouts, h'.idle.trans h.idle, h'.now.trans h.now,
    fun handle => (h'.alive handle).trans (h.alive handle)⟩
  adds _ _ _ := ⟨rfl, rfl, rfl, fun _ => rfl⟩
  reads _ _ := ⟨rfl, rfl, rfl, fun _ => rfl⟩
  wakes _ := ⟨rfl, rfl, rfl, fun _ => rfl⟩
  clears _ _ := ⟨rfl, rfl, rfl, fun _ => rfl⟩
  reaps := .of_childPush

theorem timersCleanup_frame (h : l.timersCleanup = .ok l') :
    l'.wantIdle = l.wantIdle ∧ l'.now = l.now ∧
      ∀ t ∈ l.timeouts, l.eventAlive t.recipient = true → t ∈ l'.timeouts := by
  obtain ⟨⟨dead, alive⟩, _, h⟩ := Except.bind_eq_ok.mp h
  simp only at h
  split at h
  · cases h
    exact ⟨rfl, rfl, fun t ht halive => List.mem_filter.mpr ⟨ht, halive⟩⟩
  · cases h
    exact ⟨rfl, rfl, fun t ht _ => ht⟩

theorem tasksGatherTimers_of_due {t : TimeoutHolder} (ht : t ∈ l.timeouts) (hdue : t.when ≤ l.now) :
    l.tasksGatherTimers.scheduled ≠ [] := by
  obtain ⟨due, hsched, hperm, _, _, hlate⟩ := Config.tasksGatherTimers_exact l
  have hmem : t ∈ due := by
    rcases List.mem_append.mp (hperm.mem_iff.mpr ht) with hpopped | hleft
    · exact hpopped
    · have := hlate t hleft
      omega
  rw [hsched]
  intro hnil
  have hmap := (List.append_eq_nil_iff.mp hnil).2
  rw [List.map_eq_nil_iff.mp hmap] at hmem
  cases hmem

theorem gatherIdle_ne_nil (h : l.scheduled ≠ [] ∨ l.wantIdle.toList ≠ []) :
    l.gatherIdle.scheduled ≠ [] := by
  unfold gatherIdle
  split
  · rename_i hnone
    cases hpop : l.wantIdle.popFront with
    | some popped => simp [schedule]
    | none =>
        have hidle : l.wantIdle.toList = [] := by
          rcases hs : l.wantIdle with ⟨_ | ⟨handle, rest⟩, hnd⟩
          · rfl
          · simp [hs, ListSet.popFront] at hpop
        exact absurd hidle (h.resolve_left fun hne => hne hnone)
  · exact ‹_›

/-- A poll that ends the gather without an error was interrupted. -/
theorem woken_of_ok {l₁ : Loop Ev} (hdrain : l.drainReleased = .ok l₁)
    (hpoll : env.poll ≠ .error .interrupted) (h : l.tasksGather env = .ok (.ok (), l')) :
    ∃ evs l₂ l₃, env.poll = .ok evs ∧
      tasksGatherIo env.waits evs { (l₁.timeoutMin env.now).2 with now := env.wake } =
        .ok (.ok (), l₂) ∧
      l₂.timersCleanup = .ok l₃ ∧ l' = l₃.tasksGatherTimers.gatherIdle := by
  obtain ⟨polled, hpolled, h⟩ := Except.bind_eq_ok.mp h
  unfold tasksPoll at hpolled
  split at hpolled
  · cases hpolled
  simp only [hdrain, Except.ok_bind, Recycler.isEmpty, Recycler.len_spec, Except.pure_eq_ok,
    Except.mapError_ok] at hpolled
  split at hpolled
  · cases hpolled
    cases h
  cases hp : env.poll with
  | error err =>
      cases err with
      | interrupted => exact absurd hp hpoll
      | other code =>
          rw [hp] at hpolled
          cases hpolled
          cases h
  | ok evs =>
      rw [hp] at hpolled
      obtain ⟨⟨gathered, l₂⟩, hio, hpolled⟩ := Except.bind_eq_ok.mp hpolled
      cases gathered with
      | error err =>
          cases hpolled
          cases h
      | ok _ =>
          cases hpolled
          obtain ⟨l₃, hclean, h⟩ := Except.bind_eq_ok.mp h
          cases h
          exact ⟨evs, l₂, l₃, rfl, hio, hclean, rfl⟩

/-- A gather whose poll has waited as long as it may finds something to do. -/
theorem tasksGather_finds {l₁ : Loop Ev} {wait : Nat} (hdrain : l.drainReleased = .ok l₁)
    (hwait : (l₁.timeoutMin env.now).1 = some wait) (helapsed : env.now + wait ≤ env.wake)
    (hpoll : env.poll ≠ .error .interrupted) (h : l.tasksGather env = .ok (.ok (), l')) :
    l'.scheduled ≠ [] := by
  obtain ⟨evs, l₂, l₃, _, hio, hclean, rfl⟩ := woken_of_ok hdrain hpoll h
  have hframe := allowsPoll_untimed.tasksGatherIo hio
  obtain ⟨hidle, hnow, hkept⟩ := timersCleanup_frame hclean
  apply gatherIdle_ne_nil
  by_cases hwant : l₁.wantIdle.toList = []
  · rw [timeoutMin_of_not_idle env.now hwant] at hwait
    cases hroot : PriorityHeap.peek TimeoutHolder.key (l₁.timeoutMin env.now).2.timeouts with
    | none => simp [hroot] at hwait
    | some t =>
        obtain ⟨hmem, halive, _⟩ := timeoutMin_root env.now hroot
        simp only [hroot, Option.map_some, Option.some.injEq] at hwait
        have hmem₂ : t ∈ l₂.timeouts := hframe.timeouts ▸ hmem
        have halive₂ : l₂.eventAlive t.recipient = true := (hframe.alive t.recipient).trans halive
        have hdue : t.when ≤ l₃.now := by
          rw [hnow, hframe.now]
          change t.when ≤ env.wake
          omega
        exact .inl (tasksGatherTimers_of_due (hkept t hmem₂ halive₂) hdue)
  · right
    change l₃.wantIdle.toList ≠ []
    rw [hidle, hframe.idle]
    exact hwant

end Loop

namespace Config

open Loop

variable {c c' : Config Ev} {env : GatherEnv}

/-- A gather that did not fail leaves the loop in `run_one`. -/
theorem gather_succeeds (h : c.step (.gather env) = .ok c') (hctl : c'.ctl = .runOne) :
    c.loop.tasksGather env = .ok (.ok (), c'.loop) := by
  obtain ⟨hctl₀, hsched⟩ := gather_enabled (.ok c') h
  simp only [step, hctl₀, hsched] at h
  obtain ⟨⟨result, l⟩, hg, h⟩ := Except.bind_eq_ok.mp h
  rw [Except.mapError_eq_ok.mp hg]
  cases result with
  | error err =>
      cases h
      cases hctl
  | ok _ =>
      cases h
      rfl

/-- The wait is exact, only timeouts of dead events go away when it is computed, and a gather that
succeeds after waiting as long has found a task. -/
theorem poll_wait_exact (c : Config Ev) :
    (∀ now, ProperWait c.loop now (c.loop.timeoutMin now).1 ∧
      DropsDead c.loop (c.loop.timeoutMin now).2) ∧
    ∀ env c' l wait, c.loop.drainReleased = .ok l → (l.timeoutMin env.now).1 = some wait →
      env.now + wait ≤ env.wake → env.poll ≠ .error .interrupted →
      c.step (.gather env) = .ok c' → c'.ctl = .runOne → c'.loop.scheduled ≠ [] :=
  ⟨fun now => ⟨timeoutMin_proper c.loop now, timeoutMin_drops c.loop now⟩,
    fun _ _ _ _ hdrain hwait helapsed hpoll hstep hctl =>
      tasksGather_finds hdrain hwait helapsed hpoll (gather_succeeds hstep hctl)⟩

/-- The earliest deadline of a live event is at 2, and the gather wakes up then. -/
theorem poll_wait_exact_oneDeadTimer :
    ∃ l c', (after 0 oneDeadTimer).loop.drainReleased = .ok l ∧ (l.timeoutMin 0).1 = some 2 ∧
      (after 0 oneDeadTimer).step (.gather ⟨0, .ok [], 2, []⟩) = .ok c' ∧
      c'.loop.scheduled ≠ [] := by
  obtain ⟨l, c', hdrain, hwait, hstep, hctl⟩ : ∃ l c',
      (after 0 oneDeadTimer).loop.drainReleased = .ok l ∧ (l.timeoutMin 0).1 = some 2 ∧
      (after 0 oneDeadTimer).step (.gather ⟨0, .ok [], 2, []⟩) = .ok c' ∧ c'.ctl = .runOne :=
    ⟨_, _, rfl, rfl, rfl, rfl⟩
  exact ⟨l, c', hdrain, hwait, hstep, (poll_wait_exact (after 0 oneDeadTimer)).2
    ⟨0, .ok [], 2, []⟩ c' l 2 hdrain hwait (by decide) nofun hstep hctl⟩

end Config

end Eveboros
