import Mathlib.Algebra.Order.Group.Multiset
import Mathlib.Data.Multiset.AddSub
import Mathlib.Data.Multiset.Count
import Mathlib.Data.Multiset.MapFold
import Mathlib.Logic.Function.Basic
import Mathlib.Tactic.Abel
import Eveboros.Lib.Stamps
import Eveboros.Types

/-!
# The books of the timers

An abstract account of timeouts.  A timeout is pending from its registration until it fires or is
lost; it can only get lost once its event is dead.  The ledger carries the three statistics from
which the loop works out how many pending timeouts are dead, and says what the loop may do to them.
As long as no handle is issued twice, the books stay balanced.
-/

namespace Eveboros

structure Timer where
  recipient : Handle
  id : TimeoutId
  deriving DecidableEq, Repr

structure Ledger where
  /-- The generation of the event in a slot, and how many pending timeouts it counts. -/
  slots : Nat → Option (Nat × Nat)
  pending : Multiset Timer
  inserted : Nat
  fired : Nat
  dead : Nat
  /-- The number of the next timeout. -/
  stamp : Nat
  /-- All handles ever issued, newest first, all timeouts ever registered, and those handed to
  their events. -/
  issued : List Handle
  registered : List Timer
  dispatched : List Timer

namespace Ledger

def alive (s : Ledger) (h : Handle) : Bool := (s.slots h.id).map Prod.fst == some h.generation

def ownCount (s : Ledger) (h : Handle) : Nat := (s.pending.map Timer.recipient).count h

def deadCount (s : Ledger) : Nat := s.pending.countP fun x => s.alive x.recipient = false

def store (s : Ledger) (h : Handle) : Ledger :=
  { s with
    slots := Function.update s.slots h.id (some (h.generation, 0)), issued := h :: s.issued }

/-- An event with `n` pending timeouts dies. -/
def kill (s : Ledger) (h : Handle) (n : Nat) : Ledger :=
  { s with slots := Function.update s.slots h.id none, dead := s.dead + n }

def register (s : Ledger) (h : Handle) (n : Nat) : Ledger :=
  { s with
    slots := Function.update s.slots h.id (some (h.generation, n + 1))
    pending := ⟨h, ⟨s.stamp⟩⟩ ::ₘ s.pending
    inserted := s.inserted + 1
    stamp := wrappingSucc s.stamp
    registered := ⟨h, ⟨s.stamp⟩⟩ :: s.registered }

def fire (s : Ledger) (h : Handle) (id : TimeoutId) (n : Nat) (rest : Multiset Timer) : Ledger :=
  { s with
    slots := Function.update s.slots h.id (some (h.generation, n))
    pending := rest
    fired := s.fired + 1
    dispatched := ⟨h, id⟩ :: s.dispatched }

def recount (s : Ledger) (inserted fired dead : Nat) : Ledger :=
  { s with inserted := inserted, fired := fired, dead := dead }

inductive Move (s : Ledger) : Ledger → Prop
  | stored (h : Handle) (hvacant : s.slots h.id = none) :
      Move s (s.store h)
  | killed (h : Handle) (n : Nat) (hslot : s.slots h.id = some (h.generation, n)) :
      Move s (s.kill h n)
  | registered (h : Handle) (n : Nat) (hslot : s.slots h.id = some (h.generation, n)) :
      Move s (s.register h n)
  | fired (h : Handle) (id : TimeoutId) (n : Nat) (rest : Multiset Timer)
      (hslot : s.slots h.id = some (h.generation, n + 1))
      (hpending : s.pending = ⟨h, id⟩ ::ₘ rest) : Move s (s.fire h id n rest)
  /-- Timeouts of dead events are forgotten. -/
  | lost (gone rest : Multiset Timer) (hpending : s.pending = gone + rest)
      (hdead : ∀ x ∈ gone, s.alive x.recipient = false) : Move s { s with pending := rest }
  /-- The statistics are reset, with the dead timeouts as they follow from them. -/
  | cleaned :
      Move s (s.recount s.pending.card 0 (s.dead - (s.inserted - s.pending.card - s.fired)))
  /-- All timeouts of dead events are forgotten, and the statistics with them. -/
  | rebuilt (gone rest : Multiset Timer) (hpending : s.pending = gone + rest)
      (hdead : ∀ x ∈ gone, s.alive x.recipient = false)
      (halive : ∀ x ∈ rest, s.alive x.recipient = true) :
      Move s (recount { s with pending := rest } rest.card 0 0)

structure Balanced (s : Ledger) : Prop where
  pending_issued : ∀ x ∈ s.pending, x.recipient ∈ s.issued
  alive_issued (h : Handle) : s.alive h = true → h ∈ s.issued
  counted (h : Handle) (n : Nat) : s.slots h.id = some (h.generation, n) → n = s.ownCount h
  /-- `forgotten` counts the dead timeouts that were lost since the last reset. -/
  statistics : ∃ forgotten, s.inserted = s.pending.card + s.fired + forgotten ∧
    s.dead = s.deadCount + forgotten
  /-- A timeout is pending, dispatched, or lost together with its event. -/
  conserved : ∃ lost : Multiset Timer, ↑s.registered = s.pending + ↑s.dispatched + lost ∧
    ∀ x ∈ lost, x.recipient ∈ s.issued ∧ s.alive x.recipient = false
  stamp : s.stamp = s.registered.length % 2 ^ 64
  stamped : s.registered.map (fun x => x.id.raw) = Stamps.issue (2 ^ 64) s.registered.length

variable {s s' : Ledger}

theorem alive_iff {h : Handle} :
    s.alive h = true ↔ ∃ n, s.slots h.id = some (h.generation, n) := by
  unfold alive
  cases s.slots h.id with
  | none => simp
  | some slot => cases slot; simp

theorem alive_of_slot {h : Handle} {n : Nat} (hslot : s.slots h.id = some (h.generation, n)) :
    s.alive h = true := alive_iff.mpr ⟨n, hslot⟩

theorem alive_update {slots : Nat → Option (Nat × Nat)} {idx : Nat} {slot : Option (Nat × Nat)}
    (hslots : s'.slots = Function.update slots idx slot) (h : Handle) :
    s'.alive h = if h.id = idx then slot.map Prod.fst == some h.generation
      else (slots h.id).map Prod.fst == some h.generation := by
  unfold alive
  rw [hslots, Function.update_apply]
  split <;> rfl

/-- Rewriting the counter of an event changes nobody's life. -/
theorem alive_counter {h : Handle} {n m : Nat} (hslot : s.slots h.id = some (h.generation, n))
    (hslots : s'.slots = Function.update s.slots h.id (some (h.generation, m))) (g : Handle) :
    s'.alive g = s.alive g := by
  rw [alive_update hslots]
  split
  · rename_i hid
    simp [alive, hid, hslot]
  · rfl

theorem deadCount_congr (hpending : s'.pending = s.pending)
    (halive : ∀ x ∈ s.pending, s'.alive x.recipient = s.alive x.recipient) :
    s'.deadCount = s.deadCount := by
  unfold deadCount
  rw [hpending]
  exact Multiset.countP_congr rfl fun x hx => by rw [halive x hx]

theorem deadCount_eq_zero (h : ∀ x ∈ s.pending, s.alive x.recipient = true) : s.deadCount = 0 := by
  apply Multiset.countP_eq_zero.mpr
  intro x hx
  simp [h x hx]

/-- An event that dies takes its pending timeouts along. -/
theorem deadCount_killed {h : Handle} (halive : s.alive h = true)
    (hkill : ∀ g, s'.alive g = (s.alive g && g != h)) (hpending : s'.pending = s.pending) :
    s'.deadCount = s.deadCount + s.ownCount h := by
  simp only [deadCount, ownCount, hpending, hkill]
  induction s.pending using Multiset.induction with
  | empty => simp
  | cons x p ih =>
      simp only [Multiset.countP_cons, Multiset.map_cons, Multiset.count_cons, ih]
      by_cases hx : h = x.recipient
      · subst hx
        simp [halive]
        omega
      · have hne : x.recipient ≠ h := Ne.symm hx
        simp [hx, hne]
        omega

theorem store_alive {h g : Handle} (hvacant : s.slots h.id = none) :
    (s.store h).alive g = (s.alive g || g == h) := by
  rw [@alive_update (s.store h) s.slots _ _ rfl]
  by_cases hid : g.id = h.id
  · by_cases hgen : h.generation = g.generation
    · simp [hgen, (Handle.eq_iff_generation hid).mpr hgen.symm]
    · have hne : g ≠ h := fun heq => hgen (heq ▸ rfl)
      simp [alive, hid, hvacant, hgen, hne]
  · have hne : g ≠ h := fun heq => hid (heq ▸ rfl)
    simp [alive, hid, hne]

theorem kill_alive {h g : Handle} {n : Nat} (hslot : s.slots h.id = some (h.generation, n)) :
    (s.kill h n).alive g = (s.alive g && g != h) := by
  rw [@alive_update (s.kill h n) s.slots _ _ rfl]
  by_cases hid : g.id = h.id
  · by_cases hgen : g.generation = h.generation
    · simp [(Handle.eq_iff_generation hid).mpr hgen]
    · have hne : g ≠ h := fun heq => hgen (heq ▸ rfl)
      simp [alive, hid, hslot, Ne.symm hgen]
  · have hne : g ≠ h := fun heq => hid (heq ▸ rfl)
    simp [alive, hid, hne]

theorem Balanced.store (b : Balanced s) {h : Handle} (hvacant : s.slots h.id = none)
    (hfresh : h ∉ s.issued) : Balanced (s.store h) := by
  have halive (g : Handle) (hg : g ∈ s.issued) : (s.store h).alive g = s.alive g := by
    have hne : g ≠ h := fun heq => hfresh (heq ▸ hg)
    simp [store_alive hvacant, hne]
  refine ⟨fun x hx => List.mem_cons_of_mem _ (b.pending_issued x hx), fun g hg => ?_,
    fun g n hslot => ?_, ?_, ?_, b.stamp, b.stamped⟩
  · rw [store_alive hvacant, Bool.or_eq_true, beq_iff_eq] at hg
    rcases hg with hg | rfl
    · exact List.mem_cons_of_mem _ (b.alive_issued g hg)
    · exact List.mem_cons_self
  · by_cases hid : g.id = h.id
    · simp only [Ledger.store, hid, Function.update_self, Option.some.injEq, Prod.mk.injEq] at hslot
      rcases hslot with ⟨hgen, rfl⟩
      obtain rfl := (Handle.eq_iff_generation hid).mpr hgen.symm
      refine (Multiset.count_eq_zero.mpr fun hmem => ?_).symm
      obtain ⟨x, hx, rfl⟩ := Multiset.mem_map.mp hmem
      exact hfresh (b.pending_issued x hx)
    · simp only [Ledger.store, Function.update_of_ne hid] at hslot
      exact b.counted g n hslot
  · rcases b.statistics with ⟨forgotten, hinserted, hdead⟩
    have hsame : (s.store h).deadCount = s.deadCount :=
      deadCount_congr rfl fun x hx => halive x.recipient (b.pending_issued x hx)
    exact ⟨forgotten, hinserted, by rw [hsame]; exact hdead⟩
  · rcases b.conserved with ⟨lost, hconserved, hlost⟩
    refine ⟨lost, hconserved, fun x hx => ⟨List.mem_cons_of_mem _ (hlost x hx).1, ?_⟩⟩
    rw [halive x.recipient (hlost x hx).1, (hlost x hx).2]

theorem Balanced.kill (b : Balanced s) {h : Handle} {n : Nat}
    (hslot : s.slots h.id = some (h.generation, n)) : Balanced (s.kill h n) := by
  refine ⟨b.pending_issued, fun g hg => ?_, fun g m hg => ?_, ?_, ?_, b.stamp, b.stamped⟩
  · rw [kill_alive hslot, Bool.and_eq_true] at hg
    exact b.alive_issued g hg.1
  · by_cases hid : g.id = h.id
    · simp [Ledger.kill, hid] at hg
    · simp only [Ledger.kill, Function.update_of_ne hid] at hg
      exact b.counted g m hg
  · rcases b.statistics with ⟨forgotten, hinserted, hdead⟩
    refine ⟨forgotten, hinserted, ?_⟩
    rw [deadCount_killed (alive_of_slot hslot) (fun g => kill_alive hslot) rfl,
      ← b.counted h n hslot, Ledger.kill, hdead]
    exact Nat.add_right_comm _ _ _
  · rcases b.conserved with ⟨lost, hconserved, hlost⟩
    refine ⟨lost, hconserved, fun x hx => ⟨(hlost x hx).1, ?_⟩⟩
    simp [kill_alive hslot, (hlost x hx).2]

/-- The counter of an event follows its pending timeouts. -/
theorem counted_counter (b : Balanced s) {h : Handle} {m : Nat}
    (hslots : s'.slots = Function.update s.slots h.id (some (h.generation, m)))
    (hown : m = s'.ownCount h) (hother : ∀ g ≠ h, s'.ownCount g = s.ownCount g) (g : Handle)
    (n : Nat) (hg : s'.slots g.id = some (g.generation, n)) : n = s'.ownCount g := by
  by_cases hid : g.id = h.id
  · simp only [hslots, hid, Function.update_self, Option.some.injEq, Prod.mk.injEq] at hg
    rcases hg with ⟨hgen, rfl⟩
    rw [(Handle.eq_iff_generation hid).mpr hgen.symm, ← hown]
  · simp only [hslots, Function.update_of_ne hid] at hg
    have hne : g ≠ h := fun heq => hid (heq ▸ rfl)
    rw [hother g hne, b.counted g n hg]

theorem Balanced.register (b : Balanced s) {h : Handle} {n : Nat}
    (hslot : s.slots h.id = some (h.generation, n)) : Balanced (s.register h n) := by
  have hissued := b.alive_issued h (alive_of_slot hslot)
  have halive (g : Handle) : (s.register h n).alive g = s.alive g := alive_counter hslot rfl g
  refine ⟨fun x hx => ?_, fun g hg => b.alive_issued g (halive g ▸ hg),
    counted_counter b rfl ?_ fun g hne => ?_, ?_, ?_, ?_, ?_⟩
  · rcases Multiset.mem_cons.mp hx with rfl | hx
    · exact hissued
    · exact b.pending_issued x hx
  · simp [ownCount, Ledger.register, b.counted h n hslot]
  · simp [ownCount, Ledger.register, hne]
  · rcases b.statistics with ⟨forgotten, hinserted, hdead⟩
    refine ⟨forgotten, ?_, ?_⟩
    · simp only [Ledger.register, Multiset.card_cons]
      omega
    · simp only [deadCount, halive]
      simpa [deadCount, Ledger.register, alive_of_slot hslot] using hdead
  · rcases b.conserved with ⟨lost, hconserved, hlost⟩
    refine ⟨lost, ?_, fun x hx => ⟨(hlost x hx).1, (halive x.recipient).trans (hlost x hx).2⟩⟩
    simp only [Ledger.register, ← Multiset.cons_coe, hconserved, Multiset.cons_add]
  · rw [Ledger.register, wrappingSucc, b.stamp, List.length_cons, Nat.mod_add_mod]
  · simp only [Ledger.register, List.map_cons, List.length_cons, b.stamped, Stamps.issue_succ,
      b.stamp]

theorem Balanced.fire (b : Balanced s) {h : Handle} {id : TimeoutId} {n : Nat}
    {rest : Multiset Timer} (hslot : s.slots h.id = some (h.generation, n + 1))
    (hpending : s.pending = ⟨h, id⟩ ::ₘ rest) : Balanced (s.fire h id n rest) := by
  have halive (g : Handle) : (s.fire h id n rest).alive g = s.alive g := alive_counter hslot rfl g
  refine ⟨fun x hx => ?_, fun g hg => b.alive_issued g (halive g ▸ hg),
    counted_counter b rfl ?_ fun g hne => ?_, ?_, ?_, b.stamp, b.stamped⟩
  · exact b.pending_issued x (hpending ▸ Multiset.mem_cons_of_mem hx)
  · have hcount := b.counted h (n + 1) hslot
    simpa [ownCount, Ledger.fire, hpending] using hcount
  · simp [ownCount, Ledger.fire, hpending, hne]
  · rcases b.statistics with ⟨forgotten, hinserted, hdead⟩
    refine ⟨forgotten, ?_, ?_⟩
    · rw [hpending, Multiset.card_cons] at hinserted
      simp only [Ledger.fire]
      omega
    · simp only [deadCount, halive]
      simpa [deadCount, Ledger.fire, hpending, alive_of_slot hslot] using hdead
  · rcases b.conserved with ⟨lost, hconserved, hlost⟩
    refine ⟨lost, ?_, fun x hx => ⟨(hlost x hx).1, (halive x.recipient).trans (hlost x hx).2⟩⟩
    simp only [Ledger.fire, ← Multiset.cons_coe, hconserved, hpending, Multiset.cons_add,
      Multiset.add_cons]

/-- What changes when dead timeouts are forgotten: their number moves to `forgotten`. -/
theorem lost_statistics {gone rest : Multiset Timer} (hpending : s.pending = gone + rest)
    (hdead : ∀ x ∈ gone, s.alive x.recipient = false) :
    s.pending.card = gone.card + rest.card ∧
      s.deadCount = gone.card + deadCount { s with pending := rest } := by
  refine ⟨by rw [hpending, Multiset.card_add], ?_⟩
  have hall : gone.countP (fun x => s.alive x.recipient = false) = gone.card :=
    Multiset.countP_eq_card.mpr hdead
  rw [deadCount, hpending, Multiset.countP_add, hall]
  rfl

theorem Balanced.lose (b : Balanced s) {gone rest : Multiset Timer}
    (hpending : s.pending = gone + rest) (hdead : ∀ x ∈ gone, s.alive x.recipient = false) :
    Balanced { s with pending := rest } := by
  refine ⟨fun x hx => ?_, b.alive_issued, fun g n hg => ?_, ?_, ?_, b.stamp, b.stamped⟩
  · exact b.pending_issued x (hpending ▸ Multiset.mem_add.mpr (.inr hx))
  · have hzero : (gone.map Timer.recipient).count g = 0 := by
      apply Multiset.count_eq_zero.mpr
      intro hmem
      obtain ⟨x, hx, rfl⟩ := Multiset.mem_map.mp hmem
      have halive : s.alive x.recipient = true := alive_of_slot hg
      simp [hdead x hx] at halive
    have hcount := b.counted g n hg
    simpa [ownCount, hpending, hzero] using hcount
  · rcases b.statistics with ⟨forgotten, hinserted, hdeads⟩
    obtain ⟨hcard, hcount⟩ := lost_statistics hpending hdead
    refine ⟨forgotten + gone.card, ?_, ?_⟩
    · change s.inserted = rest.card + s.fired + (forgotten + gone.card)
      omega
    · change s.dead = deadCount { s with pending := rest } + (forgotten + gone.card)
      omega
  · rcases b.conserved with ⟨lost, hconserved, hlost⟩
    refine ⟨gone + lost, ?_, fun x hx => ?_⟩
    · rw [hconserved, hpending]
      abel
    · rcases Multiset.mem_add.mp hx with hx | hx
      · exact ⟨b.pending_issued x (hpending ▸ Multiset.mem_add.mpr (.inl hx)), hdead x hx⟩
      · exact hlost x hx

/-- The statistics play no part in the rest of the balance. -/
theorem Balanced.recount (b : Balanced s) {inserted fired dead : Nat}
    (h : ∃ forgotten, inserted = s.pending.card + fired + forgotten ∧
      dead = s.deadCount + forgotten) : Balanced (s.recount inserted fired dead) :=
  ⟨b.pending_issued, b.alive_issued, b.counted, h, b.conserved, b.stamp, b.stamped⟩

/-- What the statistics say is what a count of the dead timeouts gives. -/
theorem Balanced.reconstruct (b : Balanced s) :
    s.pending.card ≤ s.inserted ∧ s.fired ≤ s.inserted - s.pending.card ∧
      s.inserted - s.pending.card - s.fired ≤ s.dead ∧
      s.dead - (s.inserted - s.pending.card - s.fired) = s.deadCount := by
  rcases b.statistics with ⟨forgotten, hinserted, hdead⟩
  omega

theorem Move.balanced (b : Balanced s) (m : Move s s') (hnodup : s'.issued.Nodup) :
    Balanced s' := by
  cases m with
  | stored h hvacant => exact b.store hvacant (List.nodup_cons.mp hnodup).1
  | killed h n hslot => exact b.kill hslot
  | registered h n hslot => exact b.register hslot
  | fired h id n rest hslot hpending => exact b.fire hslot hpending
  | lost gone rest hpending hdead => exact b.lose hpending hdead
  | cleaned =>
      refine b.recount ⟨0, by simp, ?_⟩
      rw [b.reconstruct.2.2.2, Nat.add_zero]
  | rebuilt gone rest hpending hdead halive =>
      refine (b.lose hpending hdead).recount ⟨0, by simp, ?_⟩
      rw [deadCount_eq_zero halive]

end Ledger

end Eveboros
