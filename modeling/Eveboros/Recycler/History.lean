import Mathlib.Data.Set.Card
import Eveboros.Lib.Outcome
import Eveboros.Lib.Transition
import Eveboros.Recycler

/-!
# The storage as a partial map

What the slots hold after any history of stores, releases and indexed updates is read off the
history alone: a partial map, into which a store inserts at a key that was not there.  The storage
refines it.
-/

namespace Eveboros

universe u

variable {α : Type u}

inductive SlotEvent (α : Type u)
  | stored (idx : Nat) (item : α)
  | wrote (idx : Nat) (item : α)
  | released (idx : Nat) (item : α)

/-- The item last stored or written at each index, unless it was released since; newest event
first. -/
def content : List (SlotEvent α) → Nat → Option α
  | [] => fun _ => none
  | .stored idx item :: older => Function.update (content older) idx (some item)
  | .wrote idx item :: older => Function.update (content older) idx (some item)
  | .released idx _ :: older => Function.update (content older) idx none

/-- A storage with its history. -/
structure Slab (α : Type u) where
  storage : Recycler α
  history : List (SlotEvent α)

inductive SlabOp (α : Type u)
  | store (item : α) (growth : Growth)
  | release (idx : Nat)
  | update (idx : Nat) (f : α → α)

namespace Slab

open Recycler

def new : Slab α := ⟨.new, []⟩

def step (s : Slab α) (op : SlabOp α) : Except RecyclerFault (Slab α) :=
  match op with
  | .store item growth => do
      let (idx, r) ← s.storage.store item growth
      return ⟨r, .stored idx item :: s.history⟩
  | .release idx => do
      let (item, r) ← s.storage.release idx
      return ⟨r, .released idx item :: s.history⟩
  | .update idx f => do
      let old ← s.storage.index idx
      let r ← s.storage.modify idx f
      return ⟨r, .wrote idx (f old) :: s.history⟩

/-! ## What a step does to the map -/

section Step

variable {s s' : Slab α}

theorem step_store {item : α} {growth : Growth} (h : s.step (.store item growth) = .ok s') :
    ∃ idx, s.storage.Stores item growth idx s'.storage ∧
      s'.history = .stored idx item :: s.history := by
  obtain ⟨⟨idx, r⟩, hstore, h⟩ := Except.bind_eq_ok.mp h
  cases h
  exact ⟨idx, store_ok hstore, rfl⟩

theorem step_release {idx : Nat} (h : s.step (.release idx) = .ok s') :
    ∃ item, s.storage.get? idx = some item ∧ s.storage.Sets idx none s'.storage ∧
      s'.history = .released idx item :: s.history := by
  obtain ⟨⟨item, r⟩, hrelease, h⟩ := Except.bind_eq_ok.mp h
  cases h
  obtain ⟨hget, hset⟩ := release_ok hrelease
  exact ⟨item, hget, hset, rfl⟩

theorem step_update {idx : Nat} {f : α → α} (h : s.step (.update idx f) = .ok s') :
    ∃ old, s.storage.get? idx = some old ∧ s.storage.Sets idx (some (f old)) s'.storage ∧
      s'.history = .wrote idx (f old) :: s.history := by
  obtain ⟨old, hold, h⟩ := Except.bind_eq_ok.mp h
  obtain ⟨r, hmodify, h⟩ := Except.bind_eq_ok.mp h
  cases h
  have hget := index_eq_ok.mp hold
  obtain ⟨item, hitem, hset⟩ := modify_ok hmodify
  rw [hget, Option.some.injEq] at hitem
  subst hitem
  exact ⟨old, hget, hset, rfl⟩

/-- The slots hold what the history says. -/
theorem content_step {op : SlabOp α} (hmap : s.storage.get? = content s.history)
    (h : s.step op = .ok s') : s'.storage.get? = content s'.history := by
  funext other
  cases op with
  | store item growth =>
      obtain ⟨idx, hstore, hhistory⟩ := step_store h
      rw [hhistory, hstore.get? other, hmap, content, Function.update_apply]
  | release idx =>
      obtain ⟨item, _, hset, hhistory⟩ := step_release h
      rw [hhistory, hset.get? other, hmap, content, Function.update_apply]
  | update idx f =>
      obtain ⟨old, _, hset, hhistory⟩ := step_update h
      rw [hhistory, hset.get? other, hmap, content, Function.update_apply]

end Step

/-! ## Counting -/

/-- The valid indexes: those of the slots that are not free. -/
def slots (r : Recycler α) : Finset Nat := Finset.range r.data.elems.length \ r.free.toFinset

theorem mem_slots {r : Recycler α} {idx : Nat} : idx ∈ slots r ↔ r.valid idx = true := by
  rw [slots, Finset.mem_sdiff, Finset.mem_range, List.mem_toFinset, r.mem_free, valid,
    Recycler.get?]
  by_cases hlt : idx < r.data.elems.length
  · rw [List.getElem?_eq_getElem hlt]
    cases r.data.elems[idx] <;> simp [hlt]
  · simp [hlt]

theorem card_slots (r : Recycler α) :
    (slots r).card = r.data.elems.length - r.free.length := by
  have hsub : r.free.toFinset ⊆ Finset.range r.data.elems.length := by
    intro idx hmem
    have hfree := (r.mem_free idx).mp (List.mem_toFinset.mp hmem)
    exact Finset.mem_range.mpr (List.getElem?_eq_some_iff.mp hfree).1
  rw [slots, Finset.card_sdiff_of_subset hsub, Finset.card_range,
    List.toFinset_card_of_nodup r.free_nodup]

/-- `len` counts the valid indexes. -/
theorem ncard_valid (r : Recycler α) :
    {idx | r.valid idx = true}.ncard = r.data.elems.length - r.free.length := by
  have hset : {idx | r.valid idx = true} = ↑(slots r) := by
    ext idx
    exact mem_slots.symm
  rw [hset, Set.ncard_coe_finset, card_slots]

theorem isEmpty_iff {r : Recycler α} : r.isEmpty = .ok true ↔ ∀ idx, r.get? idx = none := by
  have hempty : r.isEmpty = .ok ((slots r).card == 0) := by
    rw [card_slots, isEmpty, len_spec, Except.ok_bind, Except.pure_eq_ok]
  rw [hempty, Except.ok.injEq, beq_iff_eq, Finset.card_eq_zero, Finset.eq_empty_iff_forall_notMem]
  apply forall_congr'
  intro idx
  rw [mem_slots, valid, Option.not_isSome_iff_eq_none]

/-! ## Refinement -/

/-- The storage is the partial map of its history, and its operations are those of the map. -/
structure Refines (s : Slab α) : Prop where
  map : s.storage.get? = content s.history
  free : s.storage.free.Nodup ∧ ∀ idx, idx ∈ s.storage.free ↔ s.storage.data.elems[idx]? = some none
  /-- A store never fails and inserts at a key that was not there. -/
  store (item : α) (growth : Growth) : ∃ idx r, s.storage.store item growth = .ok (idx, r) ∧
    s.storage.valid idx = false ∧ r.get? = Function.update (content s.history) idx (some item)
  /-- A release returns what the history says and removes only that. -/
  release (idx : Nat) : s.storage.valid idx = true → ∃ item r,
    s.storage.release idx = .ok (item, r) ∧ content s.history idx = some item ∧
      r.get? = Function.update (content s.history) idx none
  update (idx : Nat) (f : α → α) : s.storage.valid idx = true → ∃ item r,
    s.storage.index idx = .ok item ∧ content s.history idx = some item ∧
      s.storage.modify idx f = .ok r ∧
      r.get? = Function.update (content s.history) idx (some (f item))
  len : s.storage.len = .ok {idx | s.storage.valid idx = true}.ncard

theorem Refines.of_map {s : Slab α} (hmap : s.storage.get? = content s.history) : Refines s where
  map := hmap
  free := ⟨s.storage.free_nodup, s.storage.mem_free⟩
  store item growth := by
    obtain ⟨idx, r, hstore, spec⟩ := s.storage.store_spec item growth
    refine ⟨idx, r, hstore, by simp [valid, spec.vacant], ?_⟩
    funext other
    rw [spec.get? other, hmap, Function.update_apply]
  release idx hvalid := by
    obtain ⟨item, hitem⟩ := Option.isSome_iff_exists.mp hvalid
    obtain ⟨r, hrelease, hset⟩ := release_spec hitem
    refine ⟨item, r, hrelease, hmap ▸ hitem, ?_⟩
    funext other
    rw [hset.get? other, hmap, Function.update_apply]
  update idx f hvalid := by
    obtain ⟨item, hitem⟩ := Option.isSome_iff_exists.mp hvalid
    obtain ⟨r, hmodify, hset⟩ := modify_spec f hitem
    refine ⟨item, r, index_eq_ok.mpr hitem, hmap ▸ hitem, hmodify, ?_⟩
    funext other
    rw [hset.get? other, hmap, Function.update_apply]
  len := by rw [len_spec, ncard_valid]

/-- Whatever is stored, released and updated, in every order: the storage refines the partial
map. -/
theorem recycler_refines_partial_map (ops : List (SlabOp α)) :
    TransitionSystem.Always step Refines (new : Slab α) ops := by
  apply TransitionSystem.Always.of_invariant
  · intro s s' op hrefines hstep
    exact .of_map (content_step hrefines.map hstep)
  · apply Refines.of_map
    funext idx
    exact get?_new idx

end Slab

end Eveboros
