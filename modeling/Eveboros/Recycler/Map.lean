import Eveboros.Lib.Outcome
import Eveboros.Recycler

/-!
# Relabelling what is stored

The storage never looks at its items: its operations do the same with other items in their place.
-/

namespace Eveboros

universe u

variable {α β : Type u} (f : α → β)

def Vec.map (v : Vec α) : Vec β := ⟨v.elems.map f, v.buf, v.capacity, by simpa using v.length_le⟩

theorem Vec.map_push (v : Vec α) (item : α) (growth : Growth) :
    (v.push item growth).map f = (v.map f).push (f item) growth := by
  unfold push
  split
  · rename_i h
    simp [map, h]
  · rename_i h
    simp [map, h]

theorem Vec.map_set (v : Vec α) (idx : Nat) (item : α) :
    (v.set idx item).map f = (v.map f).set idx (f item) := by
  simp [map, set]

namespace Recycler

theorem eq_of {r s : Recycler α} (hdata : r.data = s.data) (hfree : r.free = s.free) : r = s := by
  cases r
  cases s
  cases hdata
  cases hfree
  rfl

def map (r : Recycler α) : Recycler β where
  data := r.data.map (Option.map f)
  free := r.free
  free_nodup := r.free_nodup
  mem_free idx := by simp [Vec.map, r.mem_free]

variable {f} {r : Recycler α}

theorem slot_map (idx : Nat) :
    (r.map f).data.elems[idx]? = r.data.elems[idx]?.map (Option.map f) := by
  simp [map, Vec.map]

theorem get?_map (idx : Nat) : (r.map f).get? idx = (r.get? idx).map f := by
  unfold get?
  rw [slot_map]
  cases r.data.elems[idx]? <;> simp

theorem len_map : (r.map f).len = r.len := by
  simp [len, map, Vec.map]

theorem isEmpty_map : (r.map f).isEmpty = r.isEmpty := by
  simp only [isEmpty, len_map]

theorem index_map (idx : Nat) : (r.map f).index idx = (r.index idx).map f := by
  unfold index
  rw [slot_map]
  rcases r.data.elems[idx]? with _ | _ | item <;> rfl

theorem store_map (item : α) (growth : Growth) :
    (r.map f).store (f item) growth =
      (r.store item growth).map fun stored => (stored.1, stored.2.map f) := by
  cases h : r.free with
  | nil =>
      have h' : (r.map f).free = [] := h
      rw [store_of_full h, store_of_full h', Except.map_of_ok]
      have hdata := r.data.map_push (Option.map f) (some item) growth
      have hlength : (r.map f).data.elems.length = r.data.elems.length := by simp [map, Vec.map]
      rw [hlength]
      exact congrArg (fun s => Except.ok (_, s)) (eq_of hdata.symm rfl)
  | cons idx rest =>
      have h' : (r.map f).free = idx :: rest := h
      rw [store_of_free h, store_of_free h', Except.map_of_ok]
      have hdata := r.data.map_set (Option.map f) idx (some item)
      exact congrArg (fun s => Except.ok (_, s)) (eq_of hdata.symm rfl)

/-! An operation on a slot without an item fails as reading it does. -/

theorem release_of_unread {idx : Nat} {e : RecyclerFault} (h : r.index idx = .error e) :
    r.release idx = .error e := by
  unfold index at h
  unfold release
  split <;> simp_all

theorem modify_of_unread {idx : Nat} {e : RecyclerFault} (h : r.index idx = .error e)
    (g : α → α) : r.modify idx g = .error e := by
  unfold index at h
  unfold modify
  split <;> simp_all

theorem slot_of_index {idx : Nat} {item : α} (h : r.index idx = .ok item) :
    r.data.elems[idx]? = some (some item) :=
  get?_eq_some.mp (index_eq_ok.mp h)

theorem release_map (idx : Nat) :
    (r.map f).release idx = (r.release idx).map fun out => (f out.1, out.2.map f) := by
  cases h : r.index idx with
  | error e =>
      have h' : (r.map f).index idx = .error e := by rw [index_map, h, Except.map_of_error]
      rw [release_of_unread h, release_of_unread h', Except.map_of_error]
  | ok item =>
      have h' : (r.map f).index idx = .ok (f item) := by rw [index_map, h, Except.map_of_ok]
      rw [release_of_slot (slot_of_index h), release_of_slot (slot_of_index h'), Except.map_of_ok]
      have hdata := r.data.map_set (Option.map f) idx none
      exact congrArg (fun s => Except.ok (_, s)) (eq_of hdata.symm rfl)

/-- An update commutes with the labels if its function does. -/
theorem modify_map {g : α → α} {g' : β → β} (hg : ∀ item, g' (f item) = f (g item)) (idx : Nat) :
    (r.map f).modify idx g' = (r.modify idx g).map (map f) := by
  cases h : r.index idx with
  | error e =>
      have h' : (r.map f).index idx = .error e := by rw [index_map, h, Except.map_of_error]
      rw [modify_of_unread h, modify_of_unread h', Except.map_of_error]
  | ok item =>
      have h' : (r.map f).index idx = .ok (f item) := by rw [index_map, h, Except.map_of_ok]
      rw [modify_of_slot (slot_of_index h), modify_of_slot (slot_of_index h'), Except.map_of_ok]
      have hdata := r.data.map_set (Option.map f) idx (some (g item))
      rw [Option.map_some, ← hg] at hdata
      exact congrArg Except.ok (eq_of hdata.symm rfl)

end Recycler

end Eveboros
