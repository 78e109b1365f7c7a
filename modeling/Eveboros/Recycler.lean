import Mathlib.Data.List.Basic
import Mathlib.Data.List.Nodup
import Mathlib.Data.List.Perm.Subperm

/-!
# The slab storage

`Recycler` keeps its items in slots of a growing vector and reuses the slots of released items,
last released first.  The vector is modelled with the identity of its buffer, because the loop
takes addresses of items: a push that finds the buffer full may move every item to a fresh one.

The representation invariant is part of the type: the free stack lists every vacant slot exactly
once.  The operations nevertheless check what the code asserts, and fail where it would panic.
-/

namespace Eveboros

universe u

/-- What the allocator does when a full buffer has to grow: how much room it adds beyond the one
needed, and whether the items move to a fresh buffer. -/
structure Growth where
  spare : Nat
  moves : Bool
  deriving DecidableEq

/-- A vector: its elements and the buffer that holds them. -/
structure Vec (α : Type u) where
  elems : List α
  /-- Identity of the buffer; a fresh buffer has a number that was not used before. -/
  buf : Nat
  capacity : Nat
  length_le : elems.length ≤ capacity

namespace Vec

variable {α : Type u}

def new : Vec α := ⟨[], 0, 0, Nat.le_refl _⟩

def relocates (v : Vec α) (growth : Growth) : Bool :=
  v.elems.length == v.capacity && growth.moves

def push (v : Vec α) (item : α) (growth : Growth) : Vec α :=
  if h : v.elems.length < v.capacity then
    ⟨v.elems ++ [item], v.buf, v.capacity, by rw [List.length_append]; exact h⟩
  else
    ⟨v.elems ++ [item], if growth.moves then v.buf + 1 else v.buf,
      v.elems.length + 1 + growth.spare, by simp⟩

def set (v : Vec α) (idx : Nat) (item : α) : Vec α :=
  ⟨v.elems.set idx item, v.buf, v.capacity, by simpa using v.length_le⟩

@[simp] theorem set_elems (v : Vec α) (idx : Nat) (item : α) :
    (v.set idx item).elems = v.elems.set idx item := rfl

@[simp] theorem set_buf (v : Vec α) (idx : Nat) (item : α) : (v.set idx item).buf = v.buf := rfl

@[simp] theorem push_elems (v : Vec α) (item : α) (growth : Growth) :
    (v.push item growth).elems = v.elems ++ [item] := by
  unfold push
  split <;> rfl

theorem push_buf (v : Vec α) (item : α) (growth : Growth) :
    (v.push item growth).buf = if v.relocates growth then v.buf + 1 else v.buf := by
  have hle := v.length_le
  unfold push relocates
  by_cases h : v.elems.length < v.capacity
  · have hne : v.elems.length ≠ v.capacity := by omega
    simp [h, hne]
  · have heq : v.elems.length = v.capacity := by omega
    simp [heq]

end Vec

inductive RecyclerFault
  | outOfBounds
  /-- A slot of the free stack holds an item. -/
  | occupied
  /-- The accessed slot holds no item. -/
  | vacant
  /-- More free slots than slots. -/
  | underflow
  deriving DecidableEq, Repr

structure Recycler (α : Type u) where
  data : Vec (Option α)
  /-- The vacant slots, top of the stack first. -/
  free : List Nat
  free_nodup : free.Nodup
  mem_free : ∀ idx, idx ∈ free ↔ data.elems[idx]? = some none

namespace Recycler

variable {α : Type u}

def new : Recycler α := ⟨.new, [], List.nodup_nil, by simp [Vec.new]⟩

def get? (r : Recycler α) (idx : Nat) : Option α := r.data.elems[idx]?.join

/-! ## The operations -/

/-- `store` without a free slot. -/
def pushed (r : Recycler α) (item : α) (growth : Growth) (h : r.free = []) : Recycler α where
  data := r.data.push (some item) growth
  free := []
  free_nodup := List.nodup_nil
  mem_free idx := by
    have hfull : r.data.elems[idx]? ≠ some none := fun hn => by
      simpa [h] using (r.mem_free idx).mpr hn
    rw [Vec.push_elems, List.getElem?_append]
    split
    · simpa using hfull
    · cases idx - r.data.elems.length <;> simp

/-- `store` into the slot on top of the free stack. -/
def refilled (r : Recycler α) (item : α) (idx : Nat) (rest : List Nat)
    (h : r.free = idx :: rest) : Recycler α where
  data := r.data.set idx (some item)
  free := rest
  free_nodup := (List.nodup_cons.mp (h ▸ r.free_nodup)).2
  mem_free other := by
    have hnotin : idx ∉ rest := (List.nodup_cons.mp (h ▸ r.free_nodup)).1
    have hmem := r.mem_free other
    rw [h, List.mem_cons] at hmem
    by_cases heq : idx = other
    · subst heq
      have hlt : idx < r.data.elems.length :=
        (List.getElem?_eq_some_iff.mp (hmem.mp (Or.inl rfl))).1
      simp [hnotin, hlt]
    · simpa [List.getElem?_set, heq, Ne.symm heq] using hmem

def store (r : Recycler α) (item : α) (growth : Growth) :
    Except RecyclerFault (Nat × Recycler α) :=
  match h : r.free with
  | idx :: rest =>
      match r.data.elems[idx]? with
      | none => .error .outOfBounds
      | some (some _) => .error .occupied
      | some none => .ok (idx, r.refilled item idx rest h)
  | [] => .ok (r.data.elems.length, r.pushed item growth h)

def released (r : Recycler α) (idx : Nat) (item : α) (h : r.data.elems[idx]? = some (some item)) :
    Recycler α where
  data := r.data.set idx none
  free := idx :: r.free
  free_nodup := by
    refine List.nodup_cons.mpr ⟨fun hmem => ?_, r.free_nodup⟩
    have := (r.mem_free idx).mp hmem
    simp [h] at this
  mem_free other := by
    have hlt : idx < r.data.elems.length := (List.getElem?_eq_some_iff.mp h).1
    have hmem := r.mem_free other
    by_cases heq : idx = other
    · subst heq
      simp [hlt]
    · simpa [List.getElem?_set, heq, Ne.symm heq] using hmem

/-- Take the item out of a slot, which may then be used for another one. -/
def release (r : Recycler α) (idx : Nat) : Except RecyclerFault (α × Recycler α) :=
  match h : r.data.elems[idx]? with
  | none => .error .outOfBounds
  | some none => .error .vacant
  | some (some item) => .ok (item, r.released idx item h)

def valid (r : Recycler α) (idx : Nat) : Bool := (r.get? idx).isSome

def len (r : Recycler α) : Except RecyclerFault Nat :=
  if r.free.length ≤ r.data.elems.length then .ok (r.data.elems.length - r.free.length)
  else .error .underflow

def isEmpty (r : Recycler α) : Except RecyclerFault Bool := return (← r.len) == 0

def index (r : Recycler α) (idx : Nat) : Except RecyclerFault α :=
  match r.data.elems[idx]? with
  | none => .error .outOfBounds
  | some none => .error .vacant
  | some (some item) => .ok item

/-- An indexed update of an occupied slot. -/
def updated (r : Recycler α) (idx : Nat) (old new : α)
    (h : r.data.elems[idx]? = some (some old)) : Recycler α where
  data := r.data.set idx (some new)
  free := r.free
  free_nodup := r.free_nodup
  mem_free other := by
    have hlt : idx < r.data.elems.length := (List.getElem?_eq_some_iff.mp h).1
    have hmem := r.mem_free other
    by_cases heq : idx = other
    · subst heq
      simp only [h, Option.some.injEq, reduceCtorEq, iff_false] at hmem
      simp [hlt, hmem]
    · simpa [List.getElem?_set, heq] using hmem

/-- An update through `IndexMut::index_mut`. -/
def modify (r : Recycler α) (idx : Nat) (f : α → α) : Except RecyclerFault (Recycler α) :=
  match h : r.data.elems[idx]? with
  | none => .error .outOfBounds
  | some none => .error .vacant
  | some (some item) => .ok (r.updated idx item (f item) h)

/-! ## What they do to the slots -/

theorem get?_eq_some {r : Recycler α} {idx : Nat} {item : α} :
    r.get? idx = some item ↔ r.data.elems[idx]? = some (some item) := by
  unfold get?
  cases r.data.elems[idx]? <;> simp

theorem get?_new (idx : Nat) : (new : Recycler α).get? idx = none := by
  simp [get?, new, Vec.new]

def relocates (r : Recycler α) (growth : Growth) : Bool :=
  r.free.isEmpty && r.data.relocates growth

/-- `r'` is `r` with the content of one slot replaced, in the same buffer. -/
structure Sets (r : Recycler α) (idx : Nat) (content : Option α) (r' : Recycler α) : Prop where
  get? (other : Nat) : r'.get? other = if other = idx then content else r.get? other
  buf : r'.data.buf = r.data.buf

/-- `r'` is `r` with an item stored into a slot that was vacant. -/
structure Stores (r : Recycler α) (item : α) (growth : Growth) (idx : Nat) (r' : Recycler α) :
    Prop where
  vacant : r.get? idx = none
  get? (other : Nat) : r'.get? other = if other = idx then some item else r.get? other
  buf : r'.data.buf = if r.relocates growth then r.data.buf + 1 else r.data.buf

/-- A storage whose slots come from writing one of another's is that storage with the slot set. -/
theorem Sets.of_elems {r r' : Recycler α} {idx : Nat} {content : Option α}
    (hlt : idx < r.data.elems.length) (helems : r'.data.elems = r.data.elems.set idx content)
    (hbuf : r'.data.buf = r.data.buf) : r.Sets idx content r' := by
  refine ⟨fun other => ?_, hbuf⟩
  by_cases heq : other = idx
  · subst heq
    simp [Recycler.get?, helems, hlt]
  · simp [Recycler.get?, helems, heq, Ne.symm heq]

/-- A view of the items that an update leaves alone. -/
theorem Sets.map_eq {β : Type*} {r r' : Recycler α} {idx : Nat} {old new : α} {f : α → β}
    (h : r.Sets idx (some new) r') (hget : r.get? idx = some old) (hf : f new = f old)
    (other : Nat) : (r'.get? other).map f = (r.get? other).map f := by
  rw [h.get? other]
  split
  · subst other
    simp [hget, hf]
  · rfl

theorem store_of_free {r : Recycler α} {idx : Nat} {rest : List Nat} (h : r.free = idx :: rest)
    (item : α) (growth : Growth) :
    r.store item growth = .ok (idx, r.refilled item idx rest h) := by
  have hnone : r.data.elems[idx]? = some none := (r.mem_free idx).mp (by simp [h])
  unfold store
  split
  · rename_i idx' rest' h'
    obtain ⟨rfl, rfl⟩ := List.cons.inj (h'.symm.trans h)
    rw [hnone]
  · rename_i h'
    cases h'.symm.trans h

theorem store_of_full {r : Recycler α} (h : r.free = []) (item : α) (growth : Growth) :
    r.store item growth = .ok (r.data.elems.length, r.pushed item growth h) := by
  unfold store
  split
  · rename_i h'
    cases h.symm.trans h'
  · rfl

/-- `store` never fails: it fills a slot that was vacant and touches no other. -/
theorem store_spec (r : Recycler α) (item : α) (growth : Growth) :
    ∃ idx r', r.store item growth = .ok (idx, r') ∧ r.Stores item growth idx r' := by
  cases h : r.free with
  | cons idx rest =>
      have hnone : r.data.elems[idx]? = some none := (r.mem_free idx).mp (by simp [h])
      have hlt : idx < r.data.elems.length := (List.getElem?_eq_some_iff.mp hnone).1
      have hset : r.Sets idx (some item) (r.refilled item idx rest h) := .of_elems hlt rfl rfl
      exact ⟨idx, _, store_of_free h item growth, by simp [Recycler.get?, hnone], hset.get?,
        by simp [refilled, relocates, h]⟩
  | nil =>
      refine ⟨r.data.elems.length, _, store_of_full h item growth, by simp [Recycler.get?],
        fun other => ?_, ?_⟩
      · by_cases heq : other = r.data.elems.length
        · subst heq
          simp [Recycler.get?, pushed]
        · rcases Nat.lt_or_gt_of_ne heq with hlt | hgt
          · simp [Recycler.get?, pushed, heq, List.getElem?_append_left hlt]
          · have h1 : (r.data.elems ++ [some item])[other]? = none :=
              List.getElem?_eq_none (by simp; omega)
            have h2 : r.data.elems[other]? = none := List.getElem?_eq_none (by omega)
            simp [Recycler.get?, pushed, heq, h1, h2]
      · simp [pushed, relocates, h, Vec.push_buf]

theorem store_ok {r r' : Recycler α} {item : α} {growth : Growth} {idx : Nat}
    (h : r.store item growth = .ok (idx, r')) : r.Stores item growth idx r' := by
  obtain ⟨i, s, hs, spec⟩ := r.store_spec item growth
  rw [hs] at h
  cases h
  exact spec

/-- The slot that the next `store` fills. -/
def next (r : Recycler α) : Nat := r.free.headD r.data.elems.length

theorem store_next {r r' : Recycler α} {item : α} {growth : Growth} {idx : Nat}
    (h : r.store item growth = .ok (idx, r')) : idx = r.next := by
  cases hfree : r.free with
  | cons top rest =>
      rw [store_of_free hfree] at h
      cases h
      simp [next, hfree]
  | nil =>
      rw [store_of_full hfree] at h
      cases h
      simp [next, hfree]

theorem get?_next (r : Recycler α) : r.get? r.next = none := by
  unfold next
  cases h : r.free with
  | nil => simp [get?]
  | cons top rest => simp [get?, (r.mem_free top).mp (by simp [h])]

theorem release_of_slot {r : Recycler α} {idx : Nat} {item : α}
    (h : r.data.elems[idx]? = some (some item)) :
    r.release idx = .ok (item, r.released idx item h) := by
  unfold release
  split
  · simp_all
  · simp_all
  · rename_i item' h'
    obtain rfl : item' = item := by simpa [h] using h'.symm
    rfl

theorem release_spec {r : Recycler α} {idx : Nat} {item : α} (h : r.get? idx = some item) :
    ∃ r', r.release idx = .ok (item, r') ∧ r.Sets idx none r' := by
  have hs := get?_eq_some.mp h
  have hlt : idx < r.data.elems.length := (List.getElem?_eq_some_iff.mp hs).1
  exact ⟨_, release_of_slot hs, .of_elems hlt rfl rfl⟩

theorem release_ok {r r' : Recycler α} {idx : Nat} {item : α}
    (h : r.release idx = .ok (item, r')) : r.get? idx = some item ∧ r.Sets idx none r' := by
  have hget : ∃ item', r.get? idx = some item' := by
    unfold release at h
    split at h
    · cases h
    · cases h
    · rename_i item' hs
      exact ⟨item', get?_eq_some.mpr hs⟩
  rcases hget with ⟨item', hget⟩
  obtain ⟨s, hs, spec⟩ := release_spec hget
  rw [hs] at h
  cases h
  exact ⟨hget, spec⟩

/-- `release` fails exactly on a slot without an item. -/
theorem release_error {r : Recycler α} {idx : Nat} {e : RecyclerFault}
    (h : r.release idx = .error e) : r.get? idx = none := by
  cases hget : r.get? idx with
  | none => rfl
  | some item =>
      obtain ⟨s, hs, _⟩ := release_spec hget
      simp [hs] at h

theorem index_eq_ok {r : Recycler α} {idx : Nat} {item : α} :
    r.index idx = .ok item ↔ r.get? idx = some item := by
  rw [get?_eq_some]
  unfold index
  split <;> simp_all

theorem index_of_none {r : Recycler α} {idx : Nat} (h : r.get? idx = none) :
    ∃ e, r.index idx = .error e := by
  cases hidx : r.index idx with
  | error e => exact ⟨e, rfl⟩
  | ok item => simp [index_eq_ok.mp hidx] at h

theorem modify_of_slot {r : Recycler α} {idx : Nat} {item : α}
    (h : r.data.elems[idx]? = some (some item)) (g : α → α) :
    r.modify idx g = .ok (r.updated idx item (g item) h) := by
  unfold modify
  split
  · simp_all
  · simp_all
  · rename_i item' h'
    obtain rfl : item' = item := by simpa [h] using h'.symm
    rfl

theorem modify_spec {r : Recycler α} {idx : Nat} {item : α} (f : α → α)
    (h : r.get? idx = some item) :
    ∃ r', r.modify idx f = .ok r' ∧ r.Sets idx (some (f item)) r' := by
  have hs := get?_eq_some.mp h
  have hlt : idx < r.data.elems.length := (List.getElem?_eq_some_iff.mp hs).1
  exact ⟨_, modify_of_slot hs f, .of_elems hlt rfl rfl⟩

theorem modify_ok {r r' : Recycler α} {idx : Nat} {f : α → α} (h : r.modify idx f = .ok r') :
    ∃ item, r.get? idx = some item ∧ r.Sets idx (some (f item)) r' := by
  have hget : ∃ item, r.get? idx = some item := by
    unfold modify at h
    split at h
    · cases h
    · cases h
    · rename_i item hs
      exact ⟨item, get?_eq_some.mpr hs⟩
  rcases hget with ⟨item, hget⟩
  obtain ⟨s, hs, spec⟩ := modify_spec f hget
  rw [hs] at h
  cases h
  exact ⟨item, hget, spec⟩

theorem release_of_none {r : Recycler α} {idx : Nat} (h : r.get? idx = none) :
    ∃ e, r.release idx = .error e := by
  cases hrel : r.release idx with
  | error e => exact ⟨e, rfl⟩
  | ok out => simp [(release_ok hrel).1] at h

theorem modify_of_none {r : Recycler α} {idx : Nat} {f : α → α} (h : r.get? idx = none) :
    ∃ e, r.modify idx f = .error e := by
  cases hmod : r.modify idx f with
  | error e => exact ⟨e, rfl⟩
  | ok r' =>
      obtain ⟨item, hitem, _⟩ := modify_ok hmod
      simp [hitem] at h

/-- There are never more free slots than slots. -/
theorem free_length_le (r : Recycler α) : r.free.length ≤ r.data.elems.length := by
  have hsub : r.free ⊆ List.range r.data.elems.length := by
    intro idx hidx
    have := (List.getElem?_eq_some_iff.mp ((r.mem_free idx).mp hidx)).1
    simpa using this
  simpa using (List.Nodup.subperm r.free_nodup hsub).length_le

theorem len_spec (r : Recycler α) :
    r.len = .ok (r.data.elems.length - r.free.length) := by
  simp [len, r.free_length_le]

end Recycler

end Eveboros
