import Mathlib.Data.List.Perm.Basic
import Mathlib.Data.List.Nodup

/-!
# Finite sets kept as lists

A `ListSet` is a list that carries the proof that it has no repetitions.  It serves both as a
hash set, where the order of the list stands for an iteration order that nothing may rely on
(`reorder` replaces it by any other), and as the key set of a linked hash map, where the order is
the order of insertion (`pushBack`, `popFront`).
-/

universe u

structure ListSet (α : Type u) where
  toList : List α
  nodup : toList.Nodup

namespace ListSet

variable {α : Type u}

instance : Membership α (ListSet α) := ⟨fun s a => a ∈ s.toList⟩

theorem mem_def {s : ListSet α} {a : α} : a ∈ s ↔ a ∈ s.toList := Iff.rfl

instance [DecidableEq α] (a : α) (s : ListSet α) : Decidable (a ∈ s) :=
  inferInstanceAs (Decidable (a ∈ s.toList))

def empty : ListSet α := ⟨[], List.nodup_nil⟩

instance : EmptyCollection (ListSet α) := ⟨empty⟩

@[simp] theorem toList_empty : (∅ : ListSet α).toList = [] := rfl

@[simp] theorem not_mem_empty (a : α) : a ∉ (∅ : ListSet α) := by
  simp [mem_def]

def reorder (s : ListSet α) (order : List α) (h : order.Perm s.toList) : ListSet α :=
  ⟨order, h.nodup_iff.mpr s.nodup⟩

@[simp] theorem mem_reorder {s : ListSet α} {order : List α} {h : order.Perm s.toList} {a : α} :
    a ∈ s.reorder order h ↔ a ∈ s := h.mem_iff

/-- Take the oldest element out. -/
def popFront (s : ListSet α) : Option (α × ListSet α) :=
  match s with
  | ⟨[], _⟩ => none
  | ⟨a :: rest, h⟩ => some (a, ⟨rest, (List.nodup_cons.mp h).2⟩)

theorem toList_of_popFront {s rest : ListSet α} {a : α} (h : s.popFront = some (a, rest)) :
    s.toList = a :: rest.toList := by
  rcases s with ⟨_ | ⟨b, l⟩, hnd⟩
  · simp [popFront] at h
  · simp only [popFront, Option.some.injEq, Prod.mk.injEq] at h
    rcases h with ⟨rfl, rfl⟩
    rfl

theorem mem_of_popFront {s rest : ListSet α} {a b : α} (h : s.popFront = some (a, rest)) :
    b ∈ s ↔ b = a ∨ b ∈ rest := by
  simp [mem_def, toList_of_popFront h]

variable [DecidableEq α]

/-- Add an element; one that is present stays where it is. -/
def insert (s : ListSet α) (a : α) : ListSet α := ⟨s.toList.insert a, s.nodup.insert⟩

@[simp] theorem mem_insert {s : ListSet α} {a b : α} : b ∈ s.insert a ↔ b = a ∨ b ∈ s :=
  List.mem_insert_iff

def erase (s : ListSet α) (a : α) : ListSet α := ⟨s.toList.erase a, s.nodup.erase a⟩

@[simp] theorem mem_erase {s : ListSet α} {a b : α} : b ∈ s.erase a ↔ b ≠ a ∧ b ∈ s :=
  s.nodup.mem_erase_iff

/-- Add an element at the back; one that is present moves there. -/
def pushBack (s : ListSet α) (a : α) : ListSet α :=
  ⟨s.toList.erase a ++ [a], by
    refine List.nodup_append.mpr ⟨s.nodup.erase a, List.nodup_singleton a, ?_⟩
    intro b hb c hc
    obtain rfl := List.mem_singleton.mp hc
    exact (s.nodup.mem_erase_iff.mp hb).1⟩

@[simp] theorem mem_pushBack {s : ListSet α} {a b : α} : b ∈ s.pushBack a ↔ b = a ∨ b ∈ s := by
  simp only [pushBack, mem_def, List.mem_append, List.mem_singleton, s.nodup.mem_erase_iff]
  tauto

def insertAll (s : ListSet α) (as : List α) : ListSet α := as.foldl insert s

@[simp] theorem insertAll_nil (s : ListSet α) : s.insertAll [] = s := rfl

@[simp] theorem mem_insertAll {s : ListSet α} {as : List α} {b : α} :
    b ∈ s.insertAll as ↔ b ∈ as ∨ b ∈ s := by
  induction as generalizing s with
  | nil => simp
  | cons a as ih =>
      simp only [insertAll, List.foldl_cons, List.mem_cons] at ih ⊢
      rw [ih, mem_insert]
      tauto

end ListSet
