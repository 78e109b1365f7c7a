import Mathlib.Data.List.MinMax
import Mathlib.Data.List.Sort

/-!
# Priority heaps as lists

A heap that hands out an element with the greatest key first.  Its content is a list; of several
elements with the greatest key the first in the list sits at the root, so a permutation of the
list stands for every order in which a real heap may hold them.
-/

namespace PriorityHeap

variable {α κ : Type*} [LinearOrder κ] (key : α → κ)

def peek (heap : List α) : Option α := heap.argmax key

variable {key}

theorem peek_mem {heap : List α} {root : α} (h : peek key heap = some root) : root ∈ heap :=
  List.argmax_mem h

theorem le_peek {heap : List α} {root a : α} (h : peek key heap = some root) (ha : a ∈ heap) :
    key a ≤ key root := List.le_of_mem_argmax ha h

theorem peek_eq_none {heap : List α} : peek key heap = none ↔ heap = [] := List.argmax_eq_none

variable [DecidableEq α] (key)

/-- Pop as long as the root satisfies `p`; the fuel is the number of elements at most popped. -/
def popWhileFuel (p : α → Bool) : Nat → List α → List α × List α
  | 0, heap => ([], heap)
  | fuel + 1, heap =>
      match peek key heap with
      | none => ([], heap)
      | some root =>
          if p root then
            let rest := popWhileFuel p fuel (heap.erase root)
            (root :: rest.1, rest.2)
          else ([], heap)

/-- `while heap.peek().map_or(false, p) { heap.pop() }`: what was popped, in order, and what is
left. -/
def popWhile (p : α → Bool) (heap : List α) : List α × List α :=
  popWhileFuel key p heap.length heap

variable {key}

variable (key) in
/-- One round of the loop. -/
theorem popWhileFuel_cases (p : α → Bool) (fuel : Nat) (heap : List α) :
    (popWhileFuel key p (fuel + 1) heap = ([], heap) ∧
        ∀ root, peek key heap = some root → p root = false) ∨
      ∃ root, peek key heap = some root ∧ p root = true ∧
        popWhileFuel key p (fuel + 1) heap =
          (root :: (popWhileFuel key p fuel (heap.erase root)).1,
            (popWhileFuel key p fuel (heap.erase root)).2) := by
  cases hroot : peek key heap with
  | none => exact .inl ⟨by simp [popWhileFuel, hroot], by simp⟩
  | some root =>
      cases hp : p root with
      | false => exact .inl ⟨by simp [popWhileFuel, hroot, hp], by simp [hp]⟩
      | true => exact .inr ⟨root, rfl, hp, by simp [popWhileFuel, hroot, hp]⟩

theorem popWhileFuel_perm (p : α → Bool) (fuel : Nat) (heap : List α) :
    ((popWhileFuel key p fuel heap).1 ++ (popWhileFuel key p fuel heap).2).Perm heap := by
  induction fuel generalizing heap with
  | zero => exact .refl _
  | succ fuel ih =>
      rcases popWhileFuel_cases key p fuel heap with ⟨h, _⟩ | ⟨root, hroot, _, h⟩
      · simp [h]
      · rw [h]
        exact ((ih (heap.erase root)).cons root).trans (List.perm_cons_erase (peek_mem hroot)).symm

/-- Nothing is lost or duplicated. -/
theorem popWhile_perm (p : α → Bool) (heap : List α) :
    ((popWhile key p heap).1 ++ (popWhile key p heap).2).Perm heap :=
  popWhileFuel_perm p heap.length heap

theorem popWhileFuel_popped (p : α → Bool) (fuel : Nat) (heap : List α) :
    ∀ a ∈ (popWhileFuel key p fuel heap).1, p a = true := by
  induction fuel generalizing heap with
  | zero => simp [popWhileFuel]
  | succ fuel ih =>
      rcases popWhileFuel_cases key p fuel heap with ⟨h, _⟩ | ⟨root, _, hp, h⟩
      · simp [h]
      · rw [h]
        exact List.forall_mem_cons.mpr ⟨hp, ih (heap.erase root)⟩

theorem popWhile_popped (p : α → Bool) (heap : List α) :
    ∀ a ∈ (popWhile key p heap).1, p a = true :=
  popWhileFuel_popped p heap.length heap

theorem popWhileFuel_root (p : α → Bool) (fuel : Nat) (heap : List α)
    (hfuel : heap.length ≤ fuel) {root : α}
    (hroot : peek key (popWhileFuel key p fuel heap).2 = some root) : p root = false := by
  induction fuel generalizing heap with
  | zero =>
      have hnil : heap = [] := List.length_eq_zero_iff.mp (Nat.le_zero.mp hfuel)
      simp [popWhileFuel, hnil, peek] at hroot
  | succ fuel ih =>
      rcases popWhileFuel_cases key p fuel heap with ⟨h, hstop⟩ | ⟨r, hr, _, h⟩
      · exact hstop root (by simpa [h] using hroot)
      · refine ih (heap.erase r) ?_ (by simpa [h] using hroot)
        have := List.length_erase_of_mem (peek_mem hr)
        omega

/-- The loop stops only at a root that fails the test. -/
theorem popWhile_root (p : α → Bool) (heap : List α) {root : α}
    (hroot : peek key (popWhile key p heap).2 = some root) : p root = false :=
  popWhileFuel_root p heap.length heap (le_refl _) hroot

theorem popWhileFuel_sorted (p : α → Bool) (fuel : Nat) (heap : List α) :
    (popWhileFuel key p fuel heap).1.Pairwise (fun a b => key b ≤ key a) := by
  induction fuel generalizing heap with
  | zero => simp [popWhileFuel]
  | succ fuel ih =>
      rcases popWhileFuel_cases key p fuel heap with ⟨h, _⟩ | ⟨root, hroot, _, h⟩
      · simp [h]
      · rw [h]
        refine List.pairwise_cons.mpr ⟨fun a ha => ?_, ih (heap.erase root)⟩
        have hmem : a ∈ heap.erase root :=
          (popWhileFuel_perm p fuel (heap.erase root)).subset (List.mem_append_left _ ha)
        exact le_peek hroot (List.mem_of_mem_erase hmem)

/-- Elements are popped in the order of their keys, greatest first. -/
theorem popWhile_sorted (p : α → Bool) (heap : List α) :
    (popWhile key p heap).1.Pairwise (fun a b => key b ≤ key a) :=
  popWhileFuel_sorted p heap.length heap

/-- A test that depends on the key alone, and that greater keys pass as soon as smaller ones do,
splits the heap exactly: what passes is popped, what fails is left. -/
theorem popWhile_rest_of_upward (p : α → Bool) (heap : List α)
    (upward : ∀ a b, key a ≤ key b → p a = true → p b = true) :
    ∀ a ∈ (popWhile key p heap).2, p a = false := by
  intro a ha
  cases hroot : peek key (popWhile key p heap).2 with
  | none => simp [peek_eq_none.mp hroot] at ha
  | some root =>
      have hstop := popWhile_root p heap hroot
      by_contra hpa
      have := upward a root (le_peek hroot ha) (by simpa using hpa)
      simp [hstop] at this

end PriorityHeap
