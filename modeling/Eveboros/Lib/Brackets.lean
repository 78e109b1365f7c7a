import Mathlib.Init

/-!
# Bracketed lists

Some letters open a bracket and some close one.  The surface of a list is what stands outside all
brackets, with the outermost brackets themselves.
-/

namespace Brackets

universe u

variable {α : Type u} (opens closes : α → Bool)

/-- How many brackets are open after the list. -/
def depthAfter : Nat → List α → Nat
  | depth, [] => depth
  | depth, a :: as =>
      if opens a then depthAfter (depth + 1) as
      else if closes a then depthAfter (depth - 1) as
      else depthAfter depth as

/-- The letters at depth 0, where `depth` brackets are open before the list. -/
def surface : Nat → List α → List α
  | _, [] => []
  | depth, a :: as =>
      if opens a then (if depth = 0 then [a] else []) ++ surface (depth + 1) as
      else if closes a then (if depth ≤ 1 then [a] else []) ++ surface (depth - 1) as
      else (if depth = 0 then [a] else []) ++ surface depth as

theorem depthAfter_append (depth : Nat) (as bs : List α) :
    depthAfter opens closes depth (as ++ bs) =
      depthAfter opens closes (depthAfter opens closes depth as) bs := by
  induction as generalizing depth with
  | nil => rfl
  | cons a as ih =>
      simp only [List.cons_append, depthAfter]
      split
      · exact ih _
      · split <;> exact ih _

theorem surface_append (depth : Nat) (as bs : List α) :
    surface opens closes depth (as ++ bs) =
      surface opens closes depth as ++
        surface opens closes (depthAfter opens closes depth as) bs := by
  induction as generalizing depth with
  | nil => rfl
  | cons a as ih =>
      simp only [List.cons_append, surface, depthAfter]
      split
      · rw [ih, List.append_assoc]
      · split <;> rw [ih, List.append_assoc]

/-- A piece that closes what it opens, and nothing else. -/
def Level (as : List α) : Prop :=
  ∀ depth, depthAfter opens closes depth as = depth ∧ surface opens closes (depth + 1) as = []

variable {opens closes} {as bs : List α} {a b : α}

theorem level_nil : Level opens closes ([] : List α) := fun _ => ⟨rfl, rfl⟩

theorem level_plain (hopen : opens a = false) (hclose : closes a = false) :
    Level opens closes [a] := by
  intro depth
  simp [depthAfter, surface, hopen, hclose]

theorem Level.append (ha : Level opens closes as) (hb : Level opens closes bs) :
    Level opens closes (as ++ bs) := by
  intro depth
  rw [depthAfter_append, surface_append, (ha depth).1, (ha (depth + 1)).1, (ha depth).2,
    (hb depth).2]
  exact ⟨(hb depth).1, rfl⟩

theorem Level.surface_append (ha : Level opens closes as) (bs : List α) :
    surface opens closes 0 (as ++ bs) = surface opens closes 0 as ++ surface opens closes 0 bs := by
  rw [Brackets.surface_append, (ha 0).1]

theorem surface_plain (hopen : opens a = false) (hclose : closes a = false) (as : List α) :
    surface opens closes 0 (a :: as) = a :: surface opens closes 0 as := by
  simp [surface, hopen, hclose]

section Bracket

variable (ha : opens a = true) (hb : opens b = false) (hb' : closes b = true)
  (has : Level opens closes as)

include ha hb hb' has

theorem level_bracket : Level opens closes (a :: as ++ [b]) := by
  intro depth
  simp only [List.cons_append, depthAfter, surface, ha, ↓reduceIte, Nat.add_one_ne_zero,
    List.nil_append]
  rw [depthAfter_append, Brackets.surface_append, (has _).1, (has _).1, (has _).2]
  simp [depthAfter, surface, hb, hb']

/-- Of a bracket only its ends are on the surface. -/
theorem surface_bracket : surface opens closes 0 (a :: as ++ [b]) = [a, b] := by
  simp only [List.cons_append, surface, ha, ↓reduceIte]
  rw [Brackets.surface_append, (has _).1, (has 0).2]
  simp [surface, hb, hb']

end Bracket

end Brackets
