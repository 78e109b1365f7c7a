import Mathlib.Data.List.Nodup

/-!
# Taking turns

Members of a queue take turns: whoever joins stands at the back, even if it was there before, and
only the front is served.  What the histories of such a queue have in common is that nobody is
served twice while another one keeps waiting.  Histories are written newest first.
-/

universe u

namespace Rotation

inductive Event (α : Type u)
  | join (a : α)
  | leave (a : α)
  | serve (a : α)
  deriving DecidableEq, Repr

variable {α : Type u}

/-- By its history, the member has joined and was neither served nor left since. -/
def Awaits (a : α) (history : List (Event α)) : Prop :=
  ∃ newer older, history = newer ++ .join a :: older ∧ .serve a ∉ newer ∧ .leave a ∉ newer

theorem not_awaits_nil (a : α) : ¬Awaits a [] := by
  rintro ⟨newer, older, h, _⟩
  simp at h

theorem awaits_cons {a : α} {e : Event α} {history : List (Event α)} :
    Awaits a (e :: history) ↔
      e = .join a ∨ (e ≠ .serve a ∧ e ≠ .leave a ∧ Awaits a history) := by
  constructor
  · rintro ⟨newer, older, h, hserve, hleave⟩
    cases newer with
    | nil =>
        cases h
        exact .inl rfl
    | cons e' newer =>
        obtain ⟨rfl, rfl⟩ := List.cons.inj h
        simp only [List.mem_cons, not_or] at hserve hleave
        exact .inr ⟨Ne.symm hserve.1, Ne.symm hleave.1, newer, older, rfl, hserve.2, hleave.2⟩
  · rintro (rfl | ⟨hserve, hleave, newer, older, rfl, hserves, hleaves⟩)
    · exact ⟨[], history, rfl, by simp, by simp⟩
    · exact ⟨e :: newer, older, rfl, by simp [hserves, Ne.symm hserve],
        by simp [hleaves, Ne.symm hleave]⟩

variable [DecidableEq α]

/-- The history ends with this queue; only the front is ever served. -/
inductive Run : List (Event α) → List α → Prop
  | start : Run [] []
  | join {history : List (Event α)} {queue : List α} (a : α) :
      Run history queue → Run (.join a :: history) (queue.erase a ++ [a])
  | leave {history : List (Event α)} {queue : List α} (a : α) :
      Run history queue → Run (.leave a :: history) (queue.erase a)
  | serve {history : List (Event α)} {queue : List α} {a : α} :
      Run history (a :: queue) → Run (.serve a :: history) queue

namespace Run

variable {history older : List (Event α)} {queue : List α} {a b : α}

theorem nodup (h : Run history queue) : queue.Nodup := by
  induction h with
  | start => exact List.nodup_nil
  | @join history queue a _ ih =>
      refine List.nodup_append.mpr ⟨ih.erase a, List.nodup_singleton a, ?_⟩
      intro b hb c hc
      obtain rfl := List.mem_singleton.mp hc
      exact (ih.mem_erase_iff.mp hb).1
  | leave a _ ih => exact ih.erase a
  | serve _ ih => exact (List.nodup_cons.mp ih).2

/-- Those who wait are those in the queue. -/
theorem awaits_iff (h : Run history queue) (a : α) : Awaits a history ↔ a ∈ queue := by
  induction h with
  | start => simp [not_awaits_nil]
  | @join history queue b h ih =>
      rw [awaits_cons, ih, List.mem_append, h.nodup.mem_erase_iff, List.mem_singleton]
      by_cases hb : a = b
      · simp [hb]
      · simp [hb, Ne.symm hb]
  | leave b h ih =>
      rw [awaits_cons, ih, h.nodup.mem_erase_iff]
      simp [eq_comm]
  | @serve history queue b h ih =>
      rw [awaits_cons, ih, List.mem_cons]
      have hnot := (List.nodup_cons.mp h.nodup).1
      by_cases hb : a = b
      · simp [hb, hnot]
      · simp [hb, Ne.symm hb]

/-- Whoever is served has been waiting. -/
theorem served_waits (h : Run (.serve a :: history) queue) : Awaits a history := by
  cases h with
  | serve h => exact (h.awaits_iff a).mpr List.mem_cons_self

/-- `a` is in the queue, and `b` is not in front of it. -/
def Precedes (a b : α) (queue : List α) : Prop :=
  ∃ front back, queue = front ++ a :: back ∧ b ∉ front

theorem Precedes.erase {c : α} (p : Precedes a b queue) (hc : c ≠ a) :
    Precedes a b (queue.erase c) := by
  obtain ⟨front, back, rfl, hnot⟩ := p
  by_cases hmem : c ∈ front
  · refine ⟨front.erase c, back, List.erase_append_left _ hmem, ?_⟩
    exact fun hb => hnot (List.mem_of_mem_erase hb)
  · refine ⟨front, back.erase c, ?_, hnot⟩
    rw [List.erase_append_right _ hmem, List.erase_cons_tail (by simpa using Ne.symm hc)]

/-- A member that was waiting when another one was served comes before that one, as long as it
stays in the queue and does not join again. -/
theorem precedes_after_served {newer : List (Event α)} (hne : a ≠ b)
    (h : Run (newer ++ .serve b :: older) queue) (hwaits : Awaits a older)
    (hjoin : .join a ∉ newer) (hserve : .serve a ∉ newer) (hleave : .leave a ∉ newer) :
    Precedes a b queue := by
  induction newer generalizing queue with
  | nil =>
      cases h with
      | serve h =>
          have hmem := (h.awaits_iff a).mp hwaits
          obtain ⟨front, back, hqueue⟩ := List.append_of_mem (List.mem_of_ne_of_mem hne hmem)
          have hnot := (List.nodup_cons.mp h.nodup).1
          rw [hqueue] at hnot ⊢
          exact ⟨front, back, rfl, fun hb => hnot (List.mem_append_left _ hb)⟩
  | cons e newer ih =>
      simp only [List.mem_cons, not_or] at hjoin hserve hleave
      cases h with
      | join c h =>
          have hc : c ≠ a := fun heq => hjoin.1 (heq ▸ rfl)
          obtain ⟨front, back, hqueue, hnot⟩ := (ih h hjoin.2 hserve.2 hleave.2).erase hc
          exact ⟨front, back ++ [c], by simp [hqueue], hnot⟩
      | leave c h =>
          have hc : c ≠ a := fun heq => hleave.1 (heq ▸ rfl)
          exact (ih h hjoin.2 hserve.2 hleave.2).erase hc
      | @serve _ _ c h =>
          have hc : c ≠ a := fun heq => hserve.1 (heq ▸ rfl)
          obtain ⟨front, back, hqueue, hnot⟩ := ih h hjoin.2 hserve.2 hleave.2
          -- The one served was in front of `a`, and is not `b` for that reason.
          cases front with
          | nil => exact absurd (List.cons.inj hqueue).1 hc
          | cons d front =>
              obtain ⟨rfl, rfl⟩ := List.cons.inj hqueue
              exact ⟨front, back, rfl, fun hb => hnot (List.mem_cons_of_mem _ hb)⟩

/-- Between two turns of one member, another one that waits at the first and does not join again
gets its turn or leaves. -/
theorem turn_between {newer : List (Event α)} (hne : a ≠ b)
    (h : Run (.serve b :: newer ++ .serve b :: older) queue) (hwaits : Awaits a older)
    (hjoin : .join a ∉ newer) : .serve a ∈ newer ∨ .leave a ∈ newer := by
  by_contra hnone
  rw [not_or] at hnone
  cases h with
  | serve h =>
      obtain ⟨front, back, hqueue, hnot⟩ :=
        precedes_after_served hne h hwaits hjoin hnone.1 hnone.2
      cases front with
      | nil => exact hne (List.cons.inj hqueue).1.symm
      | cons c front =>
          obtain ⟨rfl, _⟩ := List.cons.inj hqueue
          exact hnot List.mem_cons_self

end Run

end Rotation
