import Mathlib.Data.List.Nodup
import Mathlib.Order.Lattice

/-!
# Earliest deadline first, through a queue

Entries wait in a heap until they are due, then in a queue behind those that were due before, and
are served from there.  Entries may be withdrawn at any time.  Still no entry overtakes one with an
earlier deadline that once waited beside it.
-/

universe u v w

structure Agenda (τ : Type u) (κ : Type v) where
  heap : List τ
  /-- The names of the entries that were due, first to be served first. -/
  queue : List κ
  served : List κ
  /-- The names that have been given out. -/
  known : List κ

namespace Agenda

variable {τ : Type u} {κ : Type v} {δ : Type w} [LinearOrder δ] {name : τ → κ} {deadline : τ → δ}

variable (name deadline) in
inductive Move (s : Agenda τ κ) : Agenda τ κ → Prop
  | joined (t : τ) (hnew : name t ∉ s.known) :
      Move s { s with heap := t :: s.heap, known := name t :: s.known }
  | withdrawn (heap : List τ) (queue : List κ) (hheap : heap ⊆ s.heap)
      (hqueue : queue.Sublist s.queue) : Move s { s with heap := heap, queue := queue }
  | came (due rest : List τ) (now : δ) (hheap : (due ++ rest).Perm s.heap)
      (hsorted : due.Pairwise fun t t' => deadline t ≤ deadline t')
      (hdue : ∀ t ∈ due, deadline t ≤ now) (hrest : ∀ t ∈ rest, now < deadline t) :
      Move s { s with heap := rest, queue := s.queue ++ due.map name }
  | left (k : κ) (queue : List κ) (hqueue : s.queue = k :: queue) :
      Move s { s with queue := queue, served := k :: s.served }

variable (name) in
def Waits (s : Agenda τ κ) (t : τ) : Prop := t ∈ s.heap ∨ name t ∈ s.queue

variable (name) in
/-- The entry that is known under this name, if any of the heap is. -/
structure Owns (s : Agenda τ κ) (t : τ) : Prop where
  known : name t ∈ s.known
  unique : ∀ t' ∈ s.heap, name t' = name t → t' = t

variable (name) in
/-- As long as the early entry waits, the late one is behind it. -/
structure InOrder (early late : τ) (s : Agenda τ κ) : Prop where
  ownsEarly : s.Owns name early
  ownsLate : s.Owns name late
  heap : early ∈ s.heap → name late ∉ s.queue
  queue : s.queue.Pairwise fun k k' => ¬(k = name late ∧ k' = name early)
  served : name late ∈ s.served → ¬s.Waits name early

variable {s s' : Agenda τ κ} {early late t : τ}

theorem Owns.move (o : s.Owns name t) (m : Move name deadline s s') : s'.Owns name t := by
  cases m with
  | joined t₁ hnew =>
      refine ⟨List.mem_cons_of_mem _ o.known, fun t' hmem hname => ?_⟩
      rcases List.mem_cons.mp hmem with rfl | hold
      · exact absurd (hname ▸ o.known) hnew
      · exact o.unique t' hold hname
  | withdrawn heap queue hheap hqueue => exact ⟨o.known, fun t' hmem => o.unique t' (hheap hmem)⟩
  | came due rest now hheap =>
      exact ⟨o.known, fun t' hmem => o.unique t' (hheap.subset (List.mem_append_right _ hmem))⟩
  | left k queue hqueue => exact ⟨o.known, o.unique⟩

/-- Two entries that wait in the heap have their order ahead of them. -/
theorem InOrder.of_heap (hearly : early ∈ s.heap) (hlate : late ∈ s.heap)
    (hknown : ∀ t ∈ s.heap, name t ∈ s.known) (hnodup : (s.heap.map name).Nodup)
    (hqueue : name late ∉ s.queue) (hserved : name late ∉ s.served) :
    InOrder name early late s where
  ownsEarly := ⟨hknown early hearly, fun _ hmem hname =>
    List.inj_on_of_nodup_map hnodup hmem hearly hname⟩
  ownsLate := ⟨hknown late hlate, fun _ hmem hname =>
    List.inj_on_of_nodup_map hnodup hmem hlate hname⟩
  heap _ := hqueue
  queue := List.pairwise_of_forall_mem_list fun _ hk _ _ hback => hqueue (hback.1 ▸ hk)
  served hback := absurd hback hserved

/-- What is due comes from the heap. -/
theorem Owns.mem_due (o : s.Owns name t) {due rest : List τ} (hheap : (due ++ rest).Perm s.heap)
    (hmem : name t ∈ due.map name) : t ∈ due := by
  obtain ⟨t', hdue, hname⟩ := List.mem_map.mp hmem
  rwa [← o.unique t' (hheap.subset (List.mem_append_left _ hdue)) hname]

theorem InOrder.came (q : InOrder name early late s) (hlt : deadline early < deadline late)
    {due rest : List τ} {now : δ} (hheap : (due ++ rest).Perm s.heap)
    (hsorted : due.Pairwise fun t t' => deadline t ≤ deadline t')
    (hdue : ∀ t ∈ due, deadline t ≤ now) (hrest : ∀ t ∈ rest, now < deadline t)
    (m : Move name deadline s { s with heap := rest, queue := s.queue ++ due.map name }) :
    InOrder name early late { s with heap := rest, queue := s.queue ++ due.map name } where
  ownsEarly := q.ownsEarly.move m
  ownsLate := q.ownsLate.move m
  heap hearly hlate := by
    rcases List.mem_append.mp hlate with hold | hcame
    · exact q.heap (hheap.subset (List.mem_append_right _ hearly)) hold
    · have hbefore := hdue late (q.ownsLate.mem_due hheap hcame)
      exact absurd (hlt.trans_le hbefore) (hrest early hearly).not_gt
  queue := by
    refine List.pairwise_append.mpr ⟨q.queue, ?_, ?_⟩
    · rw [List.pairwise_map]
      refine hsorted.imp_of_mem ?_
      rintro t t' ht ht' hle ⟨hlate, hearly⟩
      rw [q.ownsLate.unique t (hheap.subset (List.mem_append_left _ ht)) hlate,
        q.ownsEarly.unique t' (hheap.subset (List.mem_append_left _ ht')) hearly] at hle
      exact absurd hlt hle.not_gt
    · rintro k hk k' hk' ⟨rfl, rfl⟩
      have hearly := q.ownsEarly.mem_due hheap hk'
      exact q.heap (hheap.subset (List.mem_append_left _ hearly)) hk
  served hserved hwaits := by
    refine q.served hserved ?_
    rcases hwaits with hmem | hmem
    · exact .inl (hheap.subset (List.mem_append_right _ hmem))
    · rcases List.mem_append.mp hmem with hold | hcame
      · exact .inr hold
      · exact .inl (hheap.subset (List.mem_append_left _ (q.ownsEarly.mem_due hheap hcame)))

theorem InOrder.move (q : InOrder name early late s) (hlt : deadline early < deadline late)
    (m : Move name deadline s s') : InOrder name early late s' := by
  have hearly := q.ownsEarly.move m
  have hlate := q.ownsLate.move m
  cases m with
  | joined t hnew =>
      have hne : early ≠ t := by
        rintro rfl
        exact hnew q.ownsEarly.known
      have hold : early ∈ t :: s.heap → early ∈ s.heap := fun hmem =>
        (List.mem_cons.mp hmem).resolve_left hne
      exact ⟨hearly, hlate, fun hmem => q.heap (hold hmem), q.queue,
        fun hserved hwaits => q.served hserved (hwaits.imp_left hold)⟩
  | withdrawn heap queue hheap hqueue =>
      exact ⟨hearly, hlate, fun hmem hlate => q.heap (hheap hmem) (hqueue.subset hlate),
        q.queue.sublist hqueue, fun hserved hwaits =>
          q.served hserved (hwaits.imp (fun hmem => hheap hmem) fun hmem => hqueue.subset hmem)⟩
  | came due rest now hheap hsorted hdue hrest =>
      exact q.came hlt hheap hsorted hdue hrest (.came due rest now hheap hsorted hdue hrest)
  | left k queue hqueue =>
      have hpair := hqueue ▸ q.queue
      have hback : name early ∈ queue → name early ∈ s.queue := fun hmem =>
        hqueue ▸ List.mem_cons_of_mem k hmem
      refine ⟨hearly, hlate, fun hmem hlate => q.heap hmem (hqueue ▸ List.mem_cons_of_mem k hlate),
        (List.pairwise_cons.mp hpair).2, fun hserved hwaits => ?_⟩
      rcases List.mem_cons.mp hserved with rfl | hserved
      · rcases hwaits with hmem | hmem
        · exact q.heap hmem (hqueue ▸ List.mem_cons_self)
        · exact (List.pairwise_cons.mp hpair).1 _ hmem ⟨rfl, rfl⟩
      · exact q.served hserved (hwaits.imp_right hback)

end Agenda
