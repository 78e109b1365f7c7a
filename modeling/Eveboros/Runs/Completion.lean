import Eveboros.Runs.Emptiness

/-!
# Waiting for the completion of an event

`run_until_complete` refuses to wait for an event inside a callback, and it looks only once.  That
is enough, and while it waits, or inside of any callback, the loop is never empty.
-/

namespace Eveboros.Config

open Loop TransitionSystem

variable {Ev : Type} {c c' : Config Ev} {a : Action Ev}

/-! ## The last step of an operation -/

/-- Only a return takes the frame of an operation off the stack. -/
theorem step_pops {frame : Frame} {rest : List Frame} (hstack : c.stack = frame :: rest)
    (hframe : frame.callee = none) (h : c.step a = .ok c') (hpop : c'.stack = rest) :
    a = .tick ∧ ∃ result, c.ctl = .ret result := by
  have hlen : c'.stack.length + 1 = c.stack.length := by rw [hpop, hstack, List.length_cons]
  by_cases hg : ∃ env, a = .gather env
  · rcases hg with ⟨env, rfl⟩
    rw [gather_frame Config.stack (fun _ _ => Edit.stack_of_gather) h] at hlen
    omega
  have e := step_edit h (not_exists.mp hg)
  cases e with
  | gaveBack frame' rest' result ans ha hctl => exact ⟨ha, result, hctl⟩
  | finished handle cb data rest' event resp holder events ha hctl hstack' =>
      rw [hstack] at hstack'
      cases hstack'
      cases hframe
  | beganRunOne | beganRun | beganUntilComplete | stored | posted | entered =>
      simp only [List.length_cons] at hlen
      omega
  | _ => exact absurd hlen (Nat.succ_ne_self _)

theorem step_length (h : c.step a = .ok c') : c.stack.length ≤ c'.stack.length + 1 := by
  cases step_shift h with
  | same hs => rw [hs]; omega
  | push frame hs => rw [hs, List.length_cons]; omega
  | leave frame _ hs => rw [hs, List.length_cons]
  | giveBack frame hs => rw [hs, List.length_cons]

/-- An operation that puts a frame on the stack ends with the return of this frame. -/
theorem Returns.last {op : Op Ev} (h : Returns op c c') :
    (c.step (.call op) = .ok c' ∧ c'.stack = c.stack) ∨
      ∃ (c₁ s : Config Ev) (frame : Frame) (result : Except Error Unit),
        c.step (.call op) = .ok c₁ ∧ c₁.stack = frame :: c.stack ∧
        s.stack = frame :: c.stack ∧ s.ctl = .ret result ∧ s.step .tick = .ok c' := by
  rcases h with ⟨c₁, hcall, hreach, hlen⟩
  rcases call_shift hcall with ⟨hstack, _⟩ | ⟨frame, hframe, hstack⟩
  · cases hreach with
    | start => exact .inl ⟨hcall, hstack⟩
    | next hreach' hdeep hs =>
        exfalso
        have hstay : ∀ t, Reach step (fun s _ => c.stack.length < s.stack.length) c₁ t →
            t = c₁ := by
          intro t ht
          refine ht.invariant (Q := fun t => t = c₁) rfl ?_
          rintro t t' b rfl hdeep' _
          rw [hstack] at hdeep'
          exact absurd hdeep' (Nat.lt_irrefl _)
        rw [hstay _ hreach', hstack] at hdeep
        exact Nat.lt_irrefl _ hdeep
  · cases hreach with
    | start =>
        rw [hstack, List.length_cons] at hlen
        omega
    | next hreach' hdeep hs =>
        rename_i s b
        refine .inr ⟨c₁, s, frame, ?_⟩
        rcases inside hframe hstack hreach' with ⟨above, habove⟩ | ⟨hbase, _⟩
        · cases above with
          | nil =>
              have hback : c'.stack = c.stack := by
                rcases inside hframe hstack (hreach'.next hdeep hs) with ⟨above', h'⟩ | ⟨h', _⟩
                · rw [h', List.length_append, List.length_cons] at hlen
                  omega
                · exact h'
              obtain ⟨rfl, result, hctl⟩ := step_pops habove hframe hs hback
              exact ⟨result, hcall, hstack, habove, hctl, hs⟩
          | cons top above =>
              -- One step does not take two frames off the stack.
              have hdrop := step_length hs
              rw [habove, List.length_append, List.length_cons, List.length_cons] at hdrop
              omega
        · rw [hbase] at hdeep
          exact absurd hdeep (Nat.lt_irrefl _)

/-! ## How frames sit on each other -/

/-- Whoever called an operation is a callback, or the owner of the loop. -/
def Layered : List Frame → Prop
  | [] => True
  | frame :: rest =>
      (frame.callee = none → ∀ below ∈ rest.head?, below.callee ≠ none) ∧ Layered rest

structure Stacked (c : Config Ev) : Prop where
  layered : Layered c.stack
  user : c.ctl = .user → ∀ top ∈ c.stack.head?, top.callee ≠ none

theorem stacked_edit (k : Stacked c) (e : Edit a c c') : Stacked c' := by
  cases e with
  | beganRunOne _ hctl | beganRun _ _ hctl | beganUntilComplete _ _ _ hctl
  | stored _ _ _ _ _ hctl | posted _ _ _ _ _ hctl =>
      refine ⟨⟨fun _ => k.user hctl, k.layered⟩, ?_⟩
      intro huser
      cases huser
  | entered handle cb holder events ha hctl =>
      refine ⟨⟨?_, k.layered⟩, ?_⟩
      · intro hnone
        cases hnone
      · intro _ top htop
        cases htop
        simp [Frame.callee]
  | finished handle cb data rest event resp holder events ha hctl hstack =>
      have hlayered := k.layered
      rw [hstack] at hlayered
      refine ⟨hlayered.2, ?_⟩
      intro huser
      cases huser
  | gaveBack frame rest result ans ha hctl hstack hframe =>
      have hlayered := k.layered
      rw [hstack] at hlayered
      exact ⟨hlayered.2, fun _ => hlayered.1 hframe⟩
  | turnedAway | kept | killed | passed | lost | fired | again | gatherFailed =>
      refine ⟨k.layered, ?_⟩
      intro huser
      cases huser
  | _ => exact ⟨k.layered, k.user⟩

theorem Visited.stacked {P : Config Ev → Action Ev → Prop} (h : Visited P c) : Stacked c := by
  induction h with
  | start now => exact ⟨trivial, nofun⟩
  | edit _ _ he ih => exact stacked_edit ih he

/-- Outside of all callbacks there is at most one operation. -/
theorem Layered.eq_of_mem {frame : Frame} {stack : List Frame} (h : Layered stack)
    (hnone : stack.filterMap Frame.callee = []) (hmem : frame ∈ stack) : stack = [frame] := by
  have hcallee := List.filterMap_eq_nil_iff.mp hnone
  cases stack with
  | nil => cases hmem
  | cons top rest =>
      cases rest with
      | nil => rw [List.mem_singleton.mp hmem]
      | cons below rest =>
          exact absurd (hcallee below (by simp)) (h.1 (hcallee top (by simp)) below rfl)

/-! ## Waiting -/

/-- What a call does: there is nothing to wait for, the event waits for itself, or the loop runs. -/
theorem runUntilComplete_cases (handle : Handle) (hctl : c.ctl = .user) :
    (c.loop.eventAlive handle = false ∧ c.step (.call (.iface (.runUntilComplete handle))) =
      .ok (c.answer c.loop (.iface (.runUntilComplete handle)) (.ok .unit))) ∨
    (c.loop.Stolen handle ∧ c.step (.call (.iface (.runUntilComplete handle))) =
      .ok (c.answer c.loop (.iface (.runUntilComplete handle)) (.error .deadLock))) ∨
    (c.loop.eventAlive handle = true ∧ ¬c.loop.Stolen handle ∧
      c.step (.call (.iface (.runUntilComplete handle))) =
        .ok { c with stack := .runUntilComplete handle :: c.stack, ctl := .runOne }) := by
  have hstep : c.step (.call (.iface (.runUntilComplete handle))) =
      (c.callIface (.runUntilComplete handle)).mapError .panic := by simp [step, hctl, callOp]
  rw [hstep]
  cases halive : c.loop.eventAlive handle with
  | false =>
      refine .inl ⟨rfl, ?_⟩
      simp [callIface, halive, Except.mapError_ok]
  | true =>
      obtain ⟨holder, hget, hgen⟩ := eventAlive_iff.mp halive
      have hindex := Recycler.index_eq_ok.mpr hget
      refine .inr ?_
      cases hstolen : holder.event.stolen with
      | true =>
          refine .inl ⟨by simp [Stolen, tag_of_get? hget, hgen, hstolen], ?_⟩
          simp [callIface, halive, hindex, hstolen, Except.mapError_ok, Except.ok_bind,
            Except.pure_eq_ok]
      | false =>
          refine .inr ⟨rfl, by simp [Stolen, tag_of_get? hget, hstolen], ?_⟩
          simp [callIface, halive, hindex, hstolen, Except.mapError_ok, Except.ok_bind,
            Except.pure_eq_ok]

end Eveboros.Config
