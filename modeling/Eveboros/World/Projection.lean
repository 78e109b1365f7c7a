import Eveboros.World

/-!
# Loops do not know of each other

What one loop goes through in a process is a run of the machine, in which the dispatcher and the
channels take the place of the environment.  So whatever holds of all runs of one loop holds of
each of many loops.
-/

namespace Eveboros.World

open TransitionSystem

variable {Ev : Type} {w w' : World Ev}

theorem stepLoop_eq_ok {id : Nat} {c : Config Ev} {a : Action Ev} :
    w.stepLoop id c a = .ok w' ↔ ∃ c', c.step a = .ok c' ∧ w' = { w with
      loops := Function.update w.loops id (some c')
      history := Function.update w.history id (a :: w.history id) } := by
  unfold stepLoop
  rw [Except.bind_eq_ok]
  simp only [Except.pure_eq_ok, Except.ok.injEq, eq_comm]

/-! ## The cases of a step -/

def arrival : Action Ev → Option RemoteMessage
  | .remote m => if m.mode = .remote then some m else none
  | _ => none

theorem arrival_of_native {a : Action Ev} (h : a.isForeign = false) : arrival a = none := by
  cases a with
  | remote m => simpa [Action.isForeign, arrival] using h
  | _ => rfl

/-- What a step of the process does to the loops and to the channels. -/
inductive Moves (w w' : World Ev) : Prop
  | created (now : Nat) (hloops : w'.loops = Function.update w.loops w.created (some (.init now)))
      (hcreated : w'.created = w.created + 1)
      (hbirth : w'.birth = Function.update w.birth w.created now)
      (hhistory : w'.history = w.history) (hsends : w'.sends = w.sends)
  | stepped (id : Nat) (c c' : Config Ev) (a : Action Ev) (hloop : w.loops id = some c)
      (hstep : c.step a = .ok c') (hloops : w'.loops = Function.update w.loops id (some c'))
      (hcreated : w'.created = w.created) (hbirth : w'.birth = w.birth)
      (hhistory : w'.history = Function.update w.history id (a :: w.history id))
      (result : Except Error Unit) (hresult : result ≠ .error .loopGone)
      (hsends : w'.sends = (arrival a).toList.map (⟨id, ·, result, true⟩) ++ w.sends)
  | destroyed (id : Nat) (hloops : w'.loops = Function.update w.loops id none)
      (hcreated : w'.created = w.created) (hbirth : w'.birth = w.birth)
      (hhistory : w'.history = w.history) (hsends : w'.sends = w.sends)
  | unsent (id : Nat) (m : RemoteMessage) (result : Except Error Unit) (hfailed : result ≠ .ok ())
      (hgone : result = .error .loopGone → w.loops id = none ∧ id < w.created)
      (hthere : result ≠ .error .loopGone → w.loops id ≠ none)
      (hloops : w'.loops = w.loops) (hcreated : w'.created = w.created)
      (hbirth : w'.birth = w.birth) (hhistory : w'.history = w.history)
      (hsends : w'.sends = ⟨id, m, result, false⟩ :: w.sends)
  | other (hloops : w'.loops = w.loops) (hcreated : w'.created = w.created)
      (hbirth : w'.birth = w.birth) (hhistory : w'.history = w.history)
      (hsends : w'.sends = w.sends)

theorem moves_stepLoop {w₁ : World Ev} {id : Nat} {c : Config Ev} {a : Action Ev}
    (result : Except Error Unit) (hresult : result ≠ .error .loopGone)
    (h : w₁.stepLoop id c a = .ok w') (hloop : w.loops id = some c) (hloops : w₁.loops = w.loops)
    (hcreated : w₁.created = w.created) (hbirth : w₁.birth = w.birth)
    (hhistory : w₁.history = w.history)
    (hsends : w₁.sends = (arrival a).toList.map (⟨id, ·, result, true⟩) ++ w.sends) :
    Moves w w' := by
  obtain ⟨c', hstep, rfl⟩ := stepLoop_eq_ok.mp h
  exact .stepped id c c' a hloop hstep (by rw [hloops]) hcreated hbirth (by rw [hhistory]) result
    hresult hsends

theorem register_frame (w : World Ev) (id : Nat) (signal : Option Signal) :
    (w.register id signal).loops = w.loops ∧ (w.register id signal).created = w.created ∧
      (w.register id signal).birth = w.birth ∧ (w.register id signal).history = w.history ∧
      (w.register id signal).dispatching = w.dispatching ∧
      (w.register id signal).sends = w.sends := by
  cases signal <;> exact ⟨rfl, rfl, rfl, rfl, rfl, rfl⟩

theorem act_eq_ok {id : Nat} {a : Action Ev} (h : w.act id a = .ok w') :
    ∃ c, w.loops id = some c ∧ a.isForeign = false ∧
      ((registers c a).isSome = true → w.dispatching = none) ∧
      (w.register id (registers c a)).stepLoop id c a = .ok w' := by
  unfold act at h
  split at h
  · cases h
  · rename_i c hloop
    refine ⟨c, hloop, ?_⟩
    cases hforeign : a.isForeign with
    | true => simp [hforeign] at h
    | false =>
        simp only [hforeign, Bool.false_eq_true, ↓reduceIte] at h
        split at h
        · cases h
        · rename_i hfree
          exact ⟨rfl, fun hreg => by simpa [hreg] using hfree, h⟩

/-- A message has got into the channel, or the send has failed. -/
theorem send_eq_ok {id : Nat} {channel : Channel} {data : AnyBox}
    {failure : Option (IoErrorKind × Bool)} (h : w.send id channel data failure = .ok w') :
    ∃ m result,
      (∃ c, w.loops id = some c ∧ result ≠ .error .loopGone ∧
        { w with sends := ⟨id, m, result, true⟩ :: w.sends }.stepLoop id c (.remote m) =
          .ok w' ∧ m.mode = .remote) ∨
      w' = { w with sends := ⟨id, m, result, false⟩ :: w.sends } ∧ result ≠ .ok () ∧
        (result = .error .loopGone → w.loops id = none ∧ id < w.created) ∧
        (result ≠ .error .loopGone → w.loops id ≠ none) := by
  refine ⟨channel.send (⟨data, rfl⟩ : Typed data.typeId), ?_⟩
  unfold send at h
  split at h
  · rename_i c hloop
    split at h
    · exact ⟨.ok (), .inl ⟨c, hloop, by simp, h, rfl⟩⟩
    · exact ⟨.error (.io _), .inl ⟨c, hloop, by simp, h, rfl⟩⟩
    · cases h
      exact ⟨.error (.io _), .inr ⟨rfl, by simp, by simp, by simp [hloop]⟩⟩
  · rename_i hgone
    split at h
    · rename_i hid
      cases h
      exact ⟨.error .loopGone, .inr ⟨rfl, by simp, fun _ => ⟨hgone, hid⟩, by simp⟩⟩
    · cases h

theorem step_moves {a : WorldAction Ev} (h : w.step a = .ok w') : Moves w w' := by
  cases a with
  | create now =>
      cases h
      exact .created now rfl rfl rfl rfl rfl
  | act id a =>
      obtain ⟨c, hloop, hnative, _, hstep⟩ := act_eq_ok h
      obtain ⟨hloops, hcreated, hbirth, hhistory, _, hsends⟩ := w.register_frame id (registers c a)
      refine moves_stepLoop (.ok ()) (by simp) hstep hloop hloops hcreated hbirth hhistory ?_
      rw [hsends, arrival_of_native hnative]
      rfl
  | destroy id =>
      simp only [step, destroy] at h
      split at h
      · split at h
        · cases h
          exact .destroyed id rfl rfl rfl rfl rfl
        · cases h
      · cases h
  | raise signal =>
      simp only [step, raise] at h
      split at h
      · cases h
      · split at h
        · cases h
          exact .other rfl rfl rfl rfl rfl
        · cases h
          exact .other rfl rfl rfl rfl rfl
  | notify =>
      simp only [step, notify] at h
      split at h
      · split at h
        · exact moves_stepLoop (.ok ()) (by simp) h ‹_› rfl rfl rfl rfl rfl
        · cases h
          exact .other rfl rfl rfl rfl rfl
      · cases h
  | unlock =>
      simp only [step, unlock] at h
      split at h
      · cases h
        exact .other rfl rfl rfl rfl rfl
      · cases h
  | send id channel data failure =>
      obtain ⟨m, result, ⟨c, hloop, hresult, hstep, hmode⟩ | ⟨rfl, hfailed, hgone, hthere⟩⟩ :=
        send_eq_ok h
      · exact moves_stepLoop result hresult hstep hloop rfl rfl rfl rfl (by simp [arrival, hmode])
      · exact .unsent id m result hfailed hgone hthere rfl rfl rfl rfl rfl

/-! ## What one loop goes through -/

/-- Every loop is where its history leads a loop that is alone. -/
structure Projects (w : World Ev) : Prop where
  runs (id : Nat) (c : Config Ev) : w.loops id = some c →
    run Config.step (.init (w.birth id)) (w.history id).reverse = .ok c
  new (id : Nat) : w.created ≤ id → w.loops id = none ∧ w.history id = []

theorem projects_init : Projects (init : World Ev) where
  runs := by simp [init]
  new _ _ := ⟨rfl, rfl⟩

theorem Projects.step (p : Projects w) (m : Moves w w') : Projects w' := by
  cases m with
  | created now hloops hcreated hbirth hhistory =>
      refine ⟨fun id c hloop => ?_, fun id hid => ?_⟩
      · rw [hloops] at hloop
        rw [hbirth, hhistory]
        by_cases heq : id = w.created
        · subst heq
          rw [Function.update_self] at hloop
          cases hloop
          rw [Function.update_self, (p.new _ le_rfl).2]
          rfl
        · rw [Function.update_of_ne heq] at hloop ⊢
          exact p.runs id c hloop
      · have hold := p.new id (by omega)
        rw [hloops, hhistory, Function.update_of_ne (by omega)]
        exact hold
  | stepped id c c' a hloop hstep hloops hcreated hbirth hhistory =>
      refine ⟨fun id' c₁ hloop' => ?_, fun id' hid => ?_⟩
      · rw [hloops] at hloop'
        rw [hbirth, hhistory]
        by_cases heq : id' = id
        · subst heq
          rw [Function.update_self] at hloop' ⊢
          cases hloop'
          rw [List.reverse_cons]
          exact run_concat_eq_ok.mpr ⟨c, p.runs _ c hloop, hstep⟩
        · rw [Function.update_of_ne heq] at hloop' ⊢
          exact p.runs id' c₁ hloop'
      · have hold := p.new id' (by omega)
        have hne : id' ≠ id := by
          rintro rfl
          rw [hloop] at hold
          cases hold.1
        rw [hloops, hhistory, Function.update_of_ne hne, Function.update_of_ne hne]
        exact hold
  | destroyed id hloops hcreated hbirth hhistory =>
      refine ⟨fun id' c hloop => ?_, fun id' hid => ?_⟩
      · rw [hloops] at hloop
        rw [hbirth, hhistory]
        by_cases heq : id' = id
        · rw [heq, Function.update_self] at hloop
          cases hloop
        · rw [Function.update_of_ne heq] at hloop
          exact p.runs id' c hloop
      · have hold := p.new id' (by omega)
        rw [hloops, hhistory]
        refine ⟨?_, hold.2⟩
        by_cases heq : id' = id
        · rw [heq, Function.update_self]
        · rw [Function.update_of_ne heq]
          exact hold.1
  | unsent _ _ _ _ _ _ hloops hcreated hbirth hhistory
  | other hloops hcreated hbirth hhistory =>
      refine ⟨fun id c hloop => ?_, fun id hid => ?_⟩
      · rw [hbirth, hhistory]
        exact p.runs id c (hloops ▸ hloop)
      · rw [hloops, hhistory]
        exact p.new id (hcreated ▸ hid)

abbrev Possible (w : World Ev) : Prop := Reach step (fun _ _ => True) init w

theorem Possible.projects (h : Possible w) : Projects w :=
  h.invariant projects_init fun _ _ _ p _ hs => p.step (step_moves hs)

theorem Possible.reachable (h : Possible w) {id : Nat} {c : Config Ev}
    (hloop : w.loops id = some c) : c.Reachable := ⟨_, .of_run (h.projects.runs id c hloop)⟩

/-- The ids of loops are not used again. -/
theorem Moves.stays_gone (m : Moves w w') {id : Nat} (hgone : w.loops id = none)
    (hid : id < w.created) : w'.loops id = none ∧ id < w'.created := by
  cases m with
  | created now hloops hcreated =>
      rw [hloops, hcreated, Function.update_of_ne hid.ne]
      exact ⟨hgone, hid.trans (Nat.lt_succ_self _)⟩
  | stepped id' c c' a hloop hstep hloops hcreated =>
      have hne : id ≠ id' := by
        rintro rfl
        cases hgone.symm.trans hloop
      rw [hloops, hcreated, Function.update_of_ne hne]
      exact ⟨hgone, hid⟩
  | destroyed id' hloops hcreated =>
      rw [hloops, hcreated, Function.update_apply, hgone, ite_self]
      exact ⟨rfl, hid⟩
  | unsent _ _ _ _ _ _ hloops hcreated | other hloops hcreated =>
      rw [hloops, hcreated]
      exact ⟨hgone, hid⟩

end Eveboros.World
