import Eveboros.Runs.Expectations
import Eveboros.World.Projection

/-!
# What comes through channels

A message that has got into the channel of a loop waits there until the loop reads it.  Then it is
let into the queue, or turned away because its recipient is dead or does not expect it.
-/

namespace Eveboros

open TransitionSystem World

variable {Ev : Type}

def RemoteMessage.foreign (m : RemoteMessage) : Bool := decide (m.mode = .remote)

/-- The message that a task brings through a channel. -/
def Task.parcel (task : Task) : Option RemoteMessage :=
  match task.param with
  | .message m =>
      if m.mode = .remote then some ⟨m.data, m.realType, m.mode, task.recipient⟩ else none
  | _ => none

theorem Loop.TurnsAway.congr {l l' : Loop Ev} {handle : Handle} {tp : TypeId} {err : Error}
    (h : l'.TurnsAway handle tp err) (hslot : (l'.events.get? handle.id).map EvHolder.interest =
      (l.events.get? handle.id).map EvHolder.interest) : l.TurnsAway handle tp err := by
  have hgen := congrArg (Option.map Prod.fst) hslot
  rw [Option.map_map, Option.map_map] at hgen
  cases h with
  | missing hdead =>
      refine .missing ?_
      rw [eventAlive_eq_map] at hdead ⊢
      exact hgen ▸ hdead
  | unexpected holder hget hgen' hnot =>
      rw [hget] at hslot
      obtain ⟨holder', hget', hsame⟩ := Option.map_eq_some_iff.mp hslot.symm
      have hgens : holder'.generation = holder.generation := congrArg Prod.fst hsame
      have hexps : holder'.expectedMessages = holder.expectedMessages := congrArg Prod.snd hsame
      exact .unexpected holder' hget' (hgens.trans hgen') (hexps ▸ hnot)

namespace Config

open Loop

variable {c c' : Config Ev} {a : Action Ev}

/-- What has become of the messages that have arrived through channels.  Those that the loop has
read are marked by whether they were let in. -/
structure ReadOff (arrived : List RemoteMessage) (away : RemoteMessage → Prop) (c : Config Ev)
    (read : List (RemoteMessage × Bool)) : Prop where
  arrived : arrived = read.map Prod.fst ++ c.loop.receiver.filter RemoteMessage.foreign
  /-- The queue has seen exactly those let in, in this order. -/
  queued : c.everQueued.filterMap Task.parcel = (read.filter Prod.snd).map Prod.fst
  refused (m : RemoteMessage) : (m, false) ∈ read → away m

section

variable {arrived : List RemoteMessage} {away away' : RemoteMessage → Prop}
  {read : List (RemoteMessage × Bool)}

theorem ReadOff.mono (q : ReadOff arrived away c read) (h : ∀ m, away m → away' m) :
    ReadOff arrived away' c read := ⟨q.arrived, q.queued, fun m hm => h m (q.refused m hm)⟩

/-- A change that leaves the channel and its messages in the queue alone. -/
theorem ReadOff.congr (q : ReadOff arrived away c read)
    (hrecv : c'.loop.receiver = c.loop.receiver)
    (hqueued : c'.everQueued.filterMap Task.parcel = c.everQueued.filterMap Task.parcel) :
    ReadOff arrived away c' read := ⟨hrecv ▸ q.arrived, hqueued.trans q.queued, q.refused⟩

end

end Config

namespace World

variable {w w' : World Ev}

/-- What has got into the channel of the loop, oldest first. -/
def accepted (w : World Ev) (id : Nat) : List RemoteMessage :=
  ((w.sends.filter fun sent => sent.loop == id && sent.reached).map Sent.message).reverse

/-- Into every loop came what was sent into it, in this order. -/
def Conveys (w : World Ev) : Prop :=
  ∀ id, (w.history id).reverse.filterMap arrival = w.accepted id

theorem Conveys.step (v : Conveys w) (m : Moves w w') : Conveys w' := by
  intro id'
  cases m with
  | stepped id c c' a hloop hstep hloops hcreated hbirth hhistory result hresult hsends =>
      rw [accepted, hhistory, hsends]
      by_cases heq : id' = id
      · subst heq
        rw [Function.update_self, List.reverse_cons, List.filterMap_append, v id']
        cases harrival : arrival a <;> simp [accepted, harrival]
      · have hne : (id == id') = false := by simpa using Ne.symm heq
        rw [Function.update_of_ne heq, v id']
        cases arrival a <;> simp [accepted, hne]
  | unsent id m result hfailed hgone hthere hloops hcreated hbirth hhistory hsends =>
      rw [accepted, hhistory, hsends, v id']
      simp [accepted]
  | created now hloops hcreated hbirth hhistory hsends
  | destroyed id hloops hcreated hbirth hhistory hsends
  | other hloops hcreated hbirth hhistory hsends =>
      rw [accepted, hhistory, hsends]
      exact v id'

/-- What a send reports stays true. -/
structure Reported (w : World Ev) : Prop where
  /-- Where one send has found the loop gone, no later one finds it there. -/
  lasting : w.sends.Pairwise fun later earlier => later.loop = earlier.loop →
    earlier.result = .error .loopGone → later.result = .error .loopGone
  gone : ∀ sent ∈ w.sends, sent.result = .error .loopGone →
    w.loops sent.loop = none ∧ sent.loop < w.created
  reached : ∀ sent ∈ w.sends, sent.result = .ok () → sent.reached = true
  lost : ∀ sent ∈ w.sends, sent.result = .error .loopGone → sent.reached = false

/-- One more send. -/
theorem Reported.cons (r : Reported w) {sent : Sent} (hsends : w'.sends = sent :: w.sends)
    (hlasting : ∀ earlier ∈ w.sends, sent.loop = earlier.loop →
      earlier.result = .error .loopGone → sent.result = .error .loopGone)
    (hgone : ∀ sent' ∈ w'.sends, sent'.result = .error .loopGone →
      w'.loops sent'.loop = none ∧ sent'.loop < w'.created)
    (hreached : sent.result = .ok () → sent.reached = true)
    (hlost : sent.result = .error .loopGone → sent.reached = false) : Reported w' where
  lasting := by
    rw [hsends, List.pairwise_cons]
    exact ⟨hlasting, r.lasting⟩
  gone := hgone
  reached := by
    rw [hsends, List.forall_mem_cons]
    exact ⟨hreached, r.reached⟩
  lost := by
    rw [hsends, List.forall_mem_cons]
    exact ⟨hlost, r.lost⟩

theorem Reported.step (r : Reported w) (m : Moves w w') : Reported w' := by
  have hgone (sent : Sent) (hsent : sent ∈ w.sends) (hresult : sent.result = .error .loopGone) :
      w'.loops sent.loop = none ∧ sent.loop < w'.created :=
    m.stays_gone (r.gone sent hsent hresult).1 (r.gone sent hsent hresult).2
  have same (hsends : w'.sends = w.sends) : Reported w' :=
    ⟨hsends ▸ r.lasting, hsends ▸ hgone, hsends ▸ r.reached, hsends ▸ r.lost⟩
  cases m with
  | stepped id c c' a hloop hstep hloops hcreated hbirth hhistory result hresult hsends =>
      cases harrival : arrival a with
      | none => exact same (by simpa [harrival] using hsends)
      | some m =>
          have hcons : w'.sends = ⟨id, m, result, true⟩ :: w.sends := by
            simpa [harrival] using hsends
          refine r.cons hcons (fun earlier hearlier hsame hearly => ?_) ?_ (fun _ => rfl)
            fun hlost => absurd hlost hresult
          · have hnone := (r.gone earlier hearlier hearly).1
            rw [← hsame] at hnone
            cases hnone.symm.trans hloop
          · rw [hcons, List.forall_mem_cons]
            exact ⟨fun hlost => absurd hlost hresult, hgone⟩
  | unsent id m result hfailed hnone hthere hloops hcreated hbirth hhistory hsends =>
      refine r.cons hsends (fun earlier hearlier hsame hearly => ?_) ?_
        (fun hok => absurd hok hfailed) fun _ => rfl
      · by_contra hresult
        refine hthere hresult ?_
        rw [show id = earlier.loop from hsame]
        exact (r.gone earlier hearlier hearly).1
      · rw [hsends, List.forall_mem_cons]
        refine ⟨fun hlost => ?_, hgone⟩
        rw [hloops, hcreated]
        exact hnone hlost
  | created now hloops hcreated hbirth hhistory hsends
  | destroyed id hloops hcreated hbirth hhistory hsends
  | other hloops hcreated hbirth hhistory hsends => exact same hsends

end World

end Eveboros
