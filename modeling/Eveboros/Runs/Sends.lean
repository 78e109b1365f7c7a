import Eveboros.Runs.Completion
import Eveboros.Runs.Queue

/-!
# Messages are sent in order and once

A message that `send` accepted waits in the queue among the tasks of all kinds.  It is passed to
its recipient when its turn comes, unless the recipient is busy, and nothing else of this mode is.
-/

namespace Eveboros

variable {Ev : Type}

def DeliveryMode.isSend : DeliveryMode → Bool
  | .send _ => true
  | _ => false

/-- The message, if the callback passes one of `send` to this event. -/
def letter (handle recipient : Handle) : Callback → Option Message
  | .message m => if recipient = handle ∧ m.mode.isSend = true then some m else none
  | _ => none

def Task.letter (handle : Handle) (task : Task) : Option Message :=
  Eveboros.letter handle task.recipient task.param.callback

def Obs.sends (handle : Handle) : Obs Ev → Option Message
  | .answered caller (.iface (.sendImpl recipient data tp)) (.ok _) =>
      if recipient = handle then some ⟨data, tp, .send caller⟩ else none
  | _ => none

/-- The message that `run_one` takes off the queue for its event. -/
def Obs.pops (handle : Handle) : Obs Ev → Option Message
  | .dispatched task => task.letter handle
  | _ => none

/-- The message that the loop throws away, since its event is dead. -/
def Obs.drops (handle : Handle) : Obs Ev → Option Message
  | .dropped task => task.letter handle
  | _ => none

/-- The message is passed to its event, or bounces. -/
def Obs.settles (handle : Handle) : Obs Ev → Option Message
  | .called recipient cb _ => letter handle recipient cb
  | .refused recipient cb .busy => letter handle recipient cb
  | _ => none

def Ctl.letter (handle : Handle) : Ctl → Option Message
  | .call recipient cb => Eveboros.letter handle recipient cb
  | _ => none

/-- The messages in the life of the event now under the handle, oldest first. -/
def inOrder (f : Handle → Obs Ev → Option Message) (handle : Handle) (log : List (Obs Ev)) :
    List Message :=
  ((lifetime handle log).filterMap (f handle)).reverse

def Frame.loops : Frame → Bool
  | .runOne => true
  | .run => true
  | .runUntilEmpty => true
  | .runUntilComplete _ => true
  | _ => false

theorem letter_eq_some {handle recipient : Handle} {cb : Callback} {m : Message}
    (h : letter handle recipient cb = some m) :
    recipient = handle ∧ cb = .message m ∧ m.mode.isSend = true := by
  unfold letter at h
  split at h
  · split at h
    · rename_i hmode
      cases h
      exact ⟨hmode.1, rfl, hmode.2⟩
    · cases h
  · cases h

theorem letter_of_send (handle recipient : Handle) (data : AnyBox) (tp : TypeId)
    (sender : Option Handle) : letter handle recipient (.message ⟨data, tp, .send sender⟩) =
      if recipient = handle then some ⟨data, tp, .send sender⟩ else none := by
  simp [letter, DeliveryMode.isSend]

theorem letter_of_other (handle recipient : Handle) {m : Message}
    (h : m.mode.isSend = false) : letter handle recipient (.message m) = none := by
  simp [letter, h]

theorem Obs.sends_query (handle : Handle) (caller : Option Handle) {op : Op Ev} (ans : Answer)
    (h : op.IsQuery) : Obs.sends handle (.answered caller op ans) = none := by
  unfold sends
  split <;> simp_all [Op.IsQuery]

theorem Obs.sends_error (handle : Handle) (caller : Option Handle) (op : Op Ev) (err : Error) :
    Obs.sends handle (.answered caller op (.error err)) = none := by
  unfold sends
  split <;> simp_all

namespace Config

open Loop TransitionSystem

variable {c c' : Config Ev} {a : Action Ev} {handle : Handle}

def waiting (c : Config Ev) (handle : Handle) : List Message :=
  c.loop.scheduled.filterMap (Task.letter handle)

/-- In this history, every call of `send`'s passed the first message not settled before. -/
def InTurn : List (Obs Ev) → Prop :=
  WhenPassed fun handle m older => m.mode.isSend = true →
    inOrder Obs.settles handle older ++ [m] <+: inOrder Obs.sends handle older

structure SendsKept (c : Config Ev) : Prop where
  /-- What was sent to a live event has left the queue in this order, or waits in this order. -/
  fifo (handle : Handle) : c.loop.eventAlive handle = true →
    inOrder Obs.sends handle c.log = inOrder Obs.pops handle c.log ++ c.waiting handle
  /-- What has left the queue was passed or bounced, but for the message just being passed. -/
  settled (handle : Handle) : c.loop.eventAlive handle = true →
    inOrder Obs.pops handle c.log =
      inOrder Obs.settles handle c.log ++ (c.ctl.letter handle).toList
  /-- Every call passes the message whose turn it was. -/
  inTurn : InTurn c.log

/-! ## Into the queue -/

/-- The queue has seen exactly the messages that were accepted, and only those to dead events have
been thrown away. -/
structure Mailed (c : Config Ev) : Prop where
  queued (handle : Handle) : (c.log.filterMap (Obs.sends handle)).reverse =
    c.everQueued.filterMap (Task.letter handle)
  issued (handle : Handle) : c.log.filterMap (Obs.sends handle) ≠ [] → handle ∈ c.issued
  dropped (handle : Handle) : c.log.filterMap (Obs.drops handle) ≠ [] → handle ∈ c.slain

theorem Identity.issued_of_alive (i : Identity c) (halive : c.loop.eventAlive handle = true) :
    handle ∈ c.issued := by
  have hcount := i.alive handle
  rw [halive, if_pos rfl] at hcount
  exact List.count_pos_iff.mp (by omega)

theorem Identity.slain_of_dead (i : Identity c) (hissued : handle ∈ c.issued)
    (hdead : c.loop.eventAlive handle = false) : handle ∈ c.slain := by
  have hcount := i.alive handle
  have hpos := List.count_pos_iff.mpr hissued
  simp only [hdead, Bool.false_eq_true, ↓reduceIte, Nat.add_zero] at hcount
  exact List.count_pos_iff.mp (by omega)

theorem Edit.issued_subset (e : Edit a c c') : c.issued ⊆ c'.issued :=
  (e.log_suffix.sublist.filterMap Obs.issued).subset

theorem Edit.slain_subset (e : Edit a c c') : c.slain ⊆ c'.slain :=
  (e.log_suffix.sublist.filterMap Obs.slain).subset

/-- A change that sends nothing and throws nothing away. -/
theorem Mailed.congr (q : Mailed c) (e : Edit a c c')
    (hsends : ∀ handle, c'.log.filterMap (Obs.sends handle) = c.log.filterMap (Obs.sends handle))
    (hdrops : ∀ handle, c'.log.filterMap (Obs.drops handle) = c.log.filterMap (Obs.drops handle))
    (hqueued : ∀ handle, c'.everQueued.filterMap (Task.letter handle) =
      c.everQueued.filterMap (Task.letter handle)) : Mailed c' where
  queued handle := by rw [hsends, hqueued, q.queued]
  issued handle hne := e.issued_subset (q.issued handle (hsends handle ▸ hne))
  dropped handle hne := e.slain_subset (q.dropped handle (hdrops handle ▸ hne))

theorem everQueued_letters {new : List Task} (hlog : c'.handled = c.handled)
    (hsched : c'.loop.scheduled = c.loop.scheduled ++ new)
    (hnew : ∀ task ∈ new, task.letter handle = none) :
    c'.everQueued.filterMap (Task.letter handle) = c.everQueued.filterMap (Task.letter handle) := by
  rw [everQueued_scheduled hlog hsched, List.filterMap_append,
    List.filterMap_eq_nil_iff.mpr hnew, List.append_nil]

theorem mailed_sent (i : Identity c) (q : Mailed c) {recipient : Handle} {data : AnyBox}
    {tp : TypeId} (e : Edit a c c') (halive : c.loop.eventAlive recipient = true)
    (hlog : c'.log = .answered c.caller (.iface (.sendImpl recipient data tp)) (.ok .unit) :: c.log)
    (hqueued : c'.everQueued =
      c.everQueued ++ [⟨recipient, .message ⟨data, tp, .send c.caller⟩⟩]) : Mailed c' where
  queued handle := by
    have hletter : Task.letter handle ⟨recipient, .message ⟨data, tp, .send c.caller⟩⟩ =
        if recipient = handle then some ⟨data, tp, .send c.caller⟩ else none :=
      letter_of_send handle recipient data tp c.caller
    rw [hqueued, List.filterMap_append, ← q.queued, hlog]
    by_cases heq : recipient = handle
    · subst heq
      simp [Obs.sends, hletter]
    · simp [Obs.sends, hletter, heq]
  issued handle hne := by
    by_cases heq : recipient = handle
    · exact e.issued_subset (i.issued_of_alive (heq ▸ halive))
    · refine e.issued_subset (q.issued handle ?_)
      rw [hlog] at hne
      simpa [Obs.sends, heq] using hne
  dropped handle hne := by
    rw [hlog] at hne
    exact e.slain_subset (q.dropped handle hne)

theorem mailed_dropped (i : Identity c) (q : Mailed c) {task : Task} {rest : List Task}
    (e : Edit a c c') (hsched : c.loop.scheduled = task :: rest)
    (hdead : c.loop.eventAlive task.recipient = false) (hlog : c'.log = .dropped task :: c.log)
    (hqueued : c'.everQueued = c.everQueued) : Mailed c' where
  queued handle := by
    rw [hqueued, ← q.queued, hlog]
    rfl
  issued handle hne := by
    rw [hlog] at hne
    exact e.issued_subset (q.issued handle hne)
  dropped handle hne := by
    apply e.slain_subset
    cases hletter : task.letter handle with
    | none =>
        rw [hlog, List.filterMap_cons_none (by exact hletter)] at hne
        exact q.dropped handle hne
    | some m =>
        obtain ⟨hrecipient, _⟩ := letter_eq_some hletter
        have hmem : m ∈ c.everQueued.filterMap (Task.letter handle) :=
          List.mem_filterMap.mpr ⟨task, by simp [everQueued, hsched], hletter⟩
        rw [← q.queued, List.mem_reverse] at hmem
        have hissued := q.issued handle (List.ne_nil_of_mem hmem)
        exact i.slain_of_dead hissued (hrecipient ▸ hdead)

theorem mailed_edit (v : Arrivals c) (i : Identity c) (q : Mailed c) (e : Edit a c c') :
    Mailed c' := by
  have he := e
  cases e with
  | sent recipient data tp holder ha hctl hget hgen =>
      exact mailed_sent i q he (eventAlive_iff.mpr ⟨holder, hget, hgen⟩) rfl
        (everQueued_scheduled rfl rfl)
  | dropped task rest ha hctl hsched hdead =>
      exact mailed_dropped i q he hsched hdead rfl (everQueued_popped hsched rfl rfl rfl)
  | passed task rest _ ha hctl hsched
  | lost task rest _ _ _ _ ha hctl hsched
  | fired task rest _ _ _ _ ha hctl hsched =>
      refine q.congr he (fun _ => rfl) (fun _ => rfl) fun handle => ?_
      rw [everQueued_popped hsched rfl rfl rfl]
  | refusal op err =>
      exact q.congr he
        (fun handle => List.filterMap_cons_none (Obs.sends_error handle _ op err))
        (fun _ => rfl) fun _ => rfl
  | query op ans ha hctl hq =>
      exact q.congr he
        (fun handle => List.filterMap_cons_none (Obs.sends_query handle _ _ hq))
        (fun _ => rfl) fun _ => rfl
  | received m rest ha hctl hrecv =>
      refine q.congr he (fun _ => rfl) (fun _ => rfl) fun handle => ?_
      refine everQueued_letters rfl rfl fun task hmem => ?_
      obtain rfl := List.mem_singleton.mp hmem
      apply letter_of_other
      rcases v.mode m (by simp [hrecv]) with hmode | ⟨id, hmode, _⟩ <;>
        simp [hmode, DeliveryMode.isSend]
  | reaped | ready | idleTaken =>
      refine q.congr he (fun _ => rfl) (fun _ => rfl) fun handle => ?_
      refine everQueued_letters rfl rfl fun task hmem => ?_
      obtain rfl := List.mem_singleton.mp hmem
      rfl
  | broadcast | timed =>
      refine q.congr he (fun _ => rfl) (fun _ => rfl) fun handle => ?_
      refine everQueued_letters rfl rfl fun task hmem => ?_
      obtain ⟨_, _, rfl⟩ := List.mem_map.mp hmem
      rfl
  | _ => exact q.congr he (fun _ => rfl) (fun _ => rfl) fun _ => rfl

theorem Visited.mailed {P : Config Ev → Action Ev → Prop} (h : Visited P c) : Mailed c := by
  induction h with
  | start now => exact ⟨fun _ => rfl, fun _ hne => absurd rfl hne, fun _ hne => absurd rfl hne⟩
  | edit hv _ he ih => exact mailed_edit hv.arrivals hv.identity ih he

/-! ## Out of the queue -/

/-- Each message taken off the queue is passed or bounces before the next one is. -/
def Settles (c : Config Ev) : Prop :=
  ∀ handle, c.log.filterMap (Obs.pops handle) =
    (c.ctl.letter handle).toList ++ c.log.filterMap (Obs.settles handle)

theorem filterMap_cons_toList {α β : Type*} (f : α → Option β) (x : α) (xs : List α) :
    (x :: xs).filterMap f = (f x).toList ++ xs.filterMap f := by
  rw [List.filterMap_cons]
  cases f x <;> rfl

theorem Settles.congr (q : Settles c) (hctl : ∀ handle, c'.ctl.letter handle = c.ctl.letter handle)
    (hpops : ∀ handle, c'.log.filterMap (Obs.pops handle) = c.log.filterMap (Obs.pops handle))
    (hsettles : ∀ handle,
      c'.log.filterMap (Obs.settles handle) = c.log.filterMap (Obs.settles handle)) :
    Settles c' := by
  intro handle
  rw [hctl, hpops, hsettles, q handle]

theorem settles_turnedAway (alive : CallsAlive c) (q : Settles c) {recipient : Handle}
    {cb : Callback} {err : Error} (hctl : c.ctl = .call recipient cb)
    (hctl' : c'.ctl = .ret (.error err))
    (hwhy : (err = .missing ∧ c.loop.eventAlive recipient = false) ∨ err = .busy)
    (hlog : c'.log = .refused recipient cb err :: c.log) : Settles c' := by
  intro handle
  have hold := q handle
  rcases hwhy with ⟨_, hdead⟩ | rfl
  · rw [alive recipient cb hctl] at hdead
    cases hdead
  · rw [hlog, hctl', filterMap_cons_toList (Obs.settles handle)]
    rw [hctl] at hold
    exact hold

theorem settles_passed (q : Settles c) {task : Task} (hctl : c.ctl = .runOne)
    (hctl' : ∀ handle, c'.ctl.letter handle = task.letter handle)
    (hlog : c'.log = .dispatched task :: c.log) : Settles c' := by
  intro handle
  have hold := q handle
  rw [hctl] at hold
  rw [hlog, filterMap_cons_toList (Obs.pops handle), hctl', hold]
  rfl

theorem settles_edit (alive : CallsAlive c) (q : Settles c) (e : Edit a c c') : Settles c' := by
  cases e with
  | entered recipient cb holder events ha hctl =>
      intro handle
      have hold := q handle
      rw [hctl] at hold
      rw [filterMap_cons_toList (Obs.settles handle)]
      exact hold
  | turnedAway recipient cb err ha hctl hwhy =>
      refine settles_turnedAway alive q hctl rfl ?_ rfl
      exact hwhy.imp id And.left
  | passed task rest holder ha hctl => exact settles_passed q hctl (fun _ => rfl) rfl
  | fired task rest id left holder events ha hctl hsched hparam =>
      refine settles_passed q hctl (fun handle => ?_) rfl
      rw [Task.letter, hparam]
      rfl
  | lost task rest id ready source holder ha hctl hsched hparam =>
      refine settles_passed q hctl (fun handle => ?_) rfl
      rw [Task.letter, hparam]
      rfl
  | posted recipient data tp holder ha hctl =>
      refine q.congr (fun handle => ?_) (fun _ => rfl) fun _ => rfl
      rw [hctl]
      exact letter_of_other handle recipient rfl
  | beganRunOne _ hctl | beganRun _ _ hctl | beganUntilComplete _ _ _ hctl
  | stored _ _ _ _ _ hctl | kept _ _ hctl | killed _ _ _ _ _ _ _ _ hctl | again _ hctl
  | gaveBack _ _ _ _ _ hctl | finished _ _ _ _ _ _ _ _ _ hctl | gatherFailed _ _ hctl =>
      exact q.congr (fun handle => by rw [hctl]; rfl) (fun _ => rfl) fun _ => rfl
  | _ => exact q.congr (fun _ => rfl) (fun _ => rfl) fun _ => rfl

theorem Visited.settles {P : Config Ev → Action Ev → Prop} (h : Visited P c) : Settles c := by
  induction h with
  | start now => exact fun _ => rfl
  | edit hv _ he ih => exact settles_edit hv.callsAlive ih he

/-! ## In turn -/

/-- The history of an event that has not died is the whole history. -/
theorem inOrder_of_alive (i : Identity c) (hfew : c.issued.length ≤ 2 ^ 64)
    (halive : c.loop.eventAlive handle = true) (f : Handle → Obs Ev → Option Message) :
    inOrder f handle c.log = (c.log.filterMap (f handle)).reverse := by
  rw [inOrder, lifetime_of_not_slain ((i.alive_iff hfew handle).mp halive).2]

/-- What has left the queue without being thrown away. -/
theorem handled_letters {log : List (Obs Ev)} (h : log.filterMap (Obs.drops handle) = []) :
    (log.filterMap Obs.handled).filterMap (Task.letter handle) =
      log.filterMap (Obs.pops handle) := by
  induction log with
  | nil => rfl
  | cons o log ih =>
      rw [filterMap_cons_toList, List.append_eq_nil_iff, Option.toList_eq_nil_iff] at h
      cases o with
      | dispatched task =>
          change (task :: log.filterMap Obs.handled).filterMap (Task.letter handle) = _
          rw [filterMap_cons_toList, ih h.2, filterMap_cons_toList (Obs.pops handle)]
          rfl
      | dropped task =>
          change (task :: log.filterMap Obs.handled).filterMap (Task.letter handle) = _
          rw [List.filterMap_cons_none (by exact h.1)]
          exact ih h.2
      | _ => exact ih h.2

theorem fifo_of_alive (h : Visited Anything c) (hfew : c.issued.length ≤ 2 ^ 64)
    (halive : c.loop.eventAlive handle = true) : inOrder Obs.sends handle c.log =
      inOrder Obs.pops handle c.log ++ c.waiting handle := by
  have i := h.identity
  have q := h.mailed
  have hdrops : c.log.filterMap (Obs.drops handle) = [] := by
    by_contra hne
    exact ((i.alive_iff hfew handle).mp halive).2 (q.dropped handle hne)
  rw [inOrder_of_alive i hfew halive, inOrder_of_alive i hfew halive, q.queued, everQueued,
    List.filterMap_append, handled, List.filterMap_reverse, handled_letters hdrops, waiting]

theorem settled_of_alive (h : Visited Anything c) (hfew : c.issued.length ≤ 2 ^ 64)
    (halive : c.loop.eventAlive handle = true) : inOrder Obs.pops handle c.log =
      inOrder Obs.settles handle c.log ++ (c.ctl.letter handle).toList := by
  have i := h.identity
  rw [inOrder_of_alive i hfew halive, inOrder_of_alive i hfew halive, h.settles handle,
    List.reverse_append]
  cases c.ctl.letter handle <;> rfl

theorem inTurn_call {m : Message} (h : Visited Anything c) (hfew : c.issued.length ≤ 2 ^ 64)
    (hctl : c.ctl = .call handle (.message m)) (hmode : m.mode.isSend = true) :
    inOrder Obs.settles handle c.log ++ [m] <+: inOrder Obs.sends handle c.log := by
  have halive := h.callsAlive _ _ hctl
  have hletter : c.ctl.letter handle = some m := by simp [hctl, Ctl.letter, letter, hmode]
  have hpops := settled_of_alive h hfew halive
  rw [hletter] at hpops
  rw [fifo_of_alive h hfew halive, hpops]
  exact List.prefix_append _ _

theorem sendsKept (h : Visited Anything c) (hfew : c.issued.length ≤ 2 ^ 64) : SendsKept c where
  fifo _ := fifo_of_alive h hfew
  settled _ := settled_of_alive h hfew
  inTurn := h.whenPassed (fun _ _ _ => inTurn_call) hfew

/-! ## What a call of `send` or a bounce changes -/

/-- A refused message leaves the loop as it was. -/
theorem send_refused {recipient : Handle} {data : AnyBox} {tp : TypeId} {err : Error}
    (h : c.step (.call (.iface (.sendImpl recipient data tp))) = .ok c')
    (hlog : c'.log = .answered c.caller (.iface (.sendImpl recipient data tp)) (.error err) ::
      c.log) : c'.loop = c.loop ∧ c'.stack = c.stack ∧ c'.ctl = c.ctl := by
  have e := step_edit h nofun
  cases e with
  | refusal op err' ha hctl hr => exact ⟨rfl, rfl, rfl⟩
  | query op v ha hctl hq =>
      cases ha
      exact hq.elim
  | sent => simp [answer] at hlog
  | _ => simp_all [Action.IsGather, Action.IsSettle]

/-- Tasks are taken off the queue by an operation that runs the loop. -/
def RunsLoop (c : Config Ev) : Prop :=
  (c.ctl = .runOne ∨ ∃ recipient m, c.ctl = .call recipient (.message m) ∧ m.mode.isSend = true) →
    ∃ frame rest, c.stack = frame :: rest ∧ frame.loops = true

/-- Back in an operation that goes on, and so runs the loop. -/
theorem resume_loops {result : Except Error Unit} (h : c.resume result = .ok c')
    (hctl : c'.ctl = .runOne) : ∃ frame rest, c'.stack = frame :: rest ∧ frame.loops = true := by
  unfold resume at h
  split at h
  · rename_i frame rest hstack
    split at h
    · cases h
    · cases h; cases hctl
    · cases h; cases hctl
    · cases h; cases hctl
    · refine ⟨.run, rest, ?_, rfl⟩
      split at h
      · cases h; cases hctl
      · split at h <;> cases h
        · exact hstack
        · cases hctl
    · refine ⟨.runUntilEmpty, rest, ?_, rfl⟩
      split at h
      · cases h; cases hctl
      · cases h; cases hctl
      · split at h <;> cases h
        · exact hstack
        · cases hctl
    · rename_i handle
      refine ⟨.runUntilComplete handle, rest, ?_, rfl⟩
      split at h
      · cases h; cases hctl
      · split at h <;> cases h
        · exact hstack
        · cases hctl
  · cases h

theorem runsLoop_step (q : RunsLoop c) (h : c.step a = .ok c') : RunsLoop c' := by
  intro hctl'
  by_cases hg : ∃ env, a = .gather env
  · rcases hg with ⟨env, rfl⟩
    rw [gather_frame Config.stack (fun _ _ => Edit.stack_of_gather) h]
    exact q (.inl (gather_enabled (.ok c') h).1)
  have e := step_edit h (not_exists.mp hg)
  cases e with
  | beganRunOne | beganUntilComplete => exact ⟨_, _, rfl, rfl⟩
  | beganRun frame ha =>
      refine ⟨frame, _, rfl, ?_⟩
      rcases ha with ⟨_, rfl⟩ | ⟨_, rfl⟩ <;> rfl
  | again ha hctl =>
      subst ha
      have htick : c.step .tick = c.resume (.ok ()) := by simp [step, tick, hctl]
      exact resume_loops (htick ▸ h) rfl
  | passed _ _ _ _ hctl | fired _ _ _ _ _ _ _ hctl | dropped _ _ _ hctl =>
      exact q (.inl hctl)
  | posted recipient data tp holder ha hctl =>
      rcases hctl' with hctl' | ⟨_, m, heq, hmode⟩
      · cases hctl'
      · cases heq
        cases hmode
  | reaped _ _ _ _ _ ha => exact absurd ha.env hg
  | _ => first | exact q hctl' | simp_all [giveBack]

theorem Reachable.runsLoop (h : Reachable c) : RunsLoop c := by
  rcases h with ⟨now, h⟩
  apply h.invariant
  · intro hctl
    simp [init] at hctl
  · intro s s' a q _ hs
    exact runsLoop_step q hs

/-- What runs the loop hands an error on. -/
theorem resume_busy {frame : Frame} {rest : List Frame} (hstack : c.stack = frame :: rest)
    (hloops : frame.loops = true) :
    c.resume (.error .busy) = .ok (c.giveBack frame rest (.error .busy)) := by
  rw [resume, hstack]
  cases frame with
  | runOne | run | runUntilEmpty | runUntilComplete => rfl
  | _ => cases hloops

/-- A message bounces off a busy event, and whoever ran the loop is told. -/
theorem send_bounced (h : Reachable c) {m : Message} {err : Error}
    (hstep : c.step .tick = .ok c')
    (hlog : c'.log = .refused handle (.message m) err :: c.log) (hmode : m.mode.isSend = true) :
    err = .busy ∧ handle ∈ c.running ∧ ∃ frame rest, c.stack = frame :: rest ∧
      frame.loops = true ∧ c'.step .tick = .ok (c'.giveBack frame rest (.error .busy)) := by
  have e := step_edit hstep nofun
  cases e with
  | turnedAway recipient cb err' ha hctl hwhy =>
      cases hlog
      rcases hwhy with ⟨_, hdead⟩ | ⟨rfl, holder, hget, hgen, hstolen⟩
      · rw [h.visited.callsAlive _ _ hctl] at hdead
        cases hdead
      · obtain ⟨frame, rest, hstack, hloops⟩ := h.runsLoop (.inr ⟨_, m, hctl, hmode⟩)
        refine ⟨rfl, (h.visited.discipline.mem_running handle).mpr ?_, frame, rest, hstack, hloops,
          ?_⟩
        · rw [Loop.Stolen, tag_of_get? hget, hgen, hstolen]
        · exact resume_busy hstack hloops
  | _ => simp_all [giveBack]

/-- With at most 2^64 insertions: what `send` accepted for a live event is passed to it in this
order and once, or bounces off it while it is busy, and nothing else of this mode ever reaches a
callback. -/
theorem sends_fifo_exactly_once (c : Config Ev) (h : Reachable c)
    (hfew : c.issued.length ≤ 2 ^ 64) :
    c.SendsKept ∧
    (∀ handle data tp err c', c.step (.call (.iface (.sendImpl handle data tp))) = .ok c' →
      c'.log = .answered c.caller (.iface (.sendImpl handle data tp)) (.error err) :: c.log →
        c'.loop = c.loop ∧ c'.stack = c.stack ∧ c'.ctl = c.ctl) ∧
    ∀ handle m err c', c.step .tick = .ok c' →
      c'.log = .refused handle (.message m) err :: c.log → m.mode.isSend = true →
        err = .busy ∧ handle ∈ c.running ∧ ∃ frame rest, c.stack = frame :: rest ∧
          frame.loops = true ∧ c'.step .tick = .ok (c'.giveBack frame rest (.error .busy)) :=
  ⟨sendsKept h.visited hfew, fun _ _ _ _ _ => send_refused, fun _ _ _ _ => send_bounced h⟩

/-- An event sends itself two messages in its `init`, and the first is passed to it. -/
def twoLetters : List (Action Unit) :=
  [insertQuick, .tick, .call (.scope (.expectMessage (.atom 0))),
    .call (.iface (.sendImpl ⟨0, 0⟩ (.atom 0 7) (.atom 0))),
    .call (.iface (.sendImpl ⟨0, 0⟩ (.atom 0 8) (.atom 0))), .finish () (.ok true),
    .settle true (.ok ()), .tick, .call (.iface .runOne), .tick, .tick]

theorem sends_fifo_exactly_once_twoLetters :
    inOrder Obs.settles ⟨0, 0⟩ (after 0 twoLetters).log =
        [⟨.atom 0 7, .atom 0, .send (some ⟨0, 0⟩)⟩] ∧
      (after 0 twoLetters).waiting ⟨0, 0⟩ = [⟨.atom 0 8, .atom 0, .send (some ⟨0, 0⟩)⟩] ∧
      (after 0 twoLetters).SendsKept :=
  ⟨by decide, by decide,
    (sends_fifo_exactly_once _ (reachable_after 0 twoLetters) (by decide)).1⟩

/-- An event sends itself a message in its `init` and dies. -/
def lastLetter : List (Action Unit) :=
  [insertQuick, .tick, .call (.scope (.expectMessage (.atom 0))),
    .call (.iface (.sendImpl ⟨0, 0⟩ (.atom 0 7) (.atom 0)))] ++ giveUp

/-- What it leaves in the queue. -/
def lastTask : Task := ⟨⟨0, 0⟩, .message ⟨.atom 0 7, .atom 0, .send (some ⟨0, 0⟩)⟩⟩

theorem lastLetter_run : TransitionSystem.run step (init 0) lastLetter =
    .ok (abandonedAt [lastTask] 1 (after 0 lastLetter).log) := rfl

theorem unasked_lastLetter : Unasked (after 0 lastLetter).log := by
  intro caller op ans hmem
  have hlife : lifetime ⟨0, 0⟩ (after 0 lastLetter).log =
      [.returned (.insertExact ⟨0, 0⟩) (.ok (.handle ⟨0, 0⟩))] := rfl
  simp [hlife] at hmem

/-- The handle is issued again, and the message of the first event still waits. -/
theorem reachable_heirBorn :
    ∃ log, Reachable (heirBorn [lastTask] 0 log) ∧ Unasked log := by
  have hfirst : Reachable (abandonedAt [lastTask] 1 (after 0 lastLetter).log) :=
    ⟨0, .of_run lastLetter_run⟩
  obtain ⟨log, hr, hlog⟩ := reachable_abandonedAt hfirst unasked_lastLetter (2 ^ 64 - 1)
  have hinsert : step (abandonedAt [lastTask] 0 log) insertQuick =
      .ok (heirBorn [lastTask] 0 log) := rfl
  exact ⟨log, hr.step hinsert, hlog⟩

/-- With more than 2^64 insertions a message may wait for an event that nobody sent it to. -/
theorem sends_go_astray_after_wrap : ¬∀ c : Config Unit, Reachable c → c.SendsKept := by
  intro hall
  obtain ⟨log, hr, hunasked⟩ := reachable_heirBorn
  have hfifo := (hall _ hr).fifo ⟨0, 0⟩ rfl
  have hnone : (lifetime ⟨0, 0⟩ log).filterMap (Obs.sends ⟨0, 0⟩) = [] := by
    apply List.filterMap_eq_nil_iff.mpr
    intro o ho
    cases o with
    | answered caller op ans => exact absurd ho (hunasked caller op ans)
    | _ => rfl
  have hsent : inOrder Obs.sends ⟨0, 0⟩ (heirBorn [lastTask] 0 log).log =
      ((lifetime ⟨0, 0⟩ log).filterMap (Obs.sends ⟨0, 0⟩)).reverse := rfl
  have hwaiting : (heirBorn [lastTask] 0 log).waiting ⟨0, 0⟩ =
      [⟨.atom 0 7, .atom 0, .send (some ⟨0, 0⟩)⟩] := rfl
  rw [hsent, hnone, hwaiting] at hfifo
  simp at hfifo

end Config

end Eveboros
