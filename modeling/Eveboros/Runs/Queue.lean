import Mathlib.Data.List.TakeWhile
import Eveboros.Machine.Origin
import Eveboros.Runs.Timers

/-!
# What passes through the queue

The history tells which tasks have left the queue.  Together with those that still wait they are
all tasks that were ever scheduled, in that order.  A task may outlive its recipient, and here is
how it comes to be addressed to another event.
-/

namespace Eveboros

variable {Ev : Type}

def Obs.handled : Obs Ev → Option Task
  | .dispatched task => some task
  | .dropped task => some task
  | _ => none

/-- What has happened since the last death under the handle, newest first. -/
def lifetime (handle : Handle) (log : List (Obs Ev)) : List (Obs Ev) :=
  log.takeWhile fun o => o.slain ≠ some handle

theorem lifetime_of_not_slain {handle : Handle} {log : List (Obs Ev)}
    (h : handle ∉ log.filterMap Obs.slain) : lifetime handle log = log := by
  apply List.takeWhile_eq_self_iff.mpr
  intro o ho
  have hne : o.slain ≠ some handle := fun heq => h (List.mem_filterMap.mpr ⟨o, ho, heq⟩)
  simpa using hne

theorem mem_lifetime_cons {handle : Handle} {log : List (Obs Ev)} {o o' : Obs Ev}
    (h : o' ∈ lifetime handle (o :: log)) : o' = o ∨ o' ∈ lifetime handle log := by
  unfold lifetime at h
  rw [List.takeWhile_cons] at h
  split at h
  · exact List.mem_cons.mp h
  · cases h

/-- In this history, every message was passed to an event as `P` says of what went before. -/
def WhenPassed (P : Handle → Message → List (Obs Ev) → Prop) (log : List (Obs Ev)) : Prop :=
  ∀ handle m event older, .called handle (.message m) event :: older <:+ log → P handle m older

theorem WhenPassed.cons {P : Handle → Message → List (Obs Ev) → Prop} {log : List (Obs Ev)}
    (q : WhenPassed P log) {o : Obs Ev}
    (ho : ∀ handle m event, o = .called handle (.message m) event → P handle m log) :
    WhenPassed P (o :: log) := by
  intro handle m event older hsuffix
  rcases List.suffix_cons_iff.mp hsuffix with heq | hold
  · obtain ⟨rfl, rfl⟩ := List.cons.inj heq
    exact ho handle m event rfl
  · exact q handle m event older hold

def Loop.jobs (l : Loop Ev) : List (BackgroundId × Handle) :=
  match l.threadpool with
  | some pool => pool.jobs
  | none => []

namespace Config

open Loop

variable {c c' : Config Ev} {a : Action Ev}

/-- The tasks that have left the queue, oldest first. -/
def handled (c : Config Ev) : List Task := (c.log.filterMap Obs.handled).reverse

/-- The tasks that have ever been in the queue, in order. -/
def everQueued (c : Config Ev) : List Task := c.handled ++ c.loop.scheduled

/-! ## The queue only grows at its end -/

theorem everQueued_popped {task : Task} {rest : List Task} {o : Obs Ev}
    (hsched : c.loop.scheduled = task :: rest) (ho : o.handled = some task)
    (hlog : c'.log = o :: c.log) (hsched' : c'.loop.scheduled = rest) :
    c'.everQueued = c.everQueued := by
  simp [everQueued, handled, hsched, hsched', hlog, ho]

theorem everQueued_scheduled {new : List Task} (hlog : c'.handled = c.handled)
    (hsched : c'.loop.scheduled = c.loop.scheduled ++ new) :
    c'.everQueued = c.everQueued ++ new := by
  rw [everQueued, everQueued, hlog, hsched, List.append_assoc]

/-- An elementary change adds tasks at the end and otherwise only moves them on. -/
theorem Edit.everQueued (e : Edit a c c') :
    ∃ new, c'.everQueued = c.everQueued ++ new ∧ ∀ task ∈ new, Origin a c task := by
  cases e with
  | sent handle data tp holder ha =>
      refine ⟨_, everQueued_scheduled rfl rfl, ?_⟩
      intro task hmem
      obtain rfl := List.mem_singleton.mp hmem
      exact .sent handle data tp ha
  | received m rest ha hctl hrecv hpass =>
      refine ⟨_, everQueued_scheduled rfl rfl, ?_⟩
      intro task hmem
      obtain rfl := List.mem_singleton.mp hmem
      exact .received m ha (by simp [hrecv])
  | reaped pid exit handle holder events ha hctl hlookup hget hchild hset =>
      refine ⟨_, everQueued_scheduled rfl rfl, ?_⟩
      intro task hmem
      obtain rfl := List.mem_singleton.mp hmem
      exact .child pid exit handle ha hlookup
  | broadcast signal ha hctl =>
      refine ⟨_, everQueued_scheduled rfl rfl, ?_⟩
      intro task hmem
      obtain ⟨handle, hrec, rfl⟩ := List.mem_map.mp hmem
      exact .signal signal handle ha hrec
  | ready env ev polled id handle ha hctl hpoll hev hid hget =>
      refine ⟨_, everQueued_scheduled rfl rfl, ?_⟩
      intro task hmem
      obtain rfl := List.mem_singleton.mp hmem
      exact .io env ev polled id handle ha hpoll hev hid hget
  | timed ha hctl =>
      refine ⟨_, everQueued_scheduled rfl rfl, ?_⟩
      intro task hmem
      obtain ⟨t, ht, rfl⟩ := List.mem_map.mp hmem
      obtain ⟨hheap, hdue⟩ := due_of_popped ht
      exact .timeout t ha hheap hdue
  | idleTaken handle rest ha hctl hsched hpop =>
      refine ⟨_, everQueued_scheduled rfl rfl, ?_⟩
      intro task hmem
      obtain rfl := List.mem_singleton.mp hmem
      exact .idle handle ha ((ListSet.mem_of_popFront hpop).mpr (.inl rfl))
  | dropped task rest ha hctl hsched
  | passed task rest _ ha hctl hsched
  | lost task rest _ _ _ _ ha hctl hsched
  | fired task rest _ _ _ _ ha hctl hsched =>
      refine ⟨[], ?_, nofun⟩
      rw [List.append_nil]
      exact everQueued_popped hsched rfl rfl rfl
  | _ => exact ⟨[], (List.append_nil _).symm, nofun⟩

/-! ## Where messages come from -/

/-- What waits in the channel of the loop: messages of other threads, and results of jobs. -/
structure Arrivals (c : Config Ev) : Prop where
  mode : ∀ m ∈ c.loop.receiver, m.mode = .remote ∨
    ∃ id, m.mode = .background id ∧ (id, m.recipient) ∈ c.loop.jobs

theorem mode_of_mayArrive {m : RemoteMessage} (hmay : mayArrive c.loop m = true) :
    m.mode = .remote ∨ ∃ id, m.mode = .background id ∧ (id, m.recipient) ∈ c.loop.jobs := by
  unfold mayArrive at hmay
  split at hmay
  · exact .inl ‹_›
  · rename_i id hmode
    refine .inr ⟨id, hmode, ?_⟩
    cases hpool : c.loop.threadpool with
    | none => simp [hpool] at hmay
    | some pool => simpa [jobs, hpool] using hmay
  · cases hmay

theorem Arrivals.mono (v : Arrivals c) (hrecv : c'.loop.receiver ⊆ c.loop.receiver)
    (hjobs : c.loop.jobs ⊆ c'.loop.jobs) : Arrivals c' where
  mode m hmem := by
    rcases v.mode m (hrecv hmem) with hremote | ⟨id, hmode, hjob⟩
    · exact .inl hremote
    · exact .inr ⟨id, hmode, hjobs hjob⟩

/-- No job is ever forgotten. -/
theorem Edit.jobs_subset (e : Edit a c c') : c.loop.jobs ⊆ c'.loop.jobs := by
  cases e with
  | submitted handle =>
      intro job hjob
      cases hpool : c.loop.threadpool with
      | none => simp [jobs, hpool] at hjob
      | some pool =>
          simp only [jobs, hpool] at hjob
          simp [answer, backgroundSubmit, jobs, hpool, hjob]
  | poolSet cnt =>
      intro job hjob
      cases hpool : c.loop.threadpool with
      | none => simp [jobs, hpool] at hjob
      | some pool =>
          simp only [jobs, hpool] at hjob
          simp [answer, jobs, hjob]
  | _ => exact List.Subset.refl _

theorem step_jobs (h : c.step a = .ok c') : c.loop.jobs ⊆ c'.loop.jobs := by
  have hedits := step_edits h
  clear h
  induction hedits with
  | refl => exact List.Subset.refl _
  | tail _ hlast ih => exact List.Subset.trans ih hlast.jobs_subset

theorem arrivals_edit (v : Arrivals c) (e : Edit a c c') : Arrivals c' := by
  have he := e
  cases e with
  | arrived m ha hmay =>
      refine ⟨fun m' hmem => ?_⟩
      rcases List.mem_append.mp hmem with hold | hnew
      · exact v.mode m' hold
      · obtain rfl := List.mem_singleton.mp hnew
        exact mode_of_mayArrive hmay
  | received m rest ha hctl hrecv | ignored m rest ha hctl hrecv =>
      exact v.mono (by rw [hrecv]; exact List.subset_cons_self _ _) he.jobs_subset
  | _ => exact v.mono (List.Subset.refl _) he.jobs_subset

theorem Visited.arrivals {P : Config Ev → Action Ev → Prop} (h : Visited P c) : Arrivals c := by
  induction h with
  | start now => exact ⟨nofun⟩
  | edit _ _ he ih => exact arrivals_edit ih he

/-! ## Who is called -/

def CallsAlive (c : Config Ev) : Prop :=
  ∀ handle cb, c.ctl = .call handle cb → c.loop.eventAlive handle = true

theorem callsAlive_edit (q : CallsAlive c) (e : Edit a c c') : CallsAlive c' := by
  intro handle cb hctl'
  cases e with
  | stored event growth idx events ha hctl hstore =>
      cases hctl'
      simp [eventAlive, hstore.get?, EvHolder.new]
  | posted _ data tp holder ha hctl hget hgen =>
      cases hctl'
      exact eventAlive_iff.mpr ⟨holder, hget, hgen⟩
  | passed task rest holder ha hctl hsched hget hgen =>
      cases hctl'
      exact eventAlive_iff.mpr ⟨holder, hget, hgen⟩
  | fired task rest id left holder events ha hctl hsched hparam hget hgen hleft hset =>
      cases hctl'
      rw [eventAlive_of_sets hset hget rfl rfl]
      exact eventAlive_iff.mpr ⟨holder, hget, hgen⟩
  | timer _ _ _ _ _ _ hctl | expected _ _ _ _ _ hctl | ioRegistered _ _ _ _ _ _ _ hctl
  | ioRemoved _ _ _ _ _ _ _ _ hctl | tracked _ _ _ _ _ hctl =>
      simp [answer, hctl] at hctl'
  | reaped _ _ _ _ _ _ hctl => simp [hctl] at hctl'
  | _ => first | exact q handle cb hctl' | cases hctl'

theorem Visited.callsAlive {P : Config Ev → Action Ev → Prop} (h : Visited P c) :
    CallsAlive c := by
  induction h with
  | start now => exact nofun
  | edit hv _ he ih => exact callsAlive_edit ih he

/-- What holds whenever a message is about to be passed to an event holds all along the history of
few insertions. -/
theorem Visited.whenPassed {P : Handle → Message → List (Obs Ev) → Prop}
    (call : ∀ (c : Config Ev) handle m, Visited Anything c → c.issued.length ≤ 2 ^ 64 →
      c.ctl = .call handle (.message m) → P handle m c.log)
    (h : Visited Anything c) (hfew : c.issued.length ≤ 2 ^ 64) : WhenPassed P c.log := by
  induction h with
  | start now =>
      intro handle m event older hsuffix
      cases List.suffix_nil.mp hsuffix
  | edit hv _ he ih =>
      have hold := Nat.le_trans he.issued_length_le hfew
      have q := ih hold
      cases he with
      | entered handle cb holder events ha hctl =>
          apply q.cons
          rintro _ m _ ⟨⟩
          exact call _ handle m hv hold hctl
      | _ => first | exact q | exact q.cons nofun

/-! ## Tasks that outlive their recipient

Nobody runs the loop while events come and go, until the handle of the first is issued again. -/

/-- A loop in which the first event left a queue behind, and what is in the slot now. -/
def abandoned (queue : List Task) (slot : Option (EvHolder Unit)) (generation : Nat) : Loop Unit :=
  { (Loop.new 0 : Loop Unit) with
    events := oneSlot slot
    generation := generation
    scheduled := queue }

def abandonedAt (queue : List Task) (generation : Nat) (log : List (Obs Unit)) : Config Unit :=
  ⟨abandoned queue none generation, [], .user, log, 0, id⟩

/-- After the insertion of another event, and in its `init`. -/
def heirBorn (queue : List Task) (generation : Nat) (log : List (Obs Unit)) : Config Unit :=
  ⟨abandoned queue (some (.new () generation)) (wrappingSucc generation),
    [.insertExact ⟨0, generation⟩], .call ⟨0, generation⟩ .init,
    .stored ⟨0, generation⟩ () :: log, 0, id⟩

def heirInInit (queue : List Task) (generation : Nat) (log : List (Obs Unit)) : Config Unit :=
  ⟨abandoned queue (some { EvHolder.new () generation with event := ⟨(), true⟩ })
      (wrappingSucc generation),
    [.callback ⟨0, generation⟩ .init ⟨⟨0, 0⟩⟩, .insertExact ⟨0, generation⟩], .user,
    .called ⟨0, generation⟩ .init () :: .stored ⟨0, generation⟩ () :: log, 0, id⟩

variable {queue : List Task}

theorem heirBorn_tick (generation : Nat) (log : List (Obs Unit)) :
    step (heirBorn queue generation log) .tick = .ok (heirInInit queue generation log) := by
  have hget : (heirBorn queue generation log).loop.events.get? 0 = some (.new () generation) := rfl
  have henter : step (heirBorn queue generation log) .tick =
      ((heirBorn queue generation log).enter ⟨0, generation⟩ .init).mapError .panic := rfl
  simp only [henter, enter, eventCallEnter, hget]
  rw [if_neg (fun hne => hne rfl)]
  rfl

theorem abandonedAt_round (queue : List Task) (generation : Nat) (log : List (Obs Unit)) :
    TransitionSystem.run step (abandonedAt queue generation log) (insertQuick :: .tick :: giveUp) =
      .ok (abandonedAt queue (wrappingSucc generation) (roundLog generation log)) := by
  have hinsert : step (abandonedAt queue generation log) insertQuick =
      .ok (heirBorn queue generation log) := rfl
  rw [TransitionSystem.run_cons hinsert, TransitionSystem.run_cons (heirBorn_tick generation log)]
  rfl

/-- In the rounds nobody asks the loop for anything in the name of the first event. -/
def Unasked (log : List (Obs Unit)) : Prop :=
  ∀ caller op ans, .answered caller op ans ∉ lifetime ⟨0, 0⟩ log

theorem unasked_round {log : List (Obs Unit)} (h : Unasked log) (generation : Nat) :
    Unasked (roundLog generation log) := by
  intro caller op ans hmem
  have hold : .answered caller op ans ∈ lifetime ⟨0, 0⟩ log := by
    iterate 5
      rcases mem_lifetime_cons hmem with heq | hmem
      · cases heq
    exact hmem
  exact h caller op ans hold

/-- Until the generations begin anew. -/
theorem reachable_abandonedAt {first : List (Obs Unit)}
    (hfirst : Reachable (abandonedAt queue 1 first)) (hunasked : Unasked first) (n : Nat) :
    ∃ log, Reachable (abandonedAt queue ((1 + n) % 2 ^ 64) log) ∧ Unasked log := by
  induction n with
  | zero => exact ⟨first, hfirst, hunasked⟩
  | succ n ih =>
      rcases ih with ⟨log, hr, hlog⟩
      have hrun := abandonedAt_round queue ((1 + n) % 2 ^ 64) log
      have hsucc : wrappingSucc ((1 + n) % 2 ^ 64) = (1 + (n + 1)) % 2 ^ 64 := by
        rw [wrappingSucc, Nat.mod_add_mod]
        rfl
      exact ⟨_, hsucc ▸ hr.reach (.of_run hrun), unasked_round hlog _⟩

end Config

end Eveboros
