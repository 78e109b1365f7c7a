import Eveboros.Background.Messages
import Eveboros.Runs.Queue

/-!
# Background jobs

A job runs in a thread of the pool while the loop goes on, and all that the loop learns of it comes
over the channel.  What the user's code does in a job is a parameter; the threads and the loop
take their steps in any order.
-/

namespace Eveboros

variable {Ev : Type}

/-- What a closure of the user does once it is called. -/
inductive Outcome (α : Type)
  | returns (result : Except Error α)
  | panics

/-- What an iterator of the user does: it yields the items, and then it ends or panics. -/
structure Iteration (R : TypeId) where
  items : List (Typed R)
  panics : Bool

inductive BackgroundTask
  | background (R : TypeId) (f : Outcome (Typed R))
  | backgroundIter (R : TypeId) (f : Outcome (Iteration R))

/-- Where the thread of a job is. -/
inductive JobState
  /-- In the queue of the pool. -/
  | waiting
  /-- `background` is about to call the closure, with its wrapper in place. -/
  | calling (R : TypeId) (wrapper : BackgroundWrapper R) (f : Outcome (Typed R))
  /-- It has sent the result. -/
  | sent (R : TypeId) (wrapper : BackgroundWrapper R)
  /-- The wrapper goes out of scope, or the stack is unwound. -/
  | dropping (R : TypeId) (wrapper : BackgroundWrapper R)
  /-- `background_iter` is about to call the closure. -/
  | callingIter (R : TypeId) (f : Outcome (Iteration R))
  | iterating (R : TypeId) (iter : Iteration R)
  | ended

structure Job where
  requestor : Handle
  id : BackgroundId
  task : BackgroundTask
  state : JobState

namespace Job

/-- The next step of the thread, with the message that it sends if it does. -/
def advance (job : Job) : Option (Option RemoteMessage × JobState) :=
  match job.state with
  | .waiting =>
      match job.task with
      | .background R f => some (none, .calling R ⟨job.requestor, job.id, false⟩ f)
      | .backgroundIter R f => some (none, .callingIter R f)
  | .calling R wrapper f =>
      match f with
      | .returns result =>
          some (some (backgroundResult job.requestor job.id result), .sent R wrapper)
      | .panics => some (none, .dropping R wrapper)
  | .sent R wrapper => some (none, .dropping R { wrapper with complete := true })
  | .dropping _ wrapper => some (wrapper.drop, .ended)
  | .callingIter R f =>
      match f with
      | .returns (.ok iter) => some (none, .iterating R iter)
      | .returns (.error err) =>
          some (some (iterSend job.requestor job.id (.error err : Except Error (Typed R))), .ended)
      -- Nothing is in place that would tell of it.
      | .panics => some (none, .ended)
  | .iterating R iter =>
      match iter.items with
      | item :: items =>
          some (some (iterSend job.requestor job.id (.ok item)),
            .iterating R { iter with items := items })
      | [] =>
          if iter.panics then some (none, .ended)
          else
            some (some (iterSend job.requestor job.id (.error .iterEnd : Except Error (Typed R))),
              .ended)
  | .ended => none

end Job

structure Pooled (Ev : Type) where
  config : Config Ev
  /-- In the order of submission. -/
  jobs : List Job
  /-- Ghost: what each of them has put on the channel, oldest first. -/
  posted : Nat → List RemoteMessage

inductive PooledAction (Ev : Type)
  | loop (a : Action Ev)
  /-- The callback that runs submits a job. -/
  | submit (task : BackgroundTask)
  /-- The thread of a job takes a step. -/
  | work (k : Nat)

/-- What the loop and the pool do together. -/
def Action.isJoint : Action Ev → Bool
  | .call (.scope .backgroundSubmit) => true
  | .remote m =>
      match m.mode with
      | .background _ => true
      | _ => false
  | _ => false

namespace Pooled

def start (now : Nat) : Pooled Ev := ⟨.init now, [], fun _ => []⟩

def post (c : Config Ev) : Option RemoteMessage → Except Fault (Config Ev)
  | none => .ok c
  | some m => c.step (.remote m)

def step (p : Pooled Ev) (a : PooledAction Ev) : Except Fault (Pooled Ev) :=
  match a with
  | .loop a =>
      if a.isJoint then .error .disabled
      else do
        let config ← p.config.step a
        return { p with config := config }
  | .submit task =>
      match p.config.caller with
      | none => .error .disabled
      | some handle => do
          let config ← p.config.step (.call (.scope .backgroundSubmit))
          let id : BackgroundId := ⟨p.config.loop.backgroundGeneration⟩
          return { p with config := config, jobs := p.jobs ++ [⟨handle, id, task, .waiting⟩] }
  | .work k =>
      match p.jobs[k]? with
      | none => .error .disabled
      | some job =>
          match job.advance with
          | none => .error .disabled
          | some (message, state) => do
              let config ← post p.config message
              return {
                config := config
                jobs := p.jobs.set k { job with state := state }
                posted := Function.update p.posted k (p.posted k ++ message.toList) }

end Pooled

/-! ## What a job owes to its event -/

/-- The contents of the messages that the event is to get: the results, and the end of the job if
it is not one of them. -/
def BackgroundTask.due : BackgroundTask → List AnyBox
  | .background _ (.returns result) => [(Typed.ofResult result).val]
  | .background R .panics => [.err R .backgroundPanicked]
  | .backgroundIter R (.returns (.ok iter)) =>
      iter.items.map (fun item => .ok item.val) ++
        [.err R (if iter.panics then .backgroundPanicked else .iterEnd)]
  | .backgroundIter R (.returns (.error err)) => [.err R err]
  | .backgroundIter R .panics => [.err R .backgroundPanicked]

/-- The closure or the iterator of `background_iter` panics. -/
def BackgroundTask.PanicsInIter : BackgroundTask → Prop
  | .background _ _ => False
  | .backgroundIter _ (.returns (.ok iter)) => iter.panics = true
  | .backgroundIter _ (.returns (.error _)) => False
  | .backgroundIter _ .panics => True

/-- The job has sent what was due, each message in its own name and to its own event. -/
structure Pooled.Settled (p : Pooled Ev) (k : Nat) (job : Job) : Prop where
  contents : (p.posted k).map RemoteMessage.data = job.task.due
  addressed : ∀ m ∈ p.posted k, m.mode = .background job.id ∧ m.recipient = job.requestor

/-! ## What a job sends -/

namespace Job

/-- All that the code sends for the task from its beginning to its end. -/
def script (job : Job) : List RemoteMessage :=
  match job.task with
  | .background _ (.returns result) => [backgroundResult job.requestor job.id result]
  | .background R .panics => (⟨job.requestor, job.id, false⟩ : BackgroundWrapper R).drop.toList
  | .backgroundIter R (.returns (.ok iter)) =>
      iter.items.map (fun item => iterSend job.requestor job.id (.ok item)) ++
        if iter.panics then [] else [iterSend job.requestor job.id
          (.error .iterEnd : Except Error (Typed R))]
  | .backgroundIter R (.returns (.error err)) =>
      [iterSend job.requestor job.id (.error err : Except Error (Typed R))]
  | .backgroundIter _ .panics => []

def remaining (job : Job) : List RemoteMessage :=
  match job.state with
  | .waiting => job.script
  | .calling _ _ (.returns result) => [backgroundResult job.requestor job.id result]
  | .calling _ wrapper .panics => wrapper.drop.toList
  | .sent _ _ => []
  | .dropping _ wrapper => wrapper.drop.toList
  | .callingIter R f => { job with task := .backgroundIter R f }.script
  | .iterating R iter => { job with task := .backgroundIter R (.returns (.ok iter)) }.script
  | .ended => []

theorem remaining_advance {job : Job} {message : Option RemoteMessage} {state : JobState}
    (h : job.advance = some (message, state)) :
    job.remaining = message.toList ++ { job with state := state }.remaining := by
  rcases job with ⟨requestor, id, task, state⟩
  cases state with
  | waiting =>
      cases task with
      | background R f =>
          cases h
          cases f <;> rfl
      | backgroundIter R f =>
          cases h
          rfl
  | calling R wrapper f =>
      cases f <;> cases h <;> rfl
  | sent R wrapper =>
      cases h
      rfl
  | dropping R wrapper =>
      cases h
      exact (List.append_nil _).symm
  | callingIter R f =>
      cases f with
      | returns result => cases result <;> cases h <;> rfl
      | panics =>
          cases h
          rfl
  | iterating R iter =>
      rcases iter with ⟨items, panics⟩
      cases items with
      | cons item items =>
          cases h
          rfl
      | nil =>
          cases panics <;> cases h <;> rfl
  | ended => cases h

/-- How many steps the thread takes at most. -/
def left (job : Job) : Nat :=
  match job.state with
  | .waiting =>
      match job.task with
      | .backgroundIter _ (.returns (.ok iter)) => iter.items.length + 3
      | _ => 4
  | .calling _ _ _ => 3
  | .sent _ _ => 2
  | .dropping _ _ => 1
  | .callingIter _ (.returns (.ok iter)) => iter.items.length + 2
  | .callingIter _ _ => 1
  | .iterating _ iter => iter.items.length + 1
  | .ended => 0

/-- A job that has not ended goes on, and not forever. -/
theorem advance_left {job : Job} (h : job.state ≠ .ended) :
    ∃ message state, job.advance = some (message, state) ∧
      { job with state := state }.left < job.left := by
  rcases job with ⟨requestor, id, task, state⟩
  cases state with
  | waiting =>
      cases task with
      | background R f => exact ⟨_, _, rfl, by simp [left]⟩
      | backgroundIter R f =>
          cases f with
          | returns result => cases result <;> exact ⟨_, _, rfl, by simp [left]⟩
          | panics => exact ⟨_, _, rfl, by simp [left]⟩
  | calling R wrapper f => cases f <;> exact ⟨_, _, rfl, by simp [left]⟩
  | sent R wrapper => exact ⟨_, _, rfl, by simp [left]⟩
  | dropping R wrapper => exact ⟨_, _, rfl, by simp [left]⟩
  | callingIter R f =>
      cases f with
      | returns result => cases result <;> exact ⟨_, _, rfl, by simp [left]⟩
      | panics => exact ⟨_, _, rfl, by simp [left]⟩
  | iterating R iter =>
      rcases iter with ⟨items, panics⟩
      cases items with
      | cons item items => exact ⟨_, _, rfl, by simp [left]⟩
      | nil => cases panics <;> exact ⟨_, _, rfl, by simp [left]⟩
  | ended => exact absurd rfl h

theorem script_addressed (job : Job) :
    ∀ m ∈ job.script, m.mode = .background job.id ∧ m.recipient = job.requestor := by
  intro m hmem
  rcases job with ⟨requestor, id, task, state⟩
  cases task with
  | background R f =>
      cases f <;> obtain rfl := List.mem_singleton.mp hmem <;> exact ⟨rfl, rfl⟩
  | backgroundIter R f =>
      cases f with
      | panics => cases hmem
      | returns result =>
          cases result with
          | error err =>
              obtain rfl := List.mem_singleton.mp hmem
              exact ⟨rfl, rfl⟩
          | ok iter =>
              rcases List.mem_append.mp hmem with hitem | hend
              · obtain ⟨item, _, rfl⟩ := List.mem_map.mp hitem
                exact ⟨rfl, rfl⟩
              · cases hpanics : iter.panics with
                | true => simp [hpanics] at hend
                | false =>
                    simp only [hpanics, Bool.false_eq_true, ↓reduceIte, List.mem_singleton] at hend
                    subst hend
                    exact ⟨rfl, rfl⟩

/-- Where nothing panics in an iteration, the code sends what is due, otherwise less. -/
theorem script_contents (job : Job) :
    (job.script.map RemoteMessage.data = job.task.due ↔ ¬job.task.PanicsInIter) ∧
      job.script.map RemoteMessage.data <+: job.task.due := by
  have done (heq : job.script.map RemoteMessage.data = job.task.due)
      (hquiet : ¬job.task.PanicsInIter) :
      (job.script.map RemoteMessage.data = job.task.due ↔ ¬job.task.PanicsInIter) ∧
        job.script.map RemoteMessage.data <+: job.task.due :=
    ⟨iff_of_true heq hquiet, heq ▸ List.prefix_refl _⟩
  rcases job with ⟨requestor, name, task, state⟩
  cases task with
  | background R f => cases f <;> exact done rfl not_false
  | backgroundIter R f =>
      cases f with
      | panics => exact ⟨iff_of_false nofun (not_not_intro trivial), List.nil_prefix⟩
      | returns result =>
          cases result with
          | error err => exact done rfl not_false
          | ok iter =>
              rcases iter with ⟨items, panics⟩
              cases panics with
              | false => exact done (by simp [script, BackgroundTask.due]) nofun
              | true =>
                  refine ⟨iff_of_false (fun heq => ?_) (not_not_intro rfl), ?_⟩
                  · -- One message is missing at the end.
                    have hlen := congrArg List.length heq
                    simp [script, BackgroundTask.due] at hlen
                  · simp [script, BackgroundTask.due]

end Job

/-! ## Jobs beside the loop -/

namespace Pooled

open TransitionSystem

variable {p p' : Pooled Ev} {k : Nat} {job : Job}

/-- What has been sent and what is left to send are the whole. -/
structure Kept (p : Pooled Ev) : Prop where
  known : ∀ job ∈ p.jobs, (job.id, job.requestor) ∈ p.config.loop.jobs
  posted (k : Nat) (job : Job) : p.jobs[k]? = some job →
    p.posted k ++ job.remaining = job.script
  unborn (k : Nat) : p.jobs.length ≤ k → p.posted k = []

/-- The loop knows the job that a callback has submitted. -/
theorem submitted_known {c c' : Config Ev} {handle : Handle} (hcaller : c.caller = some handle)
    (h : c.step (.call (.scope .backgroundSubmit)) = .ok c') :
    (⟨c.loop.backgroundGeneration⟩, handle) ∈ c'.loop.jobs := by
  have e := Config.step_edit h nofun
  cases e with
  | submitted handle' ha hctl hcaller' =>
      rw [hcaller] at hcaller'
      cases hcaller'
      exact List.mem_cons_self
  | refusal op err ha hctl hr =>
      cases ha
      exact hr.elim
  | query op v ha hctl hq =>
      cases ha
      exact hq.elim
  | timer op _ _ _ _ ha hctl hcaller' hop =>
      cases ha
      cases hop
  | _ => simp_all [Action.IsGather, Action.IsSettle]

theorem kept_loop (q : Kept p) {a : Action Ev} {c : Config Ev} (h : p.config.step a = .ok c) :
    Kept { p with config := c } :=
  ⟨fun job hmem => Config.step_jobs h (q.known job hmem), q.posted, q.unborn⟩

theorem kept_submit (q : Kept p) {handle : Handle} {task : BackgroundTask}
    (hcaller : p.config.caller = some handle)
    (h : p.config.step (.call (.scope .backgroundSubmit)) = .ok p'.config)
    (hjobs : p'.jobs =
      p.jobs ++ [⟨handle, ⟨p.config.loop.backgroundGeneration⟩, task, .waiting⟩])
    (hposted : p'.posted = p.posted) : Kept p' where
  known job hmem := by
    rw [hjobs] at hmem
    rcases List.mem_append.mp hmem with hold | hnew
    · exact Config.step_jobs h (q.known job hold)
    · obtain rfl := List.mem_singleton.mp hnew
      exact submitted_known hcaller h
  posted k job hjob := by
    rw [hjobs, List.getElem?_append] at hjob
    rw [hposted]
    split at hjob
    · exact q.posted k job hjob
    · rename_i hlen
      obtain rfl := List.mem_singleton.mp (List.mem_of_getElem? hjob)
      rw [q.unborn k (Nat.le_of_not_lt hlen)]
      rfl
  unborn k hlen := by
    rw [hjobs, List.length_append] at hlen
    rw [hposted]
    exact q.unborn k (Nat.le_trans (Nat.le_add_right _ _) hlen)

theorem kept_work (q : Kept p) (hjob : p.jobs[k]? = some job) {message : Option RemoteMessage}
    {state : JobState} (hadvance : job.advance = some (message, state))
    (hloop : p.config.loop.jobs ⊆ p'.config.loop.jobs)
    (hjobs : p'.jobs = p.jobs.set k { job with state := state })
    (hposted : p'.posted = Function.update p.posted k (p.posted k ++ message.toList)) :
    Kept p' where
  known job' hmem := by
    rw [hjobs] at hmem
    rcases List.mem_or_eq_of_mem_set hmem with hold | rfl
    · exact hloop (q.known job' hold)
    · exact hloop (q.known job (List.mem_of_getElem? hjob))
  posted k' job' hjob' := by
    rw [hjobs] at hjob'
    rw [hposted]
    by_cases heq : k' = k
    · subst heq
      rw [List.getElem?_set_self (List.getElem?_eq_some_iff.mp hjob).1] at hjob'
      cases hjob'
      rw [Function.update_self, List.append_assoc, ← Job.remaining_advance hadvance]
      exact q.posted k' job hjob
    · rw [List.getElem?_set_ne (Ne.symm heq)] at hjob'
      rw [Function.update_of_ne heq]
      exact q.posted k' job' hjob'
  unborn k' hlen := by
    rw [hjobs, List.length_set] at hlen
    have hne : k' ≠ k := by
      rintro rfl
      exact absurd (List.getElem?_eq_some_iff.mp hjob).1 (Nat.not_lt.mpr hlen)
    rw [hposted, Function.update_of_ne hne]
    exact q.unborn k' hlen

theorem post_jobs {c c' : Config Ev} {message : Option RemoteMessage}
    (h : post c message = .ok c') : c.loop.jobs ⊆ c'.loop.jobs := by
  cases message with
  | none =>
      cases h
      exact List.Subset.refl _
  | some m => exact Config.step_jobs (a := .remote m) h

theorem kept_step (q : Kept p) {a : PooledAction Ev} (h : p.step a = .ok p') : Kept p' := by
  cases a with
  | loop a =>
      simp only [step] at h
      split at h
      · cases h
      · obtain ⟨c, hc, h⟩ := Except.bind_eq_ok.mp h
        cases h
        exact kept_loop q hc
  | submit task =>
      simp only [step] at h
      split at h
      · cases h
      · rename_i handle hcaller
        obtain ⟨c, hc, h⟩ := Except.bind_eq_ok.mp h
        cases h
        exact kept_submit q hcaller hc rfl rfl
  | work k =>
      simp only [step] at h
      split at h
      · cases h
      · rename_i job hjob
        split at h
        · cases h
        · rename_i message state hadvance
          obtain ⟨c, hc, h⟩ := Except.bind_eq_ok.mp h
          cases h
          exact kept_work q hjob hadvance (post_jobs hc) rfl rfl

theorem step_work (hjob : p.jobs[k]? = some job) {message : Option RemoteMessage} {state : JobState}
    (hadvance : job.advance = some (message, state)) {c : Config Ev}
    (hpost : post p.config message = .ok c) : p.step (.work k) = .ok {
      config := c
      jobs := p.jobs.set k { job with state := state }
      posted := Function.update p.posted k (p.posted k ++ message.toList) } := by
  simp only [step, hjob, hadvance, hpost]
  rfl

/-- The loop takes any message of a job that it knows. -/
theorem post_known (q : Kept p) (hjob : p.jobs[k]? = some job) {m : RemoteMessage}
    (hmem : m ∈ job.script) : ∃ c, post p.config (some m) = .ok c := by
  obtain ⟨hmode, hrecipient⟩ := job.script_addressed m hmem
  have hknown := q.known job (List.mem_of_getElem? hjob)
  have hmay : Config.mayArrive p.config.loop m = true := by
    cases hpool : p.config.loop.threadpool with
    | none => simp [Loop.jobs, hpool] at hknown
    | some pool => simpa [Config.mayArrive, hmode, hrecipient, hpool, Loop.jobs] using hknown
  exact ⟨_, by rw [post, Config.step, if_pos hmay]⟩

/-- A thread can always take its next step. -/
theorem work_enabled (q : Kept p) (hjob : p.jobs[k]? = some job) (hstate : job.state ≠ .ended) :
    ∃ p' job', p.step (.work k) = .ok p' ∧ p'.jobs[k]? = some job' ∧ job'.left < job.left := by
  obtain ⟨message, state, hadvance, hleft⟩ := Job.advance_left hstate
  obtain ⟨c, hpost⟩ : ∃ c, post p.config message = .ok c := by
    cases message with
    | none => exact ⟨p.config, rfl⟩
    | some m =>
        apply post_known q hjob
        rw [← q.posted k job hjob, Job.remaining_advance hadvance]
        simp
  have hlt := (List.getElem?_eq_some_iff.mp hjob).1
  exact ⟨_, _, step_work hjob hadvance hpost, List.getElem?_set_self hlt, hleft⟩

/-- Left to itself, a thread comes to the end of its job. -/
theorem work_ends (n : Nat) : ∀ (p : Pooled Ev) (job : Job), Kept p → p.jobs[k]? = some job →
    job.left ≤ n → ∃ m p' job', run step p (List.replicate m (.work k)) = .ok p' ∧
      p'.jobs[k]? = some job' ∧ job'.state = .ended := by
  induction n with
  | zero =>
      intro p job q hjob hleft
      refine ⟨0, p, job, rfl, hjob, ?_⟩
      by_contra hstate
      obtain ⟨_, _, _, hless⟩ := Job.advance_left hstate
      omega
  | succ n ih =>
      intro p job q hjob hleft
      by_cases hstate : job.state = .ended
      · exact ⟨0, p, job, rfl, hjob, hstate⟩
      · obtain ⟨p₁, job₁, hwork, hjob₁, hless⟩ := work_enabled q hjob hstate
        obtain ⟨m, p', job', hrun, hjob', hended⟩ :=
          ih p₁ job₁ (kept_step q hwork) hjob₁ (by omega)
        exact ⟨m + 1, p', job', (run_cons hwork _).trans hrun, hjob', hended⟩

theorem kept_start (now : Nat) : Kept (start now : Pooled Ev) where
  known job hmem := by simp [start] at hmem
  posted k job hjob := by simp [start] at hjob
  unborn _ _ := rfl

theorem kept_of_reach {now : Nat} (h : Reach step (fun _ _ => True) (start now) p) : Kept p :=
  h.invariant (kept_start now) fun _ _ _ q _ hs => kept_step q hs

/-- A job that has ended has told its event all it was to tell, exactly if it did not panic in
`background_iter`.  It never tells anything else, and it goes on until it has ended. -/
theorem job_ends_iff_no_panic_in_iter (now : Nat) (p : Pooled Ev)
    (h : Reach step (fun _ _ => True) (start now) p) (k : Nat) (job : Job)
    (hjob : p.jobs[k]? = some job) :
    (job.state = .ended → (p.Settled k job ↔ ¬job.task.PanicsInIter)) ∧
    (p.posted k).map RemoteMessage.data <+: job.task.due ∧
    (∀ m ∈ p.posted k, m.mode = .background job.id ∧ m.recipient = job.requestor) ∧
    ∃ n p' job', run step p (List.replicate n (.work k)) = .ok p' ∧ p'.jobs[k]? = some job' ∧
      job'.state = .ended := by
  have q := kept_of_reach h
  have hkept := q.posted k job hjob
  obtain ⟨hexact, hprefix⟩ := job.script_contents
  have hposted : p.posted k <+: job.script := ⟨_, hkept⟩
  have haddressed : ∀ m ∈ p.posted k, m.mode = .background job.id ∧ m.recipient = job.requestor :=
    fun m hmem => job.script_addressed m (hposted.subset hmem)
  refine ⟨fun hended => ?_, (hposted.map _).trans hprefix, haddressed,
    work_ends job.left p job q hjob (Nat.le_refl _)⟩
  have hall : p.posted k = job.script := by
    rw [← hkept, Job.remaining, hended, List.append_nil]
  rw [← hexact, ← hall]
  exact ⟨fun hsettled => hsettled.contents, fun hcontents => ⟨hcontents, haddressed⟩⟩

/-- An event submits a job in its `init`, whose thread gets to the end of it. -/
def oneJob (task : BackgroundTask) (steps : Nat) : List (PooledAction Unit) :=
  [.loop (.call (.iface (.insertExact () ⟨3, true⟩))), .loop .tick, .submit task] ++
    List.replicate steps (.work 0)

/-- A closure that panics in `background`. -/
def brokenJob : BackgroundTask := .background (.atom 0) .panics

theorem job_ends_iff_no_panic_in_iter_brokenJob : ∃ p : Pooled Unit,
    run step (start 0) (oneJob brokenJob 3) = .ok p ∧
      (p.posted 0).map RemoteMessage.data = [.err (.atom 0) .backgroundPanicked] := by
  obtain ⟨p, hrun, hjob⟩ : ∃ p : Pooled Unit, run step (start 0) (oneJob brokenJob 3) = .ok p ∧
      p.jobs[0]? = some ⟨⟨0, 0⟩, ⟨0⟩, brokenJob, .ended⟩ := ⟨_, rfl, rfl⟩
  have h := job_ends_iff_no_panic_in_iter 0 p (.of_run hrun) 0 _ hjob
  exact ⟨p, hrun, ((h.1 rfl).mpr nofun).contents⟩

/-- An iterator that panics after its first item. -/
def brokenIter : BackgroundTask :=
  .backgroundIter (.atom 0) (.returns (.ok ⟨[⟨.atom 0 7, rfl⟩], true⟩))

/-- The event gets the item and is never told that the job has ended. -/
theorem brokenIter_ends_silently : ∃ p : Pooled Unit,
    run step (start 0) (oneJob brokenIter 4) = .ok p ∧
      p.jobs[0]? = some ⟨⟨0, 0⟩, ⟨0⟩, brokenIter, .ended⟩ ∧
      (p.posted 0).map RemoteMessage.data = [.ok (.atom 0 7)] ∧
      ¬p.Settled 0 ⟨⟨0, 0⟩, ⟨0⟩, brokenIter, .ended⟩ := by
  obtain ⟨p, hrun, hjob, hposted⟩ : ∃ p : Pooled Unit,
      run step (start 0) (oneJob brokenIter 4) = .ok p ∧
      p.jobs[0]? = some ⟨⟨0, 0⟩, ⟨0⟩, brokenIter, .ended⟩ ∧
      (p.posted 0).map RemoteMessage.data = [.ok (.atom 0 7)] := ⟨_, rfl, rfl, rfl⟩
  refine ⟨p, hrun, hjob, hposted, fun hsettled => ?_⟩
  have hcontents := hsettled.contents
  rw [hposted] at hcontents
  simp [brokenIter, BackgroundTask.due] at hcontents

end Pooled

end Eveboros
