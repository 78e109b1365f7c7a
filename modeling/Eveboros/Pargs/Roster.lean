import Eveboros.Pargs.Moves

/-!
# Who runs which command

Every command that runs has a runner of its own, which keeps the command and waits for its exit.  So
a runner that hears of an exit finds the command, and there are no more commands than runners.
-/

namespace Eveboros.Pargs

open Config Loop TransitionSystem

variable {p p' : Program} {handle : Handle}

def Job.key (job : Job) : Handle × Pid := (job.handle, job.pid)

/-- The exit that is passed to a runner and not noted yet. -/
def Stage.told : Stage → Multiset (Handle × Pid)
  | .entered handle (.child pid _) _ => {(handle, pid)}
  | _ => 0

inductive Free (ctl : Ctl) (stage : Stage) (handle : Handle) : Prop
  | born (h : ctl = .call handle .init)
  | initialised (event : Runner) (h : stage = .entered handle .init event)
  | running (event : Runner) (h : stage = .running handle event)
  | dying (resp : Response) (h : ctl = .settle handle resp) (hresp : resp ≠ .ok true)

theorem Free.of_ctl {ctl ctl' : Ctl} {stage : Stage} (h : Free ctl' stage handle)
    (hborn : ctl' ≠ .call handle .init)
    (hdying : ∀ resp, resp ≠ .ok true → ctl' ≠ .settle handle resp) :
    Free ctl stage handle := by
  cases h with
  | born h => exact absurd h hborn
  | initialised event h => exact .initialised event h
  | running event h => exact .running event h
  | dying resp h hresp => exact absurd h (hdying resp hresp)

structure Roster (p : Program) : Prop where
  awaited : p.conf.awaited + p.stage.told = ↑(p.working.map Job.key)
  nodup : (p.working.map Job.handle).Nodup
  alive : ∀ job ∈ p.working, p.conf.loop.eventAlive job.handle = true
  /-- The runner gets its command when the callback returns. -/
  value : ∀ job ∈ p.working, (∀ cmd, p.stage ≠ .registered job.handle cmd) →
    lastValue job.handle p.conf.log = some ⟨some job.command⟩
  registered (handle : Handle) (cmd : String) : p.stage = .registered handle cmd →
    ∃ pid, ⟨handle, pid, cmd⟩ ∈ p.working
  entered (handle : Handle) (cb : Callback) (event : Runner) :
    p.stage = .entered handle cb event → lastValue handle p.conf.log = some event
  free (handle : Handle) : Free p.conf.ctl p.stage handle → handle ∉ p.working.map Job.handle

namespace Roster

variable (q : Roster p)
include q

theorem job {key : Handle × Pid} (hmem : key ∈ p.conf.awaited + p.stage.told) :
    ∃ job ∈ p.working, job.key = key := by
  rw [q.awaited, Multiset.mem_coe] at hmem
  exact List.mem_map.mp hmem

/-- The command that a runner keeps is the one whose exit it hears of. -/
theorem told {pid : Pid} {exit : ChildExit} {event : Runner}
    (hstage : p.stage = .entered handle (.child pid exit) event) :
    ∃ cmd, event.command = some cmd ∧ ⟨handle, pid, cmd⟩ ∈ p.working := by
  have hmem : (handle, pid) ∈ p.stage.told := by
    rw [hstage]
    exact Multiset.mem_singleton_self _
  obtain ⟨job, hjob, hkey⟩ := q.job (Multiset.mem_add.mpr (.inr hmem))
  obtain ⟨rfl, rfl⟩ := Prod.mk.inj hkey
  have hvalue := q.value job hjob (by simp [hstage])
  rw [q.entered _ _ _ hstage, Option.some.injEq] at hvalue
  exact ⟨job.command, by rw [hvalue], hjob⟩

/-- Every child that is tracked belongs to a command that runs. -/
theorem tracked {pid : Pid} (hlookup : p.conf.loop.children.lookup pid = some handle) :
    ∃ cmd, ⟨handle, pid, cmd⟩ ∈ p.working := by
  have hmem : (handle, pid) ∈ p.conf.awaited := by
    rw [Config.awaited, Multiset.mem_add, Multiset.mem_add]
    exact .inl (.inl (mem_tracked.mpr hlookup))
  obtain ⟨job, hjob, hkey⟩ := q.job (Multiset.mem_add.mpr (.inl hmem))
  obtain ⟨rfl, rfl⟩ := Prod.mk.inj hkey
  exact ⟨job.command, hjob⟩

theorem untracked (hfree : handle ∉ p.working.map Job.handle) (pid : Pid) :
    p.conf.loop.children.lookup pid ≠ some handle := by
  intro hlookup
  obtain ⟨cmd, hjob⟩ := q.tracked hlookup
  exact hfree (List.mem_map_of_mem hjob)

theorem exit_of_dead {task : Task} {rest : Multiset (Handle × Pid)}
    (hdead : p.conf.loop.eventAlive task.recipient = false)
    (hawaited : p.conf.awaited = ↑task.exit.toList + rest) : task.exit = none := by
  cases hexit : task.exit with
  | none => rfl
  | some key =>
      have hkey : key.1 = task.recipient := by
        unfold Task.exit at hexit
        split at hexit <;> cases hexit
        rfl
      have hmem : key ∈ p.conf.awaited := by simp [hawaited, hexit]
      obtain ⟨job, hjob, rfl⟩ := q.job (Multiset.mem_add.mpr (.inl hmem))
      rw [← hkey] at hdead
      exact absurd (q.alive job hjob) (by simp [← hdead, Job.key])

/-- The loop goes on, and no runner starts or ends a command. -/
theorem unchanged (hworking : p'.working = p.working) (hstage : p'.stage = p.stage)
    (hawaited : p'.conf.awaited = p.conf.awaited)
    (halive : ∀ job ∈ p.working, p.conf.loop.eventAlive job.handle = true →
      p'.conf.loop.eventAlive job.handle = true)
    (hvalue : ∀ handle, handle ∈ p.working.map Job.handle ∨ p.stage.handle = some handle →
      lastValue handle p'.conf.log = lastValue handle p.conf.log)
    (hfree : ∀ handle, Free p'.conf.ctl p.stage handle → handle ∉ p.working.map Job.handle) :
    Roster p' where
  awaited := by rw [hawaited, hstage, hworking, q.awaited]
  nodup := hworking ▸ q.nodup
  alive job hmem := by
    rw [hworking] at hmem
    exact halive job hmem (q.alive job hmem)
  value job hmem hother := by
    rw [hworking] at hmem
    rw [hvalue _ (.inl (List.mem_map_of_mem hmem))]
    exact q.value job hmem (hstage ▸ hother)
  registered handle cmd h := by
    rw [hworking]
    exact q.registered handle cmd (hstage ▸ h)
  entered handle cb event h := by
    rw [hstage] at h
    rw [hvalue handle (.inr (by rw [h]; rfl))]
    exact q.entered handle cb event h
  free handle h := by
    rw [hworking]
    exact hfree handle (hstage ▸ h)

/-- The same where the history says nothing about the values of runners. -/
theorem steady (hworking : p'.working = p.working) (hstage : p'.stage = p.stage)
    (steady : Steady p.conf p'.conf)
    (hvalue : ∀ handle, lastValue handle p'.conf.log = lastValue handle p.conf.log)
    (hfree : ∀ handle, Free p'.conf.ctl p.stage handle → handle ∉ p.working.map Job.handle) :
    Roster p' :=
  q.unchanged hworking hstage steady.awaited (fun job _ => steady.alive job.handle)
    (fun handle _ => hvalue handle) hfree

end Roster

theorem roster_init (now jobs : Nat) (lines : List (Except IoErrorKind String)) :
    Roster (.init now jobs lines) where
  awaited := rfl
  nodup := List.nodup_nil
  alive _ hmem := by cases hmem
  value _ hmem := by cases hmem
  registered _ _ h := by cases h
  entered _ _ _ h := by cases h
  free _ _ := List.not_mem_nil

theorem roster_heard (s : Shape p) (q : Roster p) {pid : Pid} {exit : ChildExit} {event : Runner}
    {cmd : String}
    (hstage : p.stage = .entered handle (.child pid exit) event)
    (hcmd : event.command = some cmd) : Roster (p.heard handle pid cmd exit) := by
  have hctl := (s.inside handle (by rw [hstage]; rfl)).2
  obtain ⟨cmd', hcmd', hjob⟩ := q.told hstage
  obtain rfl : cmd' = cmd := Option.some.inj (hcmd'.symm.trans hcmd)
  have hperm := List.perm_cons_erase hjob
  have hnodup := (hperm.map Job.handle).nodup_iff.mp q.nodup
  have hold (job : Job) (hmem : job ∈ p.working.erase ⟨handle, pid, cmd'⟩) :=
    List.mem_of_mem_erase hmem
  refine ⟨?_, (List.nodup_cons.mp hnodup).2, fun job hmem => q.alive job (hold job hmem),
    fun job hmem _ => q.value job (hold job hmem) (by simp [hstage]), nofun, nofun,
    fun other hfree => ?_⟩
  · have hawaited := q.awaited
    rw [hstage, Multiset.coe_eq_coe.mpr (hperm.map Job.key), List.map_cons, ← Multiset.cons_coe,
      Stage.told, add_comm, Multiset.singleton_add] at hawaited
    exact (add_zero _).trans ((Multiset.cons_inj_right _).mp hawaited)
  · cases hfree with
    | running event h =>
        cases h
        exact (List.nodup_cons.mp hnodup).1
    | initialised event h => cases h
    | born h => cases hctl.symm.trans h
    | dying resp h hresp => cases hctl.symm.trans h

/-- A runner that has nothing to run leaves its callback. -/
theorem roster_left (q : Roster p) {event : Runner} {resp : Response}
    (hstage : p.stage = .running handle event) (leaves : Leaves p.conf handle event resp p'.conf)
    (hworking : p'.working = p.working) (hstage' : p'.stage = .outside) : Roster p' := by
  have hfree := q.free handle (.running event hstage)
  have hawaited := q.awaited
  rw [hstage] at hawaited
  refine ⟨?_, hworking ▸ q.nodup, fun job hmem => ?_, fun job hmem _ => ?_, ?_, ?_,
    fun other h => ?_⟩
  · rw [leaves.awaited, hstage', hworking]
    exact hawaited
  · rw [hworking] at hmem
    exact leaves.alive job.handle (q.alive job hmem)
  · rw [hworking] at hmem
    have hne : handle ≠ job.handle := fun heq => hfree (heq ▸ List.mem_map_of_mem hmem)
    rw [leaves.log, lastValue, if_neg hne]
    exact q.value job hmem (by simp [hstage])
  · simp [hstage']
  · simp [hstage']
  · rw [hworking]
    cases h with
    | dying resp' h hresp =>
        obtain ⟨rfl, _⟩ := Ctl.settle.inj (leaves.ctl.symm.trans h)
        exact hfree
    | born h => cases leaves.ctl.symm.trans h
    | initialised event h => cases hstage'.symm.trans h
    | running event h => cases hstage'.symm.trans h

/-- A runner leaves its callback with the command that it has started. -/
theorem roster_stayed (q : Roster p) {cmd : String} (hstage : p.stage = .registered handle cmd)
    (leaves : Leaves p.conf handle ⟨some cmd⟩ (.ok true) p'.conf)
    (hworking : p'.working = p.working) (hstage' : p'.stage = .outside) : Roster p' := by
  have hawaited := q.awaited
  rw [hstage] at hawaited
  refine ⟨?_, hworking ▸ q.nodup, fun job hmem => ?_, fun job hmem _ => ?_, ?_, ?_,
    fun other h => ?_⟩
  · rw [leaves.awaited, hstage', hworking]
    exact hawaited
  · rw [hworking] at hmem
    exact leaves.alive job.handle (q.alive job hmem)
  · rw [hworking] at hmem
    rw [leaves.log, lastValue]
    by_cases heq : handle = job.handle
    · obtain ⟨pid, hjob⟩ := q.registered handle cmd hstage
      have hsame : job = ⟨handle, pid, cmd⟩ :=
        List.inj_on_of_nodup_map q.nodup hmem hjob heq.symm
      rw [if_pos heq, hsame]
    · rw [if_neg heq]
      exact q.value job hmem (by simp [hstage, heq])
  · simp [hstage']
  · simp [hstage']
  · cases h with
    | dying resp h hresp =>
        obtain ⟨_, rfl⟩ := Ctl.settle.inj (leaves.ctl.symm.trans h)
        exact absurd rfl hresp
    | born h => cases leaves.ctl.symm.trans h
    | initialised event h => cases hstage'.symm.trans h
    | running event h => cases hstage'.symm.trans h

theorem roster_entered (s : Shape p) (q : Roster p) {cb : Callback} {event : Runner}
    {c : Config Runner} (hctl : p.conf.ctl = .call handle cb)
    (hcb : cb = .init ∨ ∃ pid exit, cb = .child pid exit)
    (hvalue : lastValue handle p.conf.log = some event) (alive : Alive p.conf c)
    (hawaited : p.conf.awaited = ↑p.conf.ctl.exit.toList + c.awaited) (hctl' : c.ctl = .user)
    (hlog : c.log = .called handle cb event :: p.conf.log) :
    Roster { p with conf := c, stage := .entered handle cb event } := by
  have hstage := Stage.eq_outside (s.idle (by simp [hctl])).1
  have hold := q.awaited
  rw [hstage] at hold
  refine ⟨?_, q.nodup, fun job hmem => alive.alive job.handle (q.alive job hmem),
    fun job hmem _ => ?_, by simp, fun other cb' event' h => ?_, fun other h => ?_⟩
  · rw [← hold, hawaited, hctl]
    rcases hcb with rfl | ⟨pid, exit, rfl⟩
    · simp [Stage.told, Ctl.exit]
    · simp [Stage.told, Ctl.exit, add_comm]
  · rw [hlog]
    exact q.value job hmem (by simp [hstage])
  · cases h
    rw [hlog]
    exact hvalue
  · cases h with
    | initialised event' h =>
        cases h
        exact q.free handle (.born hctl)
    | running event' h => cases h
    | born h => cases hctl'.symm.trans h
    | dying resp h hresp => cases hctl'.symm.trans h

theorem roster_move (s : Shape p) (q : Roster p) (m : Move p p') : Roster p' := by
  cases m with
  | failed err hctl hstack =>
      exact ⟨q.awaited, q.nodup, q.alive, q.value, q.registered, q.entered, q.free⟩
  | completed value howner owned =>
      exact ⟨q.awaited, q.nodup, q.alive, q.value, q.registered, q.entered, q.free⟩
  | inserted left handle c howner owned steady hdead hctl hstack hlog =>
      have hnew : handle ∉ p.working.map Job.handle := by
        intro hmem
        obtain ⟨job, hjob, rfl⟩ := List.mem_map.mp hmem
        simp [q.alive job hjob] at hdead
      refine q.unchanged rfl rfl steady.awaited (fun job _ => steady.alive job.handle)
        (fun other hother => ?_) fun other hfree => ?_
      · rcases hother with hmem | hstage
        · have hne : handle ≠ other := fun heq => hnew (heq ▸ hmem)
          rw [hlog, lastValue, if_neg hne]
        · simp [s.owned owned.stack] at hstage
      · by_cases heq : handle = other
        · exact heq ▸ hnew
        · exact q.free other (hfree.of_ctl (by simp [hctl, heq]) (by simp [hctl]))
  | began c howner owned steady hactive hctl hstack hlog =>
      exact q.steady rfl rfl steady (fun handle => by rw [hlog]) fun handle hfree =>
        q.free handle (hfree.of_ctl (by simp [hctl]) (by simp [hctl]))
  | initialised handle event hstage =>
      have hctl := (s.inside handle (by rw [hstage]; rfl)).2
      have hawaited := q.awaited
      rw [hstage] at hawaited
      refine ⟨hawaited, q.nodup, q.alive, fun job hmem _ => q.value job hmem (by simp [hstage]),
        by simp, by simp, fun other hfree => ?_⟩
      cases hfree with
      | running event h =>
          cases h
          exact q.free handle (.initialised event hstage)
      | initialised event h => cases h
      | born h => cases hctl.symm.trans h
      | dying resp h hresp => cases hctl.symm.trans h
  | heard handle pid exit event cmd hstage hcmd => exact roster_heard s q hstage hcmd
  | started handle event pid cmd rest c hstage hcommands alive hawaited hctl hstack hlog =>
      have hfree := q.free handle (.running event hstage)
      have hlive : p.conf.loop.eventAlive handle = true :=
        s.reachable.visited.discipline.caller_alive (s.caller (by rw [hstage]; rfl))
      have hold := q.awaited
      rw [hstage] at hold
      refine ⟨?_, List.nodup_cons.mpr ⟨hfree, q.nodup⟩, fun job hmem => ?_,
        fun job hmem hother => ?_, fun other cmd' h => ?_, by simp, fun other h => ?_⟩
      · rw [hawaited, Multiset.cons_add]
        exact congrArg (Multiset.cons (handle, pid)) hold
      · rcases List.mem_cons.mp hmem with rfl | hmem
        · exact alive.alive handle hlive
        · exact alive.alive job.handle (q.alive job hmem)
      · rcases List.mem_cons.mp hmem with rfl | hmem
        · exact absurd rfl (hother cmd)
        · rw [hlog]
          exact q.value job hmem (by simp [hstage])
      · cases h
        exact ⟨pid, List.mem_cons_self⟩
      · cases h with
        | running event h => cases h
        | initialised event h => cases h
        | born h => cases hctl.symm.trans h
        | dying resp h hresp => cases hctl.symm.trans h
  | ended handle event c hstage hcommands leaves => exact roster_left q hstage leaves rfl rfl
  | erred handle event kind line rest c hstage hcommands leaves =>
      exact roster_left q hstage leaves rfl rfl
  | stayed handle cmd c hstage leaves => exact roster_stayed q hstage leaves rfl rfl
  | kept handle c hctl steady hctl' hstack hlog =>
      exact q.steady rfl rfl steady (fun handle => by rw [hlog]) fun handle hfree =>
        q.free handle (hfree.of_ctl (by simp [hctl']) (by simp [hctl']))
  | died handle resp c hctl hresp hr alive hactive hawaited hctl' hstack hlog =>
      have hfree := q.free handle (.dying resp hctl hresp)
      have hne (job : Job) (hmem : job ∈ p.working) : job.handle ≠ handle :=
        fun heq => hfree (heq ▸ List.mem_map_of_mem hmem)
      refine q.unchanged rfl rfl (hawaited (q.untracked hfree))
        (fun job hmem => alive job.handle (hne job hmem)) (fun other _ => by rw [hlog]; rfl)
        fun other h => q.free other (h.of_ctl (by simp [hctl']) (by simp [hctl']))
  | dropped task c hctl hdead alive hawaited hctl' hstack hlog =>
      -- The exits that are waited for are those of living runners.
      have hnone := q.exit_of_dead hdead hawaited
      rw [hnone] at hawaited
      exact q.unchanged rfl rfl (hawaited.trans (zero_add _)).symm
        (fun job _ => alive.alive job.handle) (fun other _ => by rw [hlog]; rfl)
        fun other h => q.free other (h.of_ctl (by simp [hctl']) (by simp [hctl']))
  | called task handle pid exit c hctl steady hctl' hstack hlog =>
      exact q.steady rfl rfl steady (fun handle => by rw [hlog]; rfl) fun handle hfree =>
        q.free handle (hfree.of_ctl (by simp [hctl']) (by simp [hctl']))
  | entered handle cb event data c hctl hcb hvalue alive hawaited hctl' hstack hlog =>
      exact roster_entered s q hctl hcb hvalue alive hawaited hctl' hlog
  | again c hctl steady hctl' hstack hstack' hlog =>
      exact q.steady rfl rfl steady (fun handle => by rw [hlog]) fun handle hfree =>
        q.free handle (hfree.of_ctl (by simp [hctl']) (by simp [hctl']))
  | gaveBack frame result ans c hctl hstack returning steady hevents hctl' hstack' hlog =>
      exact q.steady rfl rfl steady (fun handle => by rw [hlog]; rfl) fun handle hfree =>
        q.free handle (hfree.of_ctl (by simp [hctl']) (by simp [hctl']))
  | quiet c quiet =>
      refine q.steady rfl rfl quiet.toSteady (fun handle => by rw [quiet.log]) fun handle hfree =>
        q.free handle ?_
      rcases quiet.ctl with hsame | ⟨_, err, hret, _⟩
      · exact hsame ▸ hfree
      · exact hfree.of_ctl (by simp [hret]) (by simp [hret])

end Eveboros.Pargs
