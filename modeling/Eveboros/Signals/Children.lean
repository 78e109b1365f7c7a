import Eveboros.Runs.Queue
import Eveboros.Runs.Registries
import Eveboros.Signals.Nursery

/-!
# Exits of children are reported once

The flag of SIGCHLD is cleared before the reaping starts, so the end of a child that the reaping
misses leaves the flag set for the next time.  A child that is reaped is taken out of both indexes
as its exit is scheduled, so nobody hears of it twice.
-/

namespace Eveboros

variable {Ev : Type}

def Loop.childFlag (l : Loop Ev) : Bool := l.signalFlags Signal.SIGCHLD.num

theorem Aside.childFlag {l l' : Loop Ev} (h : Aside l l') : l'.childFlag = l.childFlag :=
  congrFun h.flags _

namespace Loop

variable {l l' : Loop Ev} {evs : List PollEvent} {p : Progress Ev}

/-! ## Rounds that do not reap -/

/-- A scan that does not come to the reaping. -/
theorem scanSignal_calm {waits : List WaitResult} {signum : Nat} {out : Except Error Unit}
    (hchld : ¬(signum = Signal.SIGCHLD.num ∧ l.signalFlags signum = true))
    (h : l.scanSignal waits signum = .ok (out, l')) :
    Calm l l' ∧ l'.childFlag = l.childFlag := by
  unfold scanSignal at h
  split at h
  · rename_i hflag
    have hne : Signal.SIGCHLD.num ≠ signum := fun heq => hchld ⟨heq.symm, hflag⟩
    have hother : (l.clearFlag signum).childFlag = l.childFlag := Function.update_of_ne hne _ _
    cases hsignal : Signal.fromCInt signum with
    | none =>
        simp only [hsignal] at h
        cases h
        exact ⟨.clearFlag l signum, hother⟩
    | some signal =>
        have hnot : signal ≠ .SIGCHLD := by
          rintro rfl
          exact hne (Signal.num_of_fromCInt hsignal)
        simp only [hsignal, hnot, ↓reduceIte, Except.ok_bind] at h
        cases h
        exact ⟨(Calm.clearFlag l signum).trans (Aside.scheduleSignal _ signal).toCalm, hother⟩
  · cases h
    exact ⟨.refl l, rfl⟩

/-- An event of the poll other than the wake-up for a signal. -/
theorem gatherEvent_aside {waits : List WaitResult} {ev : PollEvent} {out : Except Error Unit}
    (hsignal : ev.token ≠ SIGNAL_TOK) (h : l.gatherEvent waits ev = .ok (out, l')) :
    Aside l l' := by
  unfold gatherEvent at h
  split at h
  · obtain ⟨l₁, hmessages, h⟩ := Except.bind_eq_ok.mp h
    cases h
    exact Aside.allowsMessages.gatherMessages hmessages
  · obtain ⟨recipient, _, h⟩ := Except.bind_eq_ok.mp h
    cases h
    exact .schedule l recipient rfl

theorem gatherBegin_aside {env : GatherEnv} (h : l.gatherBegin env = .ok p) :
    Aside l p.loop := by
  unfold gatherBegin at h
  split at h
  · cases h
  obtain ⟨l₁, hdrain, h⟩ := Except.bind_eq_ok.mp h
  have hdrained := Aside.drainReleased hdrain
  obtain ⟨empty, _, h⟩ := Except.bind_eq_ok.mp h
  split at h
  · cases h
    exact hdrained
  · have hpruned := hdrained.trans (.timeoutMin l₁ env.now)
    simp only at h
    split at h <;> cases h
    · exact hpruned
    · exact hpruned
    · exact hpruned.trans (.wake _ env.wake)

theorem eventRound_calm (h : l.eventRound evs = .ok p) :
    Calm l p.loop ∧ p.loop.childFlag = l.childFlag := by
  cases evs with
  | nil =>
      obtain ⟨l₁, hclean, h⟩ := Except.bind_eq_ok.mp h
      cases h
      have haside := Aside.finish hclean
      exact ⟨haside.toCalm, haside.childFlag⟩
  | cons ev rest =>
      simp only [eventRound] at h
      split at h
      · cases h
        exact ⟨⟨rfl, rfl, rfl, rfl, fun _ h => h, rfl⟩, rfl⟩
      · rename_i hsignal
        obtain ⟨⟨gathered, l₁⟩, hev, h⟩ := Except.bind_eq_ok.mp h
        have haside := gatherEvent_aside hsignal hev
        cases gathered <;> cases h <;> exact ⟨haside.toCalm, haside.childFlag⟩

/-- Where the flag is cleared, the reaping starts. -/
theorem signalRound_calm {signums : List Nat} (h : l.signalRound signums evs = .ok p) :
    Calm l p.loop ∧
      (p.loop.childFlag = l.childFlag ∨ ∃ rest, p.phase = some (.children rest evs)) := by
  cases signums with
  | nil =>
      cases h
      exact ⟨.refl l, .inl rfl⟩
  | cons signum rest =>
      simp only [signalRound] at h
      split at h
      · cases h
        exact ⟨.clearFlag l signum, .inr ⟨rest, rfl⟩⟩
      · rename_i hchld
        obtain ⟨⟨scanned, l₁⟩, hscan, h⟩ := Except.bind_eq_ok.mp h
        obtain ⟨hcalm, hflag⟩ := scanSignal_calm hchld hscan
        cases scanned <;> cases h <;> exact ⟨hcalm, .inl hflag⟩

end Loop

namespace Config

open Loop

variable {c c' : Config Ev} {a : Action Ev} {r : ChildRegistry}

/-! ## The registry follows the loop -/

/-- Apart from `child`, the death of an event and the reaping, nothing touches the children. -/
theorem Edit.children_eq (e : Edit a c c') (hg : ¬a.IsGather) (hs : ¬a.IsSettle)
    (hc : ∀ pid, a ≠ .call (.scope (.child pid))) : c'.loop.children = c.loop.children := by
  cases e with
  | tracked pid handle holder events ha => exact absurd ha (hc pid)
  | killed handle resp result holder events deregisters handler ha =>
      subst ha
      exact absurd trivial hs
  | reaped pid exit handle holder events ha => exact absurd ha hg
  | _ => rfl

theorem follow_other (hs : ¬a.IsSettle) (hc : ∀ pid, a ≠ .call (.scope (.child pid))) :
    r.follow c a = r := by
  unfold ChildRegistry.follow
  split
  · exact absurd rfl (hc _)
  · exact absurd trivial hs
  · rfl

theorem follow_reports : (r.follow c a).reports = r.reports := by
  unfold ChildRegistry.follow
  split
  · rfl
  · split <;> rfl
  · rfl

theorem waits_tracked {pid : Pid} (e : Edit (.call (.scope (.child pid))) c c')
    (h : ∀ pid, c.loop.children.lookup pid = r.waits pid) (other : Pid) :
    c'.loop.children.lookup other =
      (r.follow c (.call (.scope (.child pid)))).waits other := by
  cases e with
  | tracked _ handle holder events ha hctl hcaller hget hfresh hset =>
      cases ha
      show (c.loop.children.insert pid handle).lookup other =
        Function.update r.waits pid c.caller other
      by_cases heq : other = pid
      · subst heq
        simp [hcaller]
      · simp [heq, h]
  | refusal op err ha hctl hr =>
      cases ha
      exact hr.elim
  | query op v ha hctl hq =>
      cases ha
      exact hq.elim
  | timer op handle when holder events ha hctl hcaller hop =>
      cases ha
      cases hop
  | _ => simp_all [Action.IsSettle, Action.IsGather]

theorem waits_settled {deregisters : Bool} {handler : Except Error Unit} (d : Discipline c)
    (g : c.loop.Registries) (e : Edit (.settle deregisters handler) c c')
    (h : ∀ pid, c.loop.children.lookup pid = r.waits pid) (pid : Pid) :
    c'.loop.children.lookup pid = (r.follow c (.settle deregisters handler)).waits pid := by
  cases e with
  | kept handle ha hctl => simpa [ChildRegistry.follow, hctl] using h pid
  | killed handle resp result holder events deregisters handler ha hctl hresp hget hfree hset =>
      cases ha
      have hforget : r.follow c (.settle deregisters handler) = r.forget handle := by
        rcases hresp with ⟨rfl, _⟩ | ⟨err, rfl, _⟩ <;> simp [ChildRegistry.follow, hctl]
      have hmem : pid ∈ holder.children.toList ↔ r.waits pid = some handle := by
        rw [← ListSet.mem_def, ← h, g.children, watches_of_kin (kin_of_get? hget),
          d.settling_gen hctl hget]
        simp
      rw [hforget, lookup_foldl_erase, h]
      simp only [hmem]
      rfl
  | _ => simp_all [Action.IsGather]

/-- The index of the loop tells the same as the registry. -/
theorem waits_follow (d : Discipline c) (g : c.loop.Registries) (e : Edit a c c')
    (hg : ¬a.IsGather) (h : ∀ pid, c.loop.children.lookup pid = r.waits pid) (pid : Pid) :
    c'.loop.children.lookup pid = (r.follow c a).waits pid := by
  by_cases hc : ∃ pid, a = .call (.scope (.child pid))
  · rcases hc with ⟨pid, rfl⟩
    exact waits_tracked e h _
  · have hc := not_exists.mp hc
    by_cases hs : a.IsSettle
    · cases a with
      | settle deregisters handler => exact waits_settled d g e h pid
      | _ => exact hs.elim
    · rw [follow_other hs hc, e.children_eq hg hs hc, h]

/-- Whoever waits has waited before, or has just asked for it. -/
theorem follow_waits {pid : Pid} {handle : Handle} (h : (r.follow c a).waits pid = some handle) :
    r.waits pid = some handle ∨ a = .call (.scope (.child pid)) := by
  unfold ChildRegistry.follow at h
  split at h
  · rename_i asked
    by_cases heq : pid = asked
    · exact .inr (heq ▸ rfl)
    · exact .inl (by simpa [heq] using h)
  · split at h
    · exact .inl h
    · simp only [ChildRegistry.forget] at h
      split at h
      · cases h
      · exact .inl h
    · exact .inl h
  · exact .inl h

theorem Edit.enabled_kept (e : Edit a c c') {signum : Nat}
    (h : c.loop.signalsEnabled signum = true) : c'.loop.signalsEnabled signum = true := by
  have update (other : Nat) : Function.update c.loop.signalsEnabled other true signum = true := by
    by_cases heq : signum = other <;> simp [heq, h]
  cases e with
  | signalled | tracked | enabled => exact update _
  | _ => exact h

/-- Only a gather schedules exits of children. -/
theorem Edit.exits_eq (e : Edit a c c') (hg : ¬a.IsGather) :
    c'.everQueued.filter Task.isChild = c.everQueued.filter Task.isChild := by
  obtain ⟨new, hnew, horigin⟩ := e.everQueued
  have hnone : new.filter Task.isChild = [] := by
    apply List.filter_eq_nil_iff.mpr
    intro task hmem
    cases horigin task hmem with
    | child pid exit handle ha => exact absurd ha hg
    | _ => simp [Task.isChild, timeoutTask]
  rw [hnew, List.filter_append, hnone, List.append_nil]

end Config

namespace Nursery

open Loop

variable {n n' : Nursery Ev}

/-- What holds between any two steps. -/
structure Tended (n : Nursery Ev) : Prop where
  discipline : n.config.Discipline
  registries : n.config.loop.Registries
  gathering : n.phase ≠ none → n.config.ctl = .runOne
  /-- The index of the loop and the registry agree. -/
  waits (pid : Pid) : n.config.loop.children.lookup pid = n.registry.waits pid
  reports : n.config.everQueued.filter Task.isChild = n.registry.reports
  /-- Nobody waits for a process that has been reaped. -/
  known (pid : Pid) (handle : Handle) : n.registry.waits pid = some handle → pid ∈ n.pids
  fresh : ∀ pid ∈ n.fresh, pid ∈ n.pids
  nodup : n.pids.Nodup
  enabled : ∀ pid ∈ n.pids, n.config.loop.signalsEnabled Signal.SIGCHLD.num = true
  /-- The news is in the flag, or the loop is just looking. -/
  noticed : ∀ z ∈ n.zombies, z.news ≠ .pending →
    n.config.loop.childFlag = true ∨ n.reaping = true

theorem tended_start (now : Nat) : Tended (start now : Nursery Ev) where
  discipline := Config.discipline_init now
  registries := registries_new now
  gathering h := absurd rfl h
  waits pid := AList.lookup_empty pid
  reports := rfl
  known pid handle h := by cases h
  fresh := by simp [start]
  nodup := List.nodup_nil
  enabled := by simp [start, pids]
  noticed := by simp [start]

/-! ### Steps of the loop -/

section LoopStep

variable {a : Action Ev} {c' : Config Ev}

theorem admits_not_gather (ha : n.admits a = true) : ¬a.IsGather := by
  intro hg
  obtain ⟨env, rfl⟩ := hg.env
  cases ha

/-- During a gather only others act, who do not have the control. -/
theorem admits_ctl (ha : n.admits a = true) (hphase : n.phase ≠ none)
    (hs : n.config.step a = .ok c') : c'.ctl = n.config.ctl := by
  have hbusy : n.phase.isNone = false := by simpa [← Option.isSome_iff_ne_none] using hphase
  cases a with
  | dispatch signal =>
      simp only [Config.step] at hs
      split at hs <;> cases hs
      rfl
  | remote m =>
      simp only [Config.step] at hs
      split at hs <;> cases hs
      rfl
  | gather env => cases ha
  | _ => simp [admits, hbusy] at ha

theorem admits_childFlag (ha : n.admits a = true) (hs : n.config.step a = .ok c') :
    c'.loop.childFlag = n.config.loop.childFlag := by
  by_cases hd : ∃ signal, a = .dispatch signal
  · rcases hd with ⟨signal, rfl⟩
    have hne : Signal.SIGCHLD.num ≠ signal.num := by
      intro heq
      simp [admits, ← Signal.eq_of_num heq] at ha
    simp only [Config.step] at hs
    split at hs <;> cases hs
    exact Function.update_of_ne hne _ _
  · have hsame := Watch.notifier_step hs (admits_not_gather ha) (not_exists.mp hd)
    exact congrFun (Prod.mk.inj hsame).1 _

theorem tended_loop (t : Tended n) (ha : n.admits a = true) (hcare : n.careful (.loop a) = true)
    (hs : n.config.step a = .ok c') :
    Tended { n with config := c', registry := n.registry.follow n.config a } := by
  have hg := admits_not_gather ha
  have e := Config.step_edit hs (by rintro env rfl; exact hg trivial)
  refine ⟨t.discipline.edit e, Config.registries_edit t.discipline t.registries e, ?_,
    Config.waits_follow t.discipline t.registries e hg t.waits, ?_, ?_, t.fresh, t.nodup,
    fun pid hmem => e.enabled_kept (t.enabled pid hmem), ?_⟩
  · intro hphase
    rw [admits_ctl ha hphase hs]
    exact t.gathering hphase
  · rw [e.exits_eq hg, t.reports, Config.follow_reports]
  · intro pid handle hwaits
    rcases Config.follow_waits hwaits with hold | rfl
    · exact t.known pid handle hold
    · exact t.fresh pid (of_decide_eq_true hcare)
  · rw [admits_childFlag ha hs]
    exact t.noticed

end LoopStep

/-! ### Rounds of a gather -/

theorem tended_goOn (t : Tended n) {p : Progress Ev} (hctl : n.config.ctl = .runOne)
    (hcalm : Calm n.config.loop p.loop)
    (hnoticed : ∀ z ∈ n.zombies, z.news ≠ .pending →
      p.loop.childFlag = true ∨ (n.goOn p).reaping = true) : Tended (n.goOn p) where
  discipline := by
    refine t.discipline.congr rfl (fun idx => ?_) fun h resp hc => ?_
    · simp [goOn, tag, hcalm.events]
    · simp only [goOn] at hc
      split at hc
      · cases hc
      · exact hc
  registries := t.registries.congr (fun idx => by simp [goOn, kin, hcalm.events]) hcalm.idle
    (fun signum h hm => hcalm.recipients ▸ hm) hcalm.children
  gathering hphase := by
    cases p with
    | going phase l => exact hctl
    | finished result l => exact absurd rfl hphase
  waits pid := by
    show p.loop.children.lookup pid = _
    rw [hcalm.children, t.waits]
    rfl
  reports := by
    have hexits := t.reports
    simp only [Config.everQueued, List.filter_append] at hexits ⊢
    rw [show (n.goOn p).config.loop.scheduled = p.loop.scheduled from rfl, hcalm.exits]
    exact hexits
  known := t.known
  fresh := by simp [goOn]
  nodup := t.nodup
  enabled pid hmem := by
    show p.loop.signalsEnabled _ = true
    rw [hcalm.enabled]
    exact t.enabled pid hmem
  noticed := hnoticed

/-- A round that leaves the flag alone, or starts the reaping. -/
theorem tended_calm (t : Tended n) {p : Progress Ev} (hctl : n.config.ctl = .runOne)
    (hphase : n.reaping = false) (hcalm : Calm n.config.loop p.loop)
    (hflag : p.loop.childFlag = n.config.loop.childFlag ∨ (n.goOn p).reaping = true) :
    Tended (n.goOn p) := by
  apply tended_goOn t hctl hcalm
  intro z hmem hnews
  rcases hflag with hsame | hstarts
  · rcases t.noticed z hmem hnews with hset | hreaping
    · exact .inl (hsame.trans hset)
    · rw [hphase] at hreaping
      cases hreaping
  · exact .inr hstarts

/-! ### The reaping -/

section Reaping

variable {pid : Pid} {exit : ChildExit} {signums : List Nat} {evs : List PollEvent}

theorem bury_sublist : (n.bury pid exit).pids.Sublist n.pids :=
  (List.filter_sublist.map Zombie.pid).append_left n.living

theorem mem_pids_bury {other : Pid} (hne : other ≠ pid) (h : other ∈ n.pids) :
    other ∈ (n.bury pid exit).pids := by
  rcases List.mem_append.mp h with h | h
  · exact List.mem_append_left _ h
  · obtain ⟨z, hz, rfl⟩ := List.mem_map.mp h
    have hkept : z ∈ n.zombies.filter fun z => z.pid ≠ pid := by simp [hz, hne]
    exact List.mem_append_right _ (List.mem_map_of_mem hkept)

/-- The loop after a child has been reaped. -/
structure Reaped (n : Nursery Ev) (pid : Pid) (exit : ChildExit) (l : Loop Ev) : Prop where
  pushed : n.config.loop.childPush pid exit = .ok l
  discipline : Config.Discipline { n.config with loop := l }
  registries : l.Registries
  lookup (other : Pid) : l.children.lookup other = Function.update n.registry.waits pid none other
  enabled : l.signalsEnabled = n.config.loop.signalsEnabled
  queued : l.scheduled = n.config.loop.scheduled ++ n.registry.report pid exit

theorem Reaped.everQueued {l : Loop Ev} (h : Reaped n pid exit l) :
    Config.everQueued { n.config with loop := l } =
      n.config.everQueued ++ n.registry.report pid exit :=
  Config.everQueued_scheduled rfl h.queued

theorem reaped_of_tended (t : Tended n) (hctl : n.config.ctl = .runOne) (pid : Pid)
    (exit : ChildExit) : ∃ l, Reaped n pid exit l := by
  have hlookup (erased : AList fun _ : Pid => Handle)
      (h : ∀ other ≠ pid, erased.lookup other = n.config.loop.children.lookup other)
      (hpid : erased.lookup pid = none) (other : Pid) :
      erased.lookup other = Function.update n.registry.waits pid none other := by
    by_cases heq : other = pid
    · subst heq
      simp [hpid]
    · simp [h other heq, heq, t.waits]
  cases hwaits : n.registry.waits pid with
  | none =>
      have hnone := (t.waits pid).trans hwaits
      refine ⟨n.config.loop, Config.childPush_untracked exit hnone, t.discipline, t.registries,
        hlookup _ (fun _ _ => rfl) hnone, rfl, by simp [ChildRegistry.report, hwaits]⟩
  | some handle =>
      have hsome := (t.waits pid).trans hwaits
      obtain ⟨holder, hget, hmem⟩ := t.registries.holder hsome
      obtain ⟨events, hset, hpush⟩ := Config.childPush_tracked exit hsome hget hmem
      have e : Config.Edit (.gather ⟨0, .ok [], 0, []⟩) n.config
          { n.config with
            loop := { n.config.loop with
              children := n.config.loop.children.erase pid, events := events }.schedule handle
                (.child pid exit) } :=
        .reaped pid exit handle holder events trivial hctl hsome hget hmem hset
      refine ⟨_, hpush, t.discipline.edit e, Config.registries_edit t.discipline t.registries e,
        hlookup _ (fun _ hne => AList.lookup_erase_ne hne) (AList.lookup_erase _ _), rfl, ?_⟩
      simp [Loop.schedule, ChildRegistry.report, hwaits]

theorem tended_reaped (t : Tended n) (hctl : n.config.ctl = .runOne) {l : Loop Ev}
    (hl : Reaped n pid exit l) :
    Tended ((n.bury pid exit).goOn (.going (.children signums evs) l)) where
  discipline := hl.discipline
  registries := hl.registries
  gathering _ := hctl
  waits := hl.lookup
  reports := by
    have hexits : (n.registry.report pid exit).filter Task.isChild =
        n.registry.report pid exit := by
      apply List.filter_eq_self.mpr
      intro task hmem
      obtain ⟨handle, _, rfl⟩ := List.mem_map.mp hmem
      rfl
    show (Config.everQueued { n.config with loop := l }).filter Task.isChild = _
    rw [hl.everQueued, List.filter_append, hexits, t.reports]
    rfl
  known other handle hwaits := by
    by_cases heq : other = pid
    · simp [bury, goOn, ChildRegistry.reap, heq] at hwaits
    · have hwaited : n.registry.waits other = some handle := by
        simpa [bury, goOn, ChildRegistry.reap, heq] using hwaits
      have hburied : other ∈ (n.bury pid exit).pids :=
        mem_pids_bury heq (t.known other handle hwaited)
      exact hburied
  fresh := by simp [goOn]
  nodup := by
    have hnodup : (n.bury pid exit).pids.Nodup := t.nodup.sublist bury_sublist
    exact hnodup
  enabled other hmem := by
    show l.signalsEnabled _ = true
    rw [hl.enabled]
    have hburied : other ∈ (n.bury pid exit).pids := hmem
    exact t.enabled other (bury_sublist.subset hburied)
  noticed _ _ _ := .inr rfl

/-- One answer of `waitpid`. -/
theorem tended_wait (t : Tended n) {answer : WaitResult} {p : Progress Ev}
    (hphase : n.phase = some (.children signums evs)) (hmay : mayAnswer n.zombies answer = true)
    (hcare : n.careful (.wait answer) = true)
    (h : n.config.loop.waitRound answer signums evs = .ok p) :
    Tended ((n.hear answer).goOn p) := by
  have hctl := t.gathering (by simp [hphase])
  -- When there is nothing to reap, no zombie is left that could go unnoticed.
  have ended (hleft : nothingLeft answer = true) (hnone : reapedBy answer = none)
      (hp : p = .going (.signals signums evs) (n.config.loop.scheduleSignal .SIGCHLD)) :
      Tended ((n.hear answer).goOn p) := by
    have hempty : n.zombies = [] := by simpa [mayAnswer, hnone, hleft] using hmay
    rw [hear, hnone, hp]
    refine tended_goOn t hctl (Aside.scheduleSignal _ _).toCalm ?_
    simp [hempty]
  have reaped {pid : Pid} {exit : ChildExit} (hanswer : reapedBy answer = some (pid, exit))
      (hround : (n.config.loop.childPush pid exit >>= fun l =>
        .ok (.going (.children signums evs) l)) = .ok p) : Tended ((n.hear answer).goOn p) := by
    obtain ⟨l, hl⟩ := reaped_of_tended t hctl pid exit
    rw [hl.pushed] at hround
    cases hround
    rw [hear, hanswer]
    exact tended_reaped t hctl hl
  unfold waitRound at h
  split at h
  · cases h
    exact ended rfl rfl rfl
  · cases h
    exact ended rfl rfl rfl
  · cases h
    exact ended rfl rfl rfl
  · rename_i err hagain hchild
    rcases of_decide_eq_true hcare with rfl | rfl
    · exact absurd rfl hagain
    · exact absurd rfl hchild
  · exact reaped rfl h
  · exact reaped rfl h
  · cases h
  · cases h
    exact tended_goOn t hctl (.refl _) fun _ _ _ => .inr rfl

end Reaping

/-! ### Processes and dispatches -/

theorem tended_fork (t : Tended n) {pid : Pid} (hnew : pid ∉ n.pids)
    (henabled : n.config.loop.signalsEnabled Signal.SIGCHLD.num = true) :
    Tended { n with living := pid :: n.living, fresh := pid :: n.fresh } where
  discipline := t.discipline
  registries := t.registries
  gathering := t.gathering
  waits := t.waits
  reports := t.reports
  known other handle hwaits := List.mem_cons_of_mem _ (t.known other handle hwaits)
  fresh other hmem := by
    rcases List.mem_cons.mp hmem with rfl | hmem
    · exact List.mem_cons_self
    · exact List.mem_cons_of_mem _ (t.fresh other hmem)
  nodup := List.nodup_cons.mpr ⟨hnew, t.nodup⟩
  enabled _ _ := henabled
  noticed := t.noticed

theorem tended_exit (t : Tended n) {pid : Pid} (exit : ChildExit) (hmem : pid ∈ n.living) :
    Tended { n with
      living := n.living.erase pid, zombies := ⟨pid, exit, .pending⟩ :: n.zombies } := by
  have hperm : (n.living.erase pid ++ pid :: n.zombies.map Zombie.pid).Perm n.pids :=
    List.perm_middle.trans ((List.perm_cons_erase hmem).symm.append_right _)
  refine ⟨t.discipline, t.registries, t.gathering, t.waits, t.reports, ?_, ?_, ?_, ?_, ?_⟩
  · intro other handle hwaits
    exact hperm.mem_iff.mpr (t.known other handle hwaits)
  · intro other hfresh
    exact hperm.mem_iff.mpr (t.fresh other hfresh)
  · exact hperm.nodup_iff.mpr t.nodup
  · intro other hpid
    exact t.enabled other (hperm.mem_iff.mp hpid)
  · intro z hz hnews
    rcases List.mem_cons.mp hz with rfl | hz
    · exact absurd rfl hnews
    · exact t.noticed z hz hnews

theorem tended_flags (t : Tended n) (flags : Nat → Bool) (wakeup : Bool)
    (hkeep : n.config.loop.childFlag = true → flags Signal.SIGCHLD.num = true) :
    Tended { n with config := { n.config with
      loop := { n.config.loop with signalFlags := flags, signalWakeup := wakeup } } } where
  discipline := t.discipline.congr rfl (fun _ => rfl) fun _ _ h => h
  registries := t.registries.congr (fun _ => rfl) (fun _ hm => hm) (fun _ _ hm => hm) rfl
  gathering := t.gathering
  waits := t.waits
  reports := t.reports
  known := t.known
  fresh := t.fresh
  nodup := t.nodup
  enabled := t.enabled
  noticed z hz hnews := (t.noticed z hz hnews).imp_left hkeep

/-- The news of some zombies has got further. -/
theorem tended_news (t : Tended n) {g : Zombie → Zombie} (hpid : ∀ z, (g z).pid = z.pid)
    (hnews : ∀ z ∈ n.zombies, (g z).news ≠ .pending →
      z.news ≠ .pending ∨ n.config.loop.childFlag = true) :
    Tended { n with zombies := n.zombies.map g } := by
  have hpids : pids { n with zombies := n.zombies.map g } = n.pids := by
    have hsame : Zombie.pid ∘ g = Zombie.pid := funext hpid
    simp only [pids, List.map_map, hsame]
  refine ⟨t.discipline, t.registries, t.gathering, t.waits, t.reports, ?_, ?_, ?_, ?_, ?_⟩
  · exact hpids ▸ t.known
  · exact hpids ▸ t.fresh
  · exact hpids ▸ t.nodup
  · exact hpids ▸ t.enabled
  · intro z' hz' hlate
    obtain ⟨z, hz, rfl⟩ := List.mem_map.mp hz'
    rcases hnews z hz hlate with hold | hflag
    · exact t.noticed z hz hold
    · exact .inl hflag

/-- A dispatch may go unheard only as long as there are no children. -/
theorem tended_store (t : Tended n) (covered : List Pid) :
    Tended { n.notify (·.storeFlag Signal.SIGCHLD.num) with
      zombies := n.zombies.map (Zombie.flag covered) } := by
  by_cases henabled : n.config.loop.signalsEnabled Signal.SIGCHLD.num = true
  · rw [notify, if_pos henabled]
    have hset : (n.config.loop.storeFlag Signal.SIGCHLD.num).childFlag = true := by
      simp [childFlag, storeFlag]
    have hstored := tended_flags t _ n.config.loop.signalWakeup fun _ => hset
    exact tended_news hstored (Zombie.flag_pid covered) fun _ _ _ => .inr hset
  · rw [notify, if_neg henabled]
    refine tended_news t (Zombie.flag_pid covered) fun z hz _ => ?_
    exact absurd (t.enabled z.pid (List.mem_append_right _ (List.mem_map_of_mem hz))) henabled

theorem tended_trySend (t : Tended n) (covered : List Pid) :
    Tended { n.notify (·.trySend) with zombies := n.zombies.map (Zombie.complete covered) } := by
  have hnews (z : Zombie) (h : (z.complete covered).news ≠ .pending) : z.news ≠ .pending :=
    fun hpending => h (Zombie.complete_pending hpending)
  unfold notify
  split
  · have hsent := tended_flags t n.config.loop.signalFlags true id
    exact tended_news hsent (Zombie.complete_pid covered) fun z _ h => .inl (hnews z h)
  · exact tended_news t (Zombie.complete_pid covered) fun z _ h => .inl (hnews z h)

/-! ### Every step -/

theorem tended_step {a : NurseryAction Ev} (t : Tended n) (hcare : n.careful a = true)
    (hs : n.step a = .ok n') : Tended n' := by
  cases a with
  | loop a =>
      simp only [step] at hs
      split at hs
      · rename_i hadmits
        obtain ⟨c', hstep, h⟩ := Except.bind_eq_ok.mp hs
        cases h
        exact tended_loop t hadmits hcare hstep
      · cases hs
  | gather env =>
      simp only [step] at hs
      split at hs
      · rename_i hphase hctl hsched
        obtain ⟨p, hp, h⟩ := Except.bind_eq_ok.mp hs
        cases h
        have haside := gatherBegin_aside (Except.mapError_eq_ok.mp hp)
        exact tended_calm t hctl (by simp [reaping, hphase]) haside.toCalm (.inl haside.childFlag)
      · cases hs
  | round =>
      simp only [step] at hs
      split at hs
      · rename_i evs hphase
        obtain ⟨p, hp, h⟩ := Except.bind_eq_ok.mp hs
        cases h
        obtain ⟨hcalm, hflag⟩ := eventRound_calm (Except.mapError_eq_ok.mp hp)
        exact tended_calm t (t.gathering (by simp [hphase]))
          (by simp [reaping, hphase, GatherPhase.reaps]) hcalm (.inl hflag)
      · rename_i signums evs hphase
        obtain ⟨p, hp, h⟩ := Except.bind_eq_ok.mp hs
        cases h
        obtain ⟨hcalm, hflag⟩ := signalRound_calm (Except.mapError_eq_ok.mp hp)
        refine tended_calm t (t.gathering (by simp [hphase]))
          (by simp [reaping, hphase, GatherPhase.reaps]) hcalm (hflag.imp_right ?_)
        intro hstarts
        rcases hstarts with ⟨rest, hchildren⟩
        simp [goOn, reaping, hchildren, GatherPhase.reaps]
      · cases hs
  | wait answer =>
      simp only [step] at hs
      split at hs
      · rename_i signums evs hphase
        split at hs
        · rename_i hmay
          obtain ⟨p, hp, h⟩ := Except.bind_eq_ok.mp hs
          cases h
          exact tended_wait t hphase hmay hcare (Except.mapError_eq_ok.mp hp)
        · cases hs
      · cases hs
  | fork pid =>
      simp only [step] at hs
      split at hs
      · cases hs
      · rename_i hnew
        cases hs
        exact tended_fork t hnew hcare
  | exit pid exit =>
      simp only [step] at hs
      split at hs
      · rename_i hmem
        cases hs
        exact tended_exit t exit hmem
      · cases hs
  | store covered =>
      cases hs
      exact tended_store t covered
  | trySend covered =>
      cases hs
      exact tended_trySend t covered

/-! ## Exactly once -/

/-- `waitpid` speaks of a zombie and of how it ended, and no process has its number any more. -/
theorem answer_own (t : Tended n) {answer : WaitResult} {pid : Pid} {exit : ChildExit}
    (hanswer : reapedBy answer = some (pid, exit)) (hmay : mayAnswer n.zombies answer = true) :
    (∃ z ∈ n.zombies, z.pid = pid) ∧ (∀ z ∈ n.zombies, z.pid = pid → z.exit = exit) ∧
      pid ∉ (n.bury pid exit).pids := by
  obtain ⟨z, hz, hsame⟩ : ∃ z ∈ n.zombies, z.pid = pid ∧ z.exit = exit := by
    simpa [mayAnswer, hanswer] using hmay
  obtain ⟨rfl, rfl⟩ := hsame
  obtain ⟨_, hzombies, hdisjoint⟩ := List.nodup_append.mp t.nodup
  refine ⟨⟨z, hz, rfl⟩, fun other hother heq => ?_, fun hmem => ?_⟩
  · rw [List.inj_on_of_nodup_map hzombies hother hz heq]
  · rcases List.mem_append.mp hmem with hliving | hzombie
    · exact hdisjoint _ hliving _ (List.mem_map_of_mem hz) rfl
    · obtain ⟨other, hother, heq⟩ := List.mem_map.mp hzombie
      have hkept := (List.mem_filter.mp hother).2
      simp [heq] at hkept

/-- The call of `waitpid` that reaps a child succeeds, and whoever waits for the child is told. -/
theorem wait_reports (t : Tended n) {answer : WaitResult} {pid : Pid} {exit : ChildExit}
    (hreaping : n.reaping = true) (hanswer : reapedBy answer = some (pid, exit))
    (hmay : mayAnswer n.zombies answer = true) :
    ∃ n', n.step (.wait answer) = .ok n' ∧
      n'.config.everQueued = n.config.everQueued ++ n.registry.report pid exit ∧
      n'.registry = n.registry.reap pid exit ∧ n'.pids = (n.bury pid exit).pids := by
  obtain ⟨signums, evs, hphase⟩ : ∃ signums evs, n.phase = some (.children signums evs) := by
    unfold reaping at hreaping
    split at hreaping
    · rename_i phase hphase
      cases phase with
      | children signums evs => exact ⟨signums, evs, hphase⟩
      | _ => cases hreaping
    · cases hreaping
  obtain ⟨l, hl⟩ := reaped_of_tended t (t.gathering (by simp [hphase])) pid exit
  have hround : n.config.loop.waitRound answer signums evs =
      .ok (.going (.children signums evs) l) := by
    unfold reapedBy at hanswer
    split at hanswer
    · cases hanswer
      simp [waitRound, hl.pushed, Except.ok_bind, Except.pure_eq_ok]
    · cases hanswer
      simp [waitRound, hl.pushed, Except.ok_bind, Except.pure_eq_ok]
    · cases hanswer
  refine ⟨(n.bury pid exit).goOn (.going (.children signums evs) l), ?_, hl.everQueued, rfl, rfl⟩
  simp [step, hphase, hmay, hround, hear, hanswer, Except.mapError_ok, Except.ok_bind,
    Except.pure_eq_ok]

/-- In whatever order children end, dispatches run and the gathers go round: the exits that were
ever queued are those that had to be reported, a zombie whose dispatch has completed does not go
unnoticed, and the event that waits for a child is told once, when the child is reaped. -/
theorem child_exits_reported_once (now : Nat) (n : Nursery Ev)
    (h : TransitionSystem.Reach step (fun n a => n.careful a = true) (start now) n) :
    n.config.everQueued.filter Task.isChild = n.registry.reports ∧
    (∀ pid handle, n.registry.waits pid = some handle →
      n.config.loop.eventAlive handle = true ∧ n.config.loop.Watches handle pid ∧
        n.config.loop.children.lookup pid = some handle ∧ pid ∈ n.pids) ∧
    (∀ z ∈ n.zombies, z.news = .completed →
      n.config.loop.childFlag = true ∨ n.reaping = true) ∧
    ∀ answer pid exit, n.reaping = true → mayAnswer n.zombies answer = true →
      reapedBy answer = some (pid, exit) →
        (∃ z ∈ n.zombies, z.pid = pid) ∧ (∀ z ∈ n.zombies, z.pid = pid → z.exit = exit) ∧
        ∃ n', n.step (.wait answer) = .ok n' ∧
          n'.config.everQueued = n.config.everQueued ++ n.registry.report pid exit ∧
          n'.registry.waits pid = none ∧ pid ∉ n'.pids := by
  have t : Tended n := h.invariant (tended_start now) fun _ _ _ t hcare hs => tended_step t hcare hs
  refine ⟨t.reports, ?_, ?_, ?_⟩
  · intro pid handle hwaits
    have hlookup := (t.waits pid).trans hwaits
    have hwatches := (t.registries.children pid handle).mp hlookup
    exact ⟨hwatches.alive, hwatches, hlookup, t.known pid handle hwaits⟩
  · intro z hz hdone
    apply t.noticed z hz
    rw [hdone]
    decide
  · intro answer pid exit hreaping hmay hanswer
    obtain ⟨hthere, hown, hgone⟩ := answer_own t hanswer hmay
    obtain ⟨n', hs, hqueued, hregistry, hpids⟩ := wait_reports t hreaping hanswer hmay
    refine ⟨hthere, hown, n', hs, hqueued, ?_, hpids ▸ hgone⟩
    simp [hregistry, ChildRegistry.reap]

/-- An event forks two children in its `init` and watches the first, which ends while the second
is being reaped. -/
def twoChildren : List (NurseryAction Unit) :=
  [.loop (.call (.owner (.signalEnable .SIGCHLD))),
    .loop (.call (.iface (.insertExact () ⟨0, true⟩))), .loop .tick, .fork 7, .fork 8,
    .loop (.call (.scope (.child 7))), .loop (.finish () (.ok true)),
    .loop (.settle true (.ok ())), .loop .tick, .exit 8 (.exited 0), .store [8], .trySend [8],
    .loop (.call (.iface .runOne)),
    .gather ⟨1, .ok [⟨SIGNAL_TOK, ⟨1⟩, 0⟩], 2, []⟩] ++ List.replicate 19 .round ++
  [.wait (.ok (.exited 8 0)), .exit 7 (.exited 3), .store [7], .trySend [7]]

theorem child_exits_reported_once_twoChildren :
    ∃ n n' : Nursery Unit, TransitionSystem.run step (start 0) twoChildren = .ok n ∧
      n.config.loop.childFlag = true ∧ n.config.everQueued = [] ∧
      n.step (.wait (.ok (.exited 7 3))) = .ok n' ∧
      n'.config.everQueued = [⟨⟨0, 0⟩, .child 7 (.exited 3)⟩] := by
  obtain ⟨n, hrun, hcareful, hreaping, hmay, hflag, hqueued, hreport⟩ : ∃ n : Nursery Unit,
      TransitionSystem.run step (start 0) twoChildren = .ok n ∧
      TransitionSystem.alongBool step careful (start 0 : Nursery Unit) twoChildren = true ∧
      n.reaping = true ∧ mayAnswer n.zombies (.ok (.exited 7 3)) = true ∧
      n.config.loop.childFlag = true ∧ n.config.everQueued = [] ∧
      n.registry.report 7 (.exited 3) = [⟨⟨0, 0⟩, .child 7 (.exited 3)⟩] :=
    ⟨_, rfl, by decide, by decide, by decide, by decide, by decide, by decide⟩
  obtain ⟨_, _, _, hwait⟩ :=
    child_exits_reported_once 0 n (.of_alongBool (fun _ _ h => h) hrun hcareful)
  obtain ⟨_, _, n', hs, hreported, _⟩ := hwait _ 7 (.exited 3) hreaping hmay rfl
  rw [hqueued, hreport] at hreported
  exact ⟨n, n', hrun, hflag, hqueued, hs, hreported⟩

end Nursery

end Eveboros
