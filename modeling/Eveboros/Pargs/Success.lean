import Eveboros.Pargs.Roster

/-!
# What the program reports

Commands are started in the order of their lines.  The program ends when all runners have, which is
when there are no more lines; unless it got an error from the operating system, it has then heard
of all exits.
-/

namespace Eveboros.Pargs

open Config Loop TransitionSystem

variable {p p' : Program} {jobs : Nat} {lines : List (Except IoErrorKind String)}

/-! ## Errors -/

/-- An error is on its way to the owner, or has ended the program. -/
inductive Failing (p : Program) : Prop
  | settling (handle : Handle) (err : Error) (hctl : p.conf.ctl = .settle handle (.error err))
      (herr : LowLevel err)
  | returning (err : Error) (hctl : p.conf.ctl = .ret (.error err)) (herr : LowLevel err)
  | answered (err : Error) (hctl : p.conf.ctl = .user) (hstack : p.conf.stack = [])
      (hanswered : p.conf.answered = some (.error err))
  | ended (err : Error) (howner : p.owner = .returned (.error err))

def Program.Open (p : Program) : Prop := ∀ result, p.owner ≠ .returned result

theorem step_open {act : Act} (h : p.step act = .ok p') : p.Open := by
  intro result howner
  simp [Program.step, howner] at h

namespace Failing

variable (f : Failing p) (hopen : p.Open)
include f hopen

theorem not_owned : ¬Owned p.conf := by
  intro owned
  cases f with
  | settling _ _ hctl | returning _ hctl => cases owned.ctl.symm.trans hctl
  | answered err _ _ hanswered => exact owned.good err hanswered
  | ended err howner => exact hopen _ howner

/-- Only outside of the callbacks. -/
theorem outside (s : Shape p) : p.stage.handle = none := by
  cases f with
  | settling _ _ hctl | returning _ hctl => exact (s.idle (by simp [hctl])).1
  | answered _ _ hstack => exact s.owned hstack
  | ended err howner => exact absurd howner (hopen _)

theorem not_inside (s : Shape p) {handle : Handle} (hstage : p.stage.handle = some handle) :
    False := by
  rw [f.outside hopen s] at hstage
  cases hstage

/-- An error is never lost. -/
theorem move (s : Shape p) (m : Move p p') : Failing p' := by
  cases m with
  | failed err hctl hstack hanswered => exact .ended err rfl
  | completed value howner owned => exact absurd owned (f.not_owned hopen)
  | inserted left handle c howner owned => exact absurd owned (f.not_owned hopen)
  | began c howner owned => exact absurd owned (f.not_owned hopen)
  | initialised _ _ hstage | heard _ _ _ _ _ hstage | started _ _ _ _ _ _ hstage
  | ended _ _ _ hstage | erred _ _ _ _ _ _ hstage | stayed _ _ _ hstage =>
      exact (f.not_inside hopen s (by rw [hstage]; rfl)).elim
  | kept _ _ hctl | dropped _ _ hctl | called _ _ _ _ _ hctl | entered _ _ _ _ _ hctl
  | again _ hctl =>
      cases f with
      | settling _ _ h | returning _ h | answered _ h => cases hctl.symm.trans h
      | ended err howner => exact absurd howner (hopen _)
  | died handle resp c hctl hresp hr alive hactive hawaited hctl' =>
      cases f with
      | settling handle' err h herr =>
          rw [h] at hctl'
          exact .returning err hctl' herr
      | returning _ h | answered _ h => cases hctl.symm.trans h
      | ended err howner => exact absurd howner (hopen _)
  | gaveBack frame result ans c hctl hstack returning steady hevents hctl' hstack' hlog =>
      cases f with
      | returning err h herr =>
          obtain rfl := Ctl.ret.inj (hctl.symm.trans h)
          cases returning with
          | failed _ _ hframe =>
              exact .answered err hctl' hstack' (by simp [Config.answered, hctl', hlog])
          | empty => exact herr.elim
      | settling _ _ h | answered _ h => cases hctl.symm.trans h
      | ended err howner => exact absurd howner (hopen _)
  | quiet c q =>
      rcases q.ctl with hsame | ⟨hrunOne, _⟩
      · cases f with
        | settling handle err h herr => exact .settling handle err (hsame.trans h) herr
        | returning err h herr => exact .returning err (hsame.trans h) herr
        | answered err h hs hans =>
            refine .answered err (hsame.trans h) (q.stack.trans hs) ?_
            rw [← hans, Config.answered, Config.answered, hsame, q.log]
        | ended err howner => exact .ended err howner
      · cases f with
        | settling _ _ h | returning _ h | answered _ h => cases hrunOne.symm.trans h
        | ended err howner => exact absurd howner (hopen _)

end Failing

/-- Errors come from the operating system, and the loop calls itself empty only when it is. -/
structure Honest (p : Program) : Prop where
  settling (handle : Handle) (err : Error) : p.conf.ctl = .settle handle (.error err) →
    LowLevel err
  returning (err : Error) : p.conf.ctl = .ret (.error err) →
    LowLevel err ∨ p.conf.stack = [.runUntilEmpty] ∧ err = .empty ∧ p.conf.loop.NoEvents
  answered (err : Error) : p.conf.ctl = .user → p.conf.stack = [] →
    p.conf.answered = some (.error err) → LowLevel err
  running : p.owner = .running →
    p.conf.loop.active = true ∧ ∀ handle, .insertExact handle ∉ p.conf.stack
  done (value : Value) : p.owner = .running → p.conf.ctl = .user → p.conf.stack = [] →
    p.conf.answered = some (.ok value) → p.conf.loop.NoEvents

theorem honest_init (now : Nat) : Honest (.init now jobs lines) where
  settling _ _ h := by cases h
  returning _ h := by cases h
  answered _ _ _ h := by cases h
  running h := by cases h
  done _ h := by cases h

/-- While a callback runs, or before an event is called, nothing is said about the end. -/
theorem Honest.inside (q : Honest p) (hctl : ∀ err, p'.conf.ctl ≠ .ret (.error err))
    (hsettle : ∀ handle err, p'.conf.ctl = .settle handle (.error err) → LowLevel err)
    (huser : p'.conf.ctl = .user → p'.conf.stack ≠ []) (howner : p'.owner = p.owner)
    (hactive : p.conf.loop.active = true → p'.conf.loop.active = true)
    (hstack : ∀ handle,
      .insertExact handle ∈ p'.conf.stack → .insertExact handle ∈ p.conf.stack) :
    Honest p' where
  settling := hsettle
  returning err h := absurd h (hctl err)
  answered _ h hs := absurd hs (huser h)
  running h :=
    have hrunning := q.running (howner ▸ h)
    ⟨hactive hrunning.1, fun handle hmem => hrunning.2 handle (hstack handle hmem)⟩
  done _ _ h hs := absurd hs (huser h)

theorem honest_gaveBack (q : Honest p) {frame : Frame} {result : Except Error Unit} {ans : Answer}
    {c : Config Runner} (hctl : p.conf.ctl = .ret result) (hstack : p.conf.stack = [frame])
    (returning : Returning p.conf frame result ans) (steady : Steady p.conf c)
    (hevents : c.loop.events = p.conf.loop.events) (hctl' : c.ctl = .user) (hstack' : c.stack = [])
    (hlog : c.log = .returned frame ans :: p.conf.log) : Honest { p with conf := c } := by
  have hanswered : c.answered = some ans := by simp [Config.answered, hctl', hlog]
  refine ⟨by simp [hctl'], by simp [hctl'], fun err _ _ h => ?_, fun h => ?_,
    fun value h _ _ ha => ?_⟩
  · obtain rfl := Option.some.inj (hanswered.symm.trans h)
    cases returning with
    | failed _ _ hframe =>
        rcases q.returning err hctl with hlow | ⟨hrun, hempty, _⟩
        · exact hlow
        · exact absurd hempty (hframe (List.cons.inj (hstack.symm.trans hrun)).1)
  · exact ⟨steady.active (q.running h).1, by simp [hstack']⟩
  · obtain rfl := Option.some.inj (hanswered.symm.trans ha)
    cases returning with
    | inserted handle => exact absurd (by simp [hstack]) ((q.running h).2 handle)
    | stopped hactive => simp [(q.running h).1] at hactive
    | empty =>
        rcases q.returning .empty hctl with hlow | ⟨_, _, hnone⟩
        · exact hlow.elim
        · intro idx
          rw [hevents]
          exact hnone idx

theorem honest_quiet (s : Shape p) (q : Honest p) {c : Config Runner} (quiet : Quiet p.conf c) :
    Honest { p with conf := c } := by
  have hrunning (h : p.owner = .running) :
      c.loop.active = true ∧ ∀ handle, .insertExact handle ∉ c.stack :=
    ⟨quiet.active (q.running h).1, quiet.stack ▸ (q.running h).2⟩
  rcases quiet.ctl with hsame | ⟨hrunOne, err, hret, hwhy⟩
  · have hanswered : c.answered = p.conf.answered := by
      rw [Config.answered, Config.answered, hsame, quiet.log]
    have hevents (h : c.ctl ≠ .runOne) : c.loop.events = p.conf.loop.events :=
      quiet.events (hsame ▸ h)
    refine ⟨fun handle err h => q.settling handle err (hsame ▸ h), fun err h => ?_,
      fun err h hs ha => ?_, hrunning, fun value howner h hs ha => ?_⟩
    · refine (q.returning err (hsame ▸ h)).imp_right fun hempty => ?_
      rw [quiet.stack]
      refine ⟨hempty.1, hempty.2.1, fun idx => ?_⟩
      rw [hevents fun heq => by cases heq.symm.trans h]
      exact hempty.2.2 idx
    · exact q.answered err (hsame ▸ h) (quiet.stack ▸ hs) (hanswered ▸ ha)
    · intro idx
      rw [hevents fun heq => by cases heq.symm.trans h]
      exact q.done value howner (hsame ▸ h) (quiet.stack ▸ hs) (hanswered ▸ ha) idx
  · refine ⟨by simp [hret], fun err' h => ?_, by simp [hret], hrunning, by simp [hret]⟩
    obtain rfl : err = err' := by simpa [hret] using h
    exact hwhy.symm.imp_right fun hempty => ⟨quiet.stack.trans (s.looping hrunOne), hempty⟩

theorem honest_move (s : Shape p) (q : Honest p) (m : Move p p') : Honest p' := by
  have s' := shape_move s m
  cases m with
  | failed err hctl hstack hanswered =>
      exact ⟨q.settling, q.returning, q.answered, nofun, nofun⟩
  | completed value howner owned => exact ⟨q.settling, q.returning, q.answered, nofun, nofun⟩
  | inserted left handle c howner owned steady hdead hctl hstack hlog =>
      exact ⟨by simp [hctl], by simp [hctl], by simp [hctl], nofun, nofun⟩
  | began c howner owned steady hactive hctl hstack hlog =>
      exact ⟨by simp [hctl], by simp [hctl], by simp [hctl],
        fun _ => ⟨hactive, by simp [hstack]⟩, by simp [hctl]⟩
  | initialised handle event hstage =>
      exact ⟨q.settling, q.returning, q.answered, q.running, q.done⟩
  | heard handle pid exit event cmd hstage hcmd =>
      exact ⟨q.settling, q.returning, q.answered, q.running, q.done⟩
  | started handle event pid cmd rest c hstage hcommands alive hawaited hctl hstack hlog =>
      have hne : c.stack ≠ [] := fun hnil => by cases s'.owned hnil
      exact q.inside (by simp [hctl]) (by simp [hctl]) (fun _ => hne) rfl alive.active
        fun _ hmem => hstack ▸ hmem
  | ended handle event c hstage hcommands leaves =>
      exact q.inside (by simp [leaves.ctl]) (by simp [leaves.ctl]) (by simp [leaves.ctl]) rfl
        leaves.active fun _ hmem => leaves.stack hmem
  | erred handle event kind line rest c hstage hcommands leaves =>
      refine q.inside (by simp [leaves.ctl]) (fun h err heq => ?_) (by simp [leaves.ctl]) rfl
        leaves.active fun _ hmem => leaves.stack hmem
      cases leaves.ctl.symm.trans heq
      trivial
  | stayed handle cmd c hstage leaves =>
      exact q.inside (by simp [leaves.ctl]) (by simp [leaves.ctl]) (by simp [leaves.ctl]) rfl
        leaves.active fun _ hmem => leaves.stack hmem
  | kept handle c hctl steady hctl' hstack hlog =>
      exact q.inside (by simp [hctl']) (by simp [hctl']) (by simp [hctl']) rfl steady.active
        fun _ hmem => hstack ▸ hmem
  | died handle resp c hctl hresp hr alive hactive hawaited hctl' hstack hlog =>
      refine ⟨by simp [hctl'], fun err h => .inl ?_, by simp [hctl'], fun h => ?_,
        by simp [hctl']⟩
      · cases resp with
        | ok keep => simp [hctl', hctl, errorHandler] at h
        | error err' =>
            obtain rfl : err' = err := by simpa [hctl', hctl, errorHandler] using h
            exact q.settling handle err' hctl
      · exact ⟨hactive (q.running h).1, fun h' hmem => (q.running h).2 h' (hstack ▸ hmem)⟩
  | dropped task c hctl hdead alive hawaited hctl' hstack hlog =>
      exact q.inside (by simp [hctl']) (by simp [hctl']) (by simp [hctl']) rfl alive.active
        fun _ hmem => hstack ▸ hmem
  | called task handle pid exit c hctl steady hctl' hstack hlog =>
      exact q.inside (by simp [hctl']) (by simp [hctl']) (by simp [hctl']) rfl steady.active
        fun _ hmem => hstack ▸ hmem
  | entered handle cb event data c hctl hcb hvalue alive hawaited hctl' hstack hlog =>
      exact q.inside (by simp [hctl']) (by simp [hctl']) (by simp [hstack]) rfl alive.active
        (by simp [hstack])
  | again c hctl steady hctl' hstack hstack' hlog =>
      exact q.inside (by simp [hctl']) (by simp [hctl']) (by simp [hctl']) rfl steady.active
        (by simp [hstack'])
  | gaveBack frame result ans c hctl hstack returning steady hevents hctl' hstack' hlog =>
      exact honest_gaveBack q hctl hstack returning steady hevents hctl' hstack' hlog
  | quiet c quiet => exact honest_quiet s q quiet

/-! ## Lines, commands and exits -/

/-- What is to be said of the exits, in this order. -/
def complaints (exits : List (String × ChildExit)) : List String :=
  exits.filterMap fun exit => complaint exit.1 exit.2

structure Ledger (jobs : Nat) (lines : List (Except IoErrorKind String)) (p : Program) : Prop where
  few : p.conf.issued.length ≤ jobs
  inserting (left : Nat) : p.owner = .inserting left → p.conf.issued.length + left = jobs
  running : p.owner = .running → p.conf.issued.length = jobs
  order : p.started.reverse.map .ok ++ p.ctx.commands = lines ∨
    Failing p ∧ p.started.reverse.map .ok <+: lines
  counts : (p.working.map Job.command ++ p.exits.map Prod.fst).Perm p.started
  stderr : p.stderr = complaints p.exits
  errors : p.ctx.errors = !p.stderr.isEmpty
  /-- A runner that ends well has found no more lines. -/
  settling (handle : Handle) : p.conf.ctl = .settle handle (.ok false) → p.ctx.commands = []
  eof : p.conf.slain ≠ [] → p.ctx.commands = [] ∨ Failing p

theorem ledger_init (now : Nat) : Ledger jobs lines (.init now jobs lines) where
  few := Nat.zero_le _
  inserting left h := by
    cases h
    exact Nat.zero_add _
  running h := by cases h
  order := .inl rfl
  counts := .refl _
  stderr := rfl
  errors := rfl
  settling _ h := by cases h
  eof h := absurd rfl h

/-- The loop goes on without adding or killing runners. -/
theorem Ledger.unchanged (q : Ledger jobs lines p) (hfailing : Failing p → Failing p')
    (hissued : p'.conf.issued = p.conf.issued) (hslain : p'.conf.slain = p.conf.slain)
    (hctx : p'.ctx = p.ctx) (hstarted : p'.started = p.started) (hworking : p'.working = p.working)
    (hexits : p'.exits = p.exits) (hstderr : p'.stderr = p.stderr)
    (hinserting : ∀ left, p'.owner = .inserting left → p.owner = .inserting left)
    (hrunning : p'.owner = .running → p.owner = .running ∨ p.owner = .inserting 0)
    (hsettling : ∀ handle, p'.conf.ctl = .settle handle (.ok false) → p.ctx.commands = []) :
    Ledger jobs lines p' where
  few := hissued ▸ q.few
  inserting left h := by
    rw [hissued]
    exact q.inserting left (hinserting left h)
  running h := by
    rw [hissued]
    rcases hrunning h with h | h
    · exact q.running h
    · exact q.inserting 0 h
  order := by
    rw [hstarted, hctx]
    exact q.order.imp_right fun h => ⟨hfailing h.1, h.2⟩
  counts := by
    rw [hworking, hexits, hstarted]
    exact q.counts
  stderr := by rw [hstderr, hexits, q.stderr]
  errors := by rw [hctx, hstderr, q.errors]
  settling handle h := by
    rw [hctx]
    exact hsettling handle h
  eof h := by
    rw [hctx]
    exact (q.eof (hslain ▸ h)).imp_right hfailing

theorem Ledger.conf (q : Ledger jobs lines p) {c : Config Runner} {stage : Stage}
    (hfailing : Failing p → Failing { p with conf := c, stage := stage })
    (hissued : c.issued = p.conf.issued) (hslain : c.slain = p.conf.slain)
    (hsettling : ∀ handle, c.ctl = .settle handle (.ok false) → p.ctx.commands = []) :
    Ledger jobs lines { p with conf := c, stage := stage } :=
  q.unchanged hfailing hissued hslain rfl rfl rfl rfl rfl (fun _ h => h) .inl hsettling

section Logs

variable {c c' : Config Runner} {o : Obs Runner}

theorem issued_of_log (hlog : c'.log = o :: c.log) (ho : o.issued = none) :
    c'.issued = c.issued := by
  rw [issued, hlog, List.filterMap_cons_none ho, issued]

theorem slain_of_log (hlog : c'.log = o :: c.log) (ho : o.slain = none) : c'.slain = c.slain := by
  rw [slain, hlog, List.filterMap_cons_none ho, slain]

end Logs

theorem ledger_inserted (q : Ledger jobs lines p) {left : Nat} {handle : Handle}
    {c : Config Runner} (howner : p.owner = .inserting (left + 1))
    (hctl : c.ctl = .call handle .init) (hlog : c.log = .stored handle ⟨none⟩ :: p.conf.log)
    (hfailing : Failing p → Failing { p with owner := .inserting left, conf := c }) :
    Ledger jobs lines { p with owner := .inserting left, conf := c } := by
  have hissued : c.issued = handle :: p.conf.issued := by
    rw [issued, hlog]
    rfl
  have hcount := q.inserting _ howner
  refine ⟨?_, fun left' h => ?_, by simp, q.order.imp_right (.imp_left hfailing), q.counts,
    q.stderr, q.errors, by simp [hctl], fun h => ?_⟩
  · change c.issued.length ≤ jobs
    rw [hissued, List.length_cons]
    omega
  · cases h
    change c.issued.length + left = jobs
    rw [hissued, List.length_cons]
    omega
  · exact (q.eof (slain_of_log hlog rfl ▸ h)).imp_right hfailing

theorem ledger_heard (r : Roster p) (q : Ledger jobs lines p) {handle : Handle} {pid : Pid}
    {exit : ChildExit} {event : Runner} {cmd : String}
    (hstage : p.stage = .entered handle (.child pid exit) event)
    (hcmd : event.command = some cmd)
    (hfailing : Failing p → Failing (p.heard handle pid cmd exit)) :
    Ledger jobs lines (p.heard handle pid cmd exit) := by
  refine ⟨q.few, q.inserting, q.running, q.order.imp_right (.imp_left hfailing), ?_, ?_, ?_,
    q.settling, fun h => (q.eof h).imp_right hfailing⟩
  · obtain ⟨cmd', hcmd', hjob⟩ := r.told hstage
    obtain rfl : cmd' = cmd := Option.some.inj (hcmd'.symm.trans hcmd)
    refine List.Perm.trans ?_ q.counts
    have hperm := ((List.perm_cons_erase hjob).map Job.command).symm
    exact List.perm_middle.trans (hperm.append_right _)
  · change (complaint cmd exit).toList ++ p.stderr = complaints ((cmd, exit) :: p.exits)
    rw [q.stderr, complaints, complaints, List.filterMap_cons]
    cases complaint cmd exit <;> rfl
  · change (p.ctx.errors || (complaint cmd exit).isSome) =
      !((complaint cmd exit).toList ++ p.stderr).isEmpty
    rw [q.errors]
    cases complaint cmd exit <;> simp

theorem ledger_started (s : Shape p) (hopen : p.Open) (q : Ledger jobs lines p) {handle : Handle}
    {event : Runner} {pid : Pid} {cmd : String} {rest : List (Except IoErrorKind String)}
    {c : Config Runner} (hstage : p.stage = .running handle event)
    (hcommands : p.ctx.commands = .ok cmd :: rest) (hctl : c.ctl = .user)
    (hlog : c.log = .answered (some handle) (.scope (.child pid)) (.ok .unit) :: p.conf.log) :
    Ledger jobs lines { p with
      conf := c
      ctx := { p.ctx with commands := rest }
      stage := .registered handle cmd
      started := cmd :: p.started
      working := ⟨handle, pid, cmd⟩ :: p.working } := by
  have hgood (f : Failing p) : False := f.not_inside hopen s (by rw [hstage]; rfl)
  have hissued := issued_of_log hlog rfl
  refine ⟨hissued ▸ q.few, fun left h => ?_, fun h => ?_, ?_, q.counts.cons cmd, q.stderr,
    q.errors, by simp [hctl], fun h => ?_⟩
  · rw [hissued]
    exact q.inserting left h
  · rw [hissued]
    exact q.running h
  · rcases q.order with hlines | ⟨f, _⟩
    · rw [hcommands] at hlines
      exact .inl (by simp [← hlines])
    · exact (hgood f).elim
  · rcases q.eof (slain_of_log hlog rfl ▸ h) with hnil | f
    · simp [hcommands] at hnil
    · exact (hgood f).elim

theorem ledger_erred (q : Ledger jobs lines p) {handle : Handle} {event : Runner}
    {kind : IoErrorKind} {rest : List (Except IoErrorKind String)} {c : Config Runner}
    (leaves : Leaves p.conf handle event (.error (.io kind)) c) :
    Ledger jobs lines { p with
      conf := c, ctx := { p.ctx with commands := rest }, stage := .outside } := by
  have hissued := issued_of_log leaves.log rfl
  have hfailing : Failing { p with
      conf := c, ctx := { p.ctx with commands := rest }, stage := .outside } :=
    .settling handle _ leaves.ctl trivial
  refine ⟨hissued ▸ q.few, fun left h => ?_, fun h => ?_, .inr ⟨hfailing, ?_⟩, q.counts,
    q.stderr, q.errors, by simp [leaves.ctl], fun _ => .inr hfailing⟩
  · rw [hissued]
    exact q.inserting left h
  · rw [hissued]
    exact q.running h
  · rcases q.order with hlines | ⟨_, hprefix⟩
    · exact ⟨_, hlines⟩
    · exact hprefix

theorem ledger_died (h : Honest p) (q : Ledger jobs lines p) {handle : Handle} {resp : Response}
    {c : Config Runner} (hctl : p.conf.ctl = .settle handle resp) (hresp : resp ≠ .ok true)
    (hctl' : c.ctl = .ret (errorHandler p.conf.ctl)) (hlog : c.log = .killed handle :: p.conf.log)
    (hfailing : Failing p → Failing { p with conf := c }) :
    Ledger jobs lines { p with conf := c } := by
  have hissued := issued_of_log hlog rfl
  refine ⟨hissued ▸ q.few, fun left h => ?_, fun h => ?_,
    q.order.imp_right (.imp_left hfailing), q.counts, q.stderr, q.errors, by simp [hctl'],
    fun _ => ?_⟩
  · rw [hissued]
    exact q.inserting left h
  · rw [hissued]
    exact q.running h
  · cases resp with
    | error err => exact .inr (hfailing (.settling handle err hctl (h.settling handle err hctl)))
    | ok keep =>
        cases keep with
        | true => exact absurd rfl hresp
        | false => exact .inl (q.settling handle hctl)

theorem ledger_move (s : Shape p) (r : Roster p) (h : Honest p) (hopen : p.Open)
    (q : Ledger jobs lines p) (m : Move p p') : Ledger jobs lines p' := by
  have hfailing (f : Failing p) : Failing p' := f.move hopen s m
  cases m with
  | failed err hctl hstack hanswered =>
      exact q.unchanged hfailing rfl rfl rfl rfl rfl rfl rfl nofun nofun q.settling
  | completed value howner owned =>
      exact q.unchanged hfailing rfl rfl rfl rfl rfl rfl rfl nofun nofun q.settling
  | inserted left handle c howner owned steady hdead hctl hstack hlog =>
      exact ledger_inserted q howner hctl hlog hfailing
  | began c howner owned steady hactive hctl hstack hlog =>
      exact q.unchanged hfailing (by rw [issued, hlog, issued]) (by rw [slain, hlog, slain]) rfl rfl
        rfl rfl rfl nofun (fun _ => .inr howner) (by simp [hctl])
  | initialised handle event hstage => exact q.conf hfailing rfl rfl q.settling
  | heard handle pid exit event cmd hstage hcmd => exact ledger_heard r q hstage hcmd hfailing
  | started handle event pid cmd rest c hstage hcommands alive hawaited hctl hstack hlog =>
      exact ledger_started s hopen q hstage hcommands hctl hlog
  | ended handle event c hstage hcommands leaves =>
      exact q.conf hfailing (issued_of_log leaves.log rfl) (slain_of_log leaves.log rfl)
        fun _ _ => hcommands
  | erred handle event kind line rest c hstage hcommands leaves =>
      exact ledger_erred q leaves
  | stayed handle cmd c hstage leaves =>
      exact q.conf hfailing (issued_of_log leaves.log rfl) (slain_of_log leaves.log rfl)
        (by simp [leaves.ctl])
  | kept handle c hctl steady hctl' hstack hlog | again c hctl steady hctl' hstack hstack' hlog =>
      exact q.conf hfailing (by rw [issued, hlog, issued]) (by rw [slain, hlog, slain])
        (by simp [hctl'])
  | died handle resp c hctl hresp hr alive hactive hawaited hctl' hstack hlog =>
      exact ledger_died h q hctl hresp hctl' hlog hfailing
  | dropped task c hctl hdead alive hawaited hctl' hstack hlog
  | called task handle pid exit c hctl steady hctl' hstack hlog
  | entered handle cb event data c hctl hcb hvalue alive hawaited hctl' hstack hlog
  | gaveBack frame result ans c hctl hstack returning steady hevents hctl' hstack' hlog =>
      exact q.conf hfailing (issued_of_log hlog rfl) (slain_of_log hlog rfl) (by simp [hctl'])
  | quiet c quiet =>
      refine q.conf hfailing (by rw [issued, quiet.log, issued]) (by rw [slain, quiet.log, slain])
        fun handle heq => ?_
      rcases quiet.ctl with hsame | ⟨_, err, hret, _⟩
      · exact q.settling handle (hsame ▸ heq)
      · simp [hret] at heq

/-! ## The result -/

/-- All lines have been run, and nothing runs any more. -/
structure Done (jobs : Nat) (lines : List (Except IoErrorKind String)) (p : Program)
    (result : Except Error Unit) : Prop where
  lines : 0 < jobs → p.started.reverse.map .ok = lines
  working : p.working = []
  result : result = p.verdict

/-- Without events there is no runner left, and each of them has found no more lines. -/
theorem done_of_noEvents (s : Shape p) (r : Roster p) (hopen : p.Open) (q : Ledger jobs lines p)
    (howner : p.owner = .running) (owned : Owned p.conf) (hnone : p.conf.loop.NoEvents) :
    Done jobs lines p p.verdict := by
  have hgood (f : Failing p) : False := f.not_owned hopen owned
  refine ⟨fun hjobs => ?_, ?_, rfl⟩
  · have hissued := q.running howner
    obtain ⟨handle, hmem⟩ : ∃ handle, handle ∈ p.conf.issued :=
      List.exists_mem_of_length_pos (hissued ▸ hjobs)
    have hslain : handle ∈ p.conf.slain := by
      have hcount := s.reachable.visited.identity.alive handle
      rw [hnone.not_alive handle] at hcount
      have hpos := List.count_pos_iff.mpr hmem
      exact List.count_pos_iff.mp (by simpa [hcount] using hpos)
    have heof : p.ctx.commands = [] := (q.eof (List.ne_nil_of_mem hslain)).resolve_right hgood
    have hlines := q.order.resolve_right fun h => hgood h.1
    rwa [heof, List.append_nil] at hlines
  · refine List.eq_nil_iff_forall_not_mem.mpr fun job hmem => ?_
    have halive := r.alive job hmem
    rw [hnone.not_alive job.handle] at halive
    cases halive

structure Sound (jobs : Nat) (lines : List (Except IoErrorKind String)) (p : Program) : Prop where
  shape : Shape p
  roster : Roster p
  honest : Honest p
  ledger : Ledger jobs lines p
  returned (result : Except Error Unit) : p.owner = .returned result →
    (∃ err, result = .error err ∧ LowLevel err) ∨ Done jobs lines p result

theorem sound_step {act : Act} (q : Sound jobs lines p) (hs : p.step act = .ok p') :
    Sound jobs lines p' := by
  have hopen := step_open hs
  have m := move_step q.shape hs
  refine ⟨shape_move q.shape m, roster_move q.shape q.roster m, honest_move q.shape q.honest m,
    ledger_move q.shape q.roster q.honest hopen q.ledger m, fun result h => ?_⟩
  cases m with
  | failed err hctl hstack hanswered =>
      cases h
      exact .inl ⟨err, rfl, q.honest.answered err hctl hstack hanswered⟩
  | completed value howner owned hanswered =>
      cases h
      have hnone := q.honest.done value howner owned.ctl owned.stack hanswered
      have hdone := done_of_noEvents q.shape q.roster hopen q.ledger howner owned hnone
      exact .inr ⟨hdone.lines, hdone.working, rfl⟩
  | inserted | began => cases h
  | _ => exact absurd h (hopen result)

theorem sound_of_reach {now : Nat}
    (h : Reach Program.step (fun _ _ => True) (.init now jobs lines) p) : Sound jobs lines p := by
  refine h.invariant ?_ fun _ _ _ q _ hs => sound_step q hs
  exact ⟨shape_init now jobs lines, roster_init now jobs lines, honest_init now, ledger_init now,
    nofun⟩

/-- A runner has one command at a time, so there are no more of them than runners. -/
theorem Sound.working_length (q : Sound jobs lines p) : p.working.length ≤ jobs := by
  have hsub : p.working.map Job.handle ⊆ p.conf.issued := by
    intro handle hmem
    obtain ⟨job, hjob, rfl⟩ := List.mem_map.mp hmem
    have hcount := q.shape.reachable.visited.identity.alive job.handle
    rw [if_pos (q.roster.alive job hjob)] at hcount
    exact List.count_pos_iff.mp (hcount ▸ Nat.succ_pos _)
  have hle := (List.subperm_of_subset q.roster.nodup hsub).length_le
  rw [List.length_map] at hle
  exact hle.trans q.ledger.few

theorem complaint_eq_none {cmd : String} {exit : ChildExit} :
    complaint cmd exit = none ↔ exit = .exited 0 := by
  unfold complaint
  split <;> simp_all

theorem Sound.verdict (q : Sound jobs lines p) : p.verdict =
    if ∀ exit ∈ p.exits, exit.2 = .exited 0 then .ok ()
      else .error (.userStr "A command failed") := by
  have herrors : p.ctx.errors = false ↔ ∀ exit ∈ p.exits, exit.2 = .exited 0 := by
    rw [q.ledger.errors, q.ledger.stderr, Bool.not_eq_false', List.isEmpty_iff, complaints,
      List.filterMap_eq_nil_iff]
    simp only [complaint_eq_none]
  unfold Program.verdict
  cases herr : p.ctx.errors with
  | false => rw [if_pos (herrors.mp herr), if_neg nofun]
  | true =>
      have hne : ¬∀ exit ∈ p.exits, exit.2 = .exited 0 := fun h => by
        rw [herrors.mpr h] at herr
        cases herr
      rw [if_neg hne, if_pos rfl]

/-- In every state of the program, no more commands are waited for at a time than asked for, and
every child that is tracked belongs to one of them; commands are started in the order of their
lines, each once, and every one of them is still waited for or has been heard of; and stderr says of
each exit what there is to say. -/
theorem commands_run_once_in_order (p : Program) (now : Nat)
    (h : Reach Program.step (fun _ _ => True) (.init now jobs lines) p) :
    p.working.length ≤ jobs ∧
    (∀ pid handle, p.conf.loop.children.lookup pid = some handle →
      ∃ cmd, ⟨handle, pid, cmd⟩ ∈ p.working) ∧
    p.started.reverse.map .ok <+: lines ∧
    (p.working.map Job.command ++ p.exits.map Prod.fst).Perm p.started ∧
    p.stderr = complaints p.exits := by
  have q := sound_of_reach h
  refine ⟨q.working_length, fun pid handle => q.roster.tracked, ?_, q.ledger.counts,
    q.ledger.stderr⟩
  rcases q.ledger.order with hlines | ⟨_, hprefix⟩
  · exact ⟨_, hlines⟩
  · exact hprefix

def twoLines : List (Except IoErrorKind String) := [.ok "true", .ok "false"]

/-- One runner runs the first of two lines, which exits with 0, and starts the second. -/
def firstLine : List Act :=
  [.owner ⟨3, true⟩, .tick, .callback (.ok 5) none, .callback (.ok 5) none,
    .callback (.ok 5) none, .settle, .tick, .owner ⟨3, true⟩, .other (.dispatch .SIGCHLD),
    .other (.gather ⟨0, .ok [⟨1, ⟨1⟩, 0⟩], 1, [.ok (.exited 5 0)]⟩), .tick, .tick,
    .callback (.ok 6) none, .callback (.ok 6) none, .callback (.ok 6) none, .settle, .tick]

/-- The second exits with 1. -/
def secondLine : List Act :=
  [.other (.dispatch .SIGCHLD),
    .other (.gather ⟨1, .ok [⟨1, ⟨1⟩, 0⟩], 2, [.ok (.exited 6 1)]⟩), .tick, .tick,
    .callback (.ok 7) none, .callback (.ok 7) none, .settle, .tick,
    .other (.gather ⟨2, .ok [], 3, []⟩), .tick, .owner ⟨3, true⟩]

def Program.after (acts : List Act) : Program :=
  landing Program.step (.init 0 1 twoLines) acts

theorem reach_acts (acts : List Act) : Reach Program.step (fun _ _ => True)
    (.init 0 1 twoLines) (.after acts) := by
  unfold Program.after landing
  split
  · exact .of_run ‹_›
  · exact .start

theorem commands_run_once_in_order_firstLine :
    (Program.after firstLine).working = [⟨⟨0, 0⟩, 6, "false"⟩] ∧
      (Program.after firstLine).working.length ≤ 1 ∧
      (Program.after firstLine).started.reverse.map .ok <+: twoLines := by
  have h := commands_run_once_in_order _ 0 (reach_acts firstLine)
  exact ⟨rfl, h.1, h.2.2.1⟩

/-- When the program ends with success, and there was at least one runner, all lines were commands,
all of them have ended with the code 0, and nothing runs any more.  It complains of a failed command
exactly if one has failed; all other errors are those of the operating system. -/
theorem success_is_true (p : Program) (now : Nat)
    (h : Reach Program.step (fun _ _ => True) (.init now jobs lines) p) (hjobs : 0 < jobs)
    (result : Except Error Unit) (hresult : p.owner = .returned result)
    (hlow : ∀ err, LowLevel err → result ≠ .error err) :
    p.started.reverse.map .ok = lines ∧ (p.exits.map Prod.fst).Perm p.started ∧
    p.conf.loop.children.keys = [] ∧
    result = if ∀ exit ∈ p.exits, exit.2 = .exited 0 then .ok ()
      else .error (.userStr "A command failed") := by
  have q := sound_of_reach h
  obtain ⟨hlines, hworking, hverdict⟩ : Done jobs lines p result := by
    rcases q.returned result hresult with ⟨err, herr, hlow'⟩ | hdone
    · exact absurd herr (hlow err hlow')
    · exact hdone
  refine ⟨hlines hjobs, ?_, ?_, hverdict.trans q.verdict⟩
  · have hcounts := q.ledger.counts
    rwa [hworking] at hcounts
  · refine List.eq_nil_iff_forall_not_mem.mpr fun pid hmem => ?_
    obtain ⟨handle, hlookup⟩ := Option.isSome_iff_exists.mp (List.dlookup_isSome.mpr hmem)
    obtain ⟨cmd, hjob⟩ := q.roster.tracked hlookup
    rw [hworking] at hjob
    cases hjob

theorem success_is_true_secondLine :
    (Program.after (firstLine ++ secondLine)).started.reverse.map .ok = twoLines ∧
      ((Program.after (firstLine ++ secondLine)).exits.map Prod.fst).Perm
        (Program.after (firstLine ++ secondLine)).started := by
  have hlow (err : Error) (h : LowLevel err) :
      (.error (.userStr "A command failed") : Except Error Unit) ≠ .error err := by
    rintro ⟨⟩
    exact h
  have h := success_is_true _ 0 (reach_acts (firstLine ++ secondLine)) (by decide) _ rfl hlow
  exact ⟨h.1, h.2.1⟩

/-- Without runners no line is read, and the program succeeds. -/
example : (landing Program.step (.init 0 0 twoLines)
    [.owner ⟨3, true⟩, .other (.gather ⟨0, .ok [], 1, []⟩), .tick,
      .owner ⟨3, true⟩]).owner =
      .returned (.ok ()) := rfl

end Eveboros.Pargs
