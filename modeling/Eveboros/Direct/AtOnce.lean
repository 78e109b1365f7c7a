import Eveboros.Direct.Semantics
import Eveboros.Machine.Operations

/-!
# Operations that answer at once

Queries, requests and refusals have no frame of their own: nothing happens between the call and the
answer.  The loop says what they answer.
-/

namespace Eveboros.Direct

open Config

variable {Ev : Type} {c c' : Config Ev}

/-- The event has no IO under the id. -/
def NoIo (l : Loop Ev) (handle : Handle) (id : IoId) : Prop :=
  ∃ holder, l.events.get? handle.id = some holder ∧ id.idx ∉ holder.ios

/-- What mio's answer makes of an operation. -/
def mioAnswer : Option IoErrorKind → Answer
  | none => .ok .unit
  | some err => .error (.io err)

/-- The answers that the operations of an event give at once. -/
inductive ScopeAnswers (l : Loop Ev) (handle : Handle) : ScopeOp → Answer → Prop
  | handle : ScopeAnswers l handle .handle (.ok (.handle handle))
  | timeoutAt (when : Nat) :
      ScopeAnswers l handle (.timeoutAt when) (.ok (.timeoutId ⟨l.timeoutGeneration⟩))
  | timeoutAfter (after : Nat) (hbefore : l.now + after < INSTANT_END) :
      ScopeAnswers l handle (.timeoutAfter after) (.ok (.timeoutId ⟨l.timeoutGeneration⟩))
  | signal (signal : Signal) : ScopeAnswers l handle (.signal signal) (.ok .unit)
  | idle : ScopeAnswers l handle .idle (.ok .unit)
  | expectMessage (tp : TypeId) : ScopeAnswers l handle (.expectMessage tp) (.ok .unit)
  | ioRegisterAny (growth : Growth) (idx : Nat) (hvacant : l.ios.get? idx = none) :
      ScopeAnswers l handle (.ioRegisterAny growth none) (.ok (.ioId (.ofIdx idx)))
  | ioRefused (growth : Growth) (err : IoErrorKind) :
      ScopeAnswers l handle (.ioRegisterAny growth (some err)) (.error (.io err))
  | ioMut (id : IoId) (left : Option Nat) (hheld : ¬NoIo l handle id) :
      ScopeAnswers l handle (.ioMut id left) (.ok .unit)
  | ioUpdate (id : IoId) (outcome : Option IoErrorKind) (hheld : ¬NoIo l handle id) :
      ScopeAnswers l handle (.ioUpdate id outcome) (mioAnswer outcome)
  | ioRemove (id : IoId) (outcome : Option IoErrorKind) (hheld : ¬NoIo l handle id) :
      ScopeAnswers l handle (.ioRemove id outcome) (mioAnswer outcome)
  | noIo (op : ScopeOp) (id : IoId) (hnone : NoIo l handle id)
      (hop : (∃ left, op = .ioMut id left) ∨ ∃ outcome, op = .ioUpdate id outcome ∨
        op = .ioRemove id outcome) : ScopeAnswers l handle op (.error .missingIo)
  | backgroundSubmit :
      ScopeAnswers l handle .backgroundSubmit (.ok (.backgroundId ⟨l.backgroundGeneration⟩))
  | child (pid : Pid) (hnew : pid ∉ l.children) : ScopeAnswers l handle (.child pid) (.ok .unit)

/-- The answers that any operation gives at once.  The others have none. -/
inductive AtOnce (l : Loop Ev) (caller : Option Handle) : Op Ev → Answer → Prop
  | completed (handle : Handle) (hdead : l.eventAlive handle = false) :
      AtOnce l caller (.iface (.runUntilComplete handle)) (.ok .unit)
  | deadLock (handle : Handle) (holder : EvHolder Ev) (halive : l.eventAlive handle = true)
      (hget : l.events.get? handle.id = some holder) (hstolen : holder.event.stolen = true) :
      AtOnce l caller (.iface (.runUntilComplete handle)) (.error .deadLock)
  | stop : AtOnce l caller (.iface .stop) (.ok .unit)
  | eventAlive (handle : Handle) :
      AtOnce l caller (.iface (.eventAlive handle)) (.ok (.bool (l.eventAlive handle)))
  | eventCount (count : Nat) (hcount : l.events.len = .ok count) :
      AtOnce l caller (.iface .eventCount) (.ok (.nat count))
  | now : AtOnce l caller (.iface .now) (.ok (.nat l.now))
  | channel (handle : Handle) :
      AtOnce l caller (.iface (.channel handle)) (.ok (.channel handle))
  | sent (handle : Handle) (data : AnyBox) (tp : TypeId)
      (hwilling : ∀ err, ¬l.TurnsAway handle tp err) :
      AtOnce l caller (.iface (.sendImpl handle data tp)) (.ok .unit)
  | notSent (handle : Handle) (data : AnyBox) (tp : TypeId) (err : Error)
      (haway : l.TurnsAway handle tp err) :
      AtOnce l caller (.iface (.sendImpl handle data tp)) (.error err)
  | notPosted (handle : Handle) (data : AnyBox) (tp : TypeId) (err : Error)
      (haway : l.TurnsAway handle tp err) :
      AtOnce l caller (.iface (.postImpl handle data tp)) (.error err)
  | scope (handle : Handle) (hcaller : caller = some handle) (op : ScopeOp) (answer : Answer)
      (h : ScopeAnswers l handle op answer) : AtOnce l caller (.scope op) answer
  | owner (hcaller : caller = none) (op : OwnerOp) : AtOnce l caller (.owner op) (.ok .unit)

/-! ## What is answered -/

/-- The check of an id in the name of its event. -/
theorem ioIdx_ok {l : Loop Ev} {handle : Handle} {id : IoId} {checked : Except Error Nat}
    (h : l.ioIdx handle id = .ok checked) :
    ¬NoIo l handle id ∧ checked = .ok id.idx ∨ NoIo l handle id ∧ checked = .error .missingIo := by
  rcases ioIdx_cases l handle id with ⟨_, e, hidx⟩ | ⟨holder, hget, ⟨hmem, hidx⟩ | ⟨hmem, hidx⟩⟩
  · cases hidx.symm.trans h
  · cases hidx.symm.trans h
    refine .inl ⟨?_, rfl⟩
    rintro ⟨holder', hget', hnot⟩
    cases hget.symm.trans hget'
    exact hnot hmem
  · cases hidx.symm.trans h
    exact .inr ⟨⟨holder, hget, hmem⟩, rfl⟩

theorem scopeAnswers_of_callScope {handle : Handle} {op : ScopeOp}
    (h : c.callScope handle op = .ok c') : ∃ answer, ScopeAnswers c.loop handle op answer ∧
      c'.log = .answered c.caller (.scope op) answer :: c.log := by
  cases op with
  | handle =>
      cases h
      exact ⟨_, .handle, rfl⟩
  | timeoutAt when =>
      obtain ⟨⟨id, l⟩, htimeout, h⟩ := Except.bind_eq_ok.mp h
      obtain ⟨events, _, ⟨⟩⟩ := Except.bind_eq_ok.mp htimeout
      cases h
      exact ⟨_, .timeoutAt when, rfl⟩
  | timeoutAfter after =>
      obtain ⟨⟨id, l⟩, htimeout, h⟩ := Except.bind_eq_ok.mp h
      unfold Loop.timeoutAfter at htimeout
      split at htimeout
      · rename_i hbefore
        obtain ⟨events, _, ⟨⟩⟩ := Except.bind_eq_ok.mp htimeout
        cases h
        exact ⟨_, .timeoutAfter after hbefore, rfl⟩
      · cases htimeout
  | signal signal =>
      obtain ⟨_, _, ⟨⟩⟩ := Except.bind_eq_ok.mp h
      exact ⟨_, .signal signal, rfl⟩
  | idle =>
      cases h
      exact ⟨_, .idle, rfl⟩
  | expectMessage tp =>
      obtain ⟨_, _, ⟨⟩⟩ := Except.bind_eq_ok.mp h
      exact ⟨_, .expectMessage tp, rfl⟩
  | ioRegisterAny growth outcome =>
      obtain ⟨⟨id, l⟩, hregister, ⟨⟩⟩ := Except.bind_eq_ok.mp h
      obtain ⟨⟨idx, ios⟩, hstore, hregister⟩ := Except.bind_eq_ok.mp hregister
      cases outcome with
      | none =>
          obtain ⟨_, _, ⟨⟩⟩ := Except.bind_eq_ok.mp hregister
          have hstored := Recycler.store_ok (Except.mapError_eq_ok.mp hstore)
          exact ⟨_, .ioRegisterAny growth idx hstored.vacant, rfl⟩
      | some err =>
          obtain ⟨_, _, ⟨⟩⟩ := Except.bind_eq_ok.mp hregister
          exact ⟨_, .ioRefused growth err, rfl⟩
  | ioMut id left =>
      obtain ⟨lent, hlent, h⟩ := Except.bind_eq_ok.mp h
      obtain ⟨holder, hindex, hlent⟩ := Except.bind_eq_ok.mp hlent
      have hget := Recycler.index_eq_ok.mp (Except.mapError_eq_ok.mp hindex)
      cases hheld : holder.ios.lookup id.idx with
      | none =>
          rw [hheld] at hlent
          cases hlent
          cases h
          refine ⟨_, .noIo _ id ⟨holder, hget, ?_⟩ (.inl ⟨left, rfl⟩), rfl⟩
          exact AList.lookup_eq_none.mp hheld
      | some io =>
          rw [hheld] at hlent
          cases hlent
          cases h
          refine ⟨_, .ioMut id left ?_, rfl⟩
          rintro ⟨holder', hget', hnot⟩
          cases hget.symm.trans hget'
          rw [AList.lookup_eq_none.mpr hnot] at hheld
          cases hheld
  | ioUpdate id outcome =>
      obtain ⟨updated, hupdate, ⟨⟩⟩ := Except.bind_eq_ok.mp h
      obtain ⟨checked, hcheck, hupdate⟩ := Except.bind_eq_ok.mp hupdate
      rcases ioIdx_ok hcheck with ⟨hheld, rfl⟩ | ⟨hnone, rfl⟩
      · refine ⟨mioAnswer outcome, .ioUpdate id outcome hheld, ?_⟩
        cases outcome <;> cases hupdate <;> rfl
      · cases hupdate
        exact ⟨_, .noIo _ id hnone (.inr ⟨outcome, .inl rfl⟩), rfl⟩
  | ioRemove id outcome =>
      obtain ⟨⟨removed, l⟩, hremove, ⟨⟩⟩ := Except.bind_eq_ok.mp h
      obtain ⟨checked, hcheck, hremove⟩ := Except.bind_eq_ok.mp hremove
      rcases ioIdx_ok hcheck with ⟨hheld, rfl⟩ | ⟨hnone, rfl⟩
      · obtain ⟨_, _, hremove⟩ := Except.bind_eq_ok.mp hremove
        obtain ⟨_, _, hremove⟩ := Except.bind_eq_ok.mp hremove
        refine ⟨mioAnswer outcome, .ioRemove id outcome hheld, ?_⟩
        cases outcome <;> cases hremove <;> rfl
      · cases hremove
        exact ⟨_, .noIo _ id hnone (.inr ⟨outcome, .inr rfl⟩), rfl⟩
  | backgroundSubmit =>
      cases h
      exact ⟨_, .backgroundSubmit, rfl⟩
  | child pid =>
      obtain ⟨l, hchild, ⟨⟩⟩ := Except.bind_eq_ok.mp h
      refine ⟨_, .child pid ?_, rfl⟩
      intro hmem
      simp only [Loop.child, signalEnable_sigchld, Except.ok_bind, hmem, ↓reduceIte] at hchild
      cases hchild

/-- An operation that leaves the stack alone has answered at once. -/
theorem atOnce_of_callOp {op : Op Ev} (h : c.callOp op = .ok c') (hstack : c'.stack = c.stack) :
    ∃ answer, AtOnce c.loop c.caller op answer ∧
      c'.log = .answered c.caller op answer :: c.log := by
  cases op with
  | owner op =>
      cases hnone : c.caller with
      | some handle => simp [callOp, hnone] at h
      | none =>
          simp only [callOp, hnone] at h
          replace h := Except.mapError_eq_ok.mp h
          refine ⟨_, .owner rfl op, ?_⟩
          cases op with
          | poolThreadCountSet | signalEnable =>
              obtain ⟨_, _, ⟨⟩⟩ := Except.bind_eq_ok.mp h
              rw [← hnone]
              rfl
  | scope op =>
      cases hsome : c.caller with
      | none => simp [callOp, hsome] at h
      | some handle =>
          simp only [callOp, hsome] at h
          obtain ⟨answer, hanswer, hlog⟩ :=
            scopeAnswers_of_callScope (Except.mapError_eq_ok.mp h)
          exact ⟨answer, .scope handle rfl op answer hanswer, hsome ▸ hlog⟩
  | iface op =>
      replace h := Except.mapError_eq_ok.mp h
      cases op with
      | insertExact event growth =>
          obtain ⟨_, _, ⟨⟩⟩ := Except.bind_eq_ok.mp h
          exact absurd hstack (List.cons_ne_self _ _)
      | runOne | run | runUntilEmpty =>
          cases h
          exact absurd hstack (List.cons_ne_self _ _)
      | runUntilComplete handle =>
          simp only [callIface] at h
          split at h
          · rename_i hdead
            cases h
            exact ⟨_, .completed handle hdead, rfl⟩
          · rename_i halive
            obtain ⟨holder, hindex, h⟩ := Except.bind_eq_ok.mp h
            split at h
            · rename_i hstolen
              cases h
              exact ⟨_, .deadLock handle holder (Bool.not_eq_false _ ▸ halive)
                (Recycler.index_eq_ok.mp (Except.mapError_eq_ok.mp hindex)) hstolen, rfl⟩
            · cases h
              exact absurd hstack (List.cons_ne_self _ _)
      | stop =>
          cases h
          exact ⟨_, .stop, rfl⟩
      | eventAlive handle =>
          cases h
          exact ⟨_, .eventAlive handle, rfl⟩
      | eventCount =>
          obtain ⟨count, hcount, ⟨⟩⟩ := Except.bind_eq_ok.mp h
          exact ⟨_, .eventCount count (Except.mapError_eq_ok.mp hcount), rfl⟩
      | now =>
          cases h
          exact ⟨_, .now, rfl⟩
      | sendImpl handle data tp =>
          obtain ⟨sent, hsent, h⟩ := Except.bind_eq_ok.mp h
          obtain ⟨checked, hcheck, ⟨⟩⟩ := Except.bind_eq_ok.mp hsent
          cases checked with
          | error err =>
              cases h
              exact ⟨_, .notSent handle data tp err (Loop.turnsAway_iff.mpr hcheck), rfl⟩
          | ok =>
              cases h
              refine ⟨_, .sent handle data tp fun err haway => ?_, rfl⟩
              cases (Loop.turnsAway_iff.mp haway).symm.trans hcheck
      | postImpl handle data tp =>
          obtain ⟨checked, hcheck, h⟩ := Except.bind_eq_ok.mp h
          cases checked with
          | error err =>
              cases h
              exact ⟨_, .notPosted handle data tp err (Loop.turnsAway_iff.mpr hcheck), rfl⟩
          | ok =>
              cases h
              exact absurd hstack (List.cons_ne_self _ _)
      | channel handle =>
          cases h
          exact ⟨_, .channel handle, rfl⟩

end Eveboros.Direct
