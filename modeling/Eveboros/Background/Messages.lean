import Eveboros.Machine.Sound

/-!
# What is in the box

A message has its value in a `Box<Any>` and names a type besides.  Every place that builds a
message chooses the two for itself, and `Message::get` chooses by the mode what to look for.
-/

namespace Eveboros

variable {Ev : Type} {tp : TypeId}

abbrev Typed (tp : TypeId) := { value : AnyBox // value.typeId = tp }

def AnyBox.downcast (data : AnyBox) (tp : TypeId) : Option (Typed tp) :=
  if h : data.typeId = tp then some ⟨data, h⟩ else none

theorem AnyBox.isSome_downcast (data : AnyBox) (tp : TypeId) :
    (data.downcast tp).isSome = true ↔ data.typeId = tp := by
  unfold downcast
  split <;> simp_all

theorem Typed.downcast (value : Typed tp) : value.val.downcast tp = some value := by
  simp [AnyBox.downcast, value.property]

def Typed.ofResult : Except Error (Typed tp) → Typed (.result tp)
  | .ok value => ⟨.ok value.val, congrArg TypeId.result value.property⟩
  | .error err => ⟨.err tp err, rfl⟩

@[simp] theorem Typed.ofResult_ok (value : Typed tp) :
    (Typed.ofResult (.ok value)).val = .ok value.val := rfl

@[simp] theorem Typed.ofResult_error (err : Error) :
    (Typed.ofResult (.error err : Except Error (Typed tp))).val = .err tp err := rfl

def Typed.toResult : Typed (.result tp) → Except Error (Typed tp)
  | ⟨.ok value, h⟩ => .ok ⟨value, TypeId.result.inj h⟩
  | ⟨.err _ err, _⟩ => .error err

@[simp] theorem Typed.toResult_ofResult (result : Except Error (Typed tp)) :
    (Typed.ofResult result).toResult = result := by
  cases result <;> rfl

namespace Message

/-- The type that `get` expects in the box: what comes from the background is a result already. -/
def boxed (m : Message) (tp : TypeId) : TypeId :=
  match m.mode with
  | .background _ => .result tp
  | _ => tp

def get (m : Message) (tp : TypeId) : Except Error (Typed tp) :=
  match m.mode with
  | .background _ =>
      match m.data.downcast (.result tp) with
      | some proto => proto.toResult
      | none => .error .msgType
  | _ =>
      match m.data.downcast tp with
      | some value => .ok value
      | none => .error .msgType

/-- The downcast in `get` succeeds. -/
def Downcasts (m : Message) (tp : TypeId) : Prop := (m.data.downcast (m.boxed tp)).isSome = true

instance (m : Message) (tp : TypeId) : Decidable (m.Downcasts tp) :=
  inferInstanceAs (Decidable (_ = true))

theorem downcasts_iff (m : Message) (tp : TypeId) : m.Downcasts tp ↔ m.data.typeId = m.boxed tp :=
  m.data.isSome_downcast (m.boxed tp)

/-- Where it fails, `get` reports it. -/
theorem get_of_not_downcasts {m : Message} (h : ¬m.Downcasts tp) : m.get tp = .error .msgType := by
  rw [downcasts_iff] at h
  cases hmode : m.mode with
  | background id =>
      simp only [boxed, hmode] at h
      simp [get, hmode, AnyBox.downcast, h]
  | _ =>
      simp only [boxed, hmode] at h
      simp [get, hmode, AnyBox.downcast, h]

end Message

/-! ## The places that build messages -/

structure Channel where
  handle : Handle

def Channel.send (channel : Channel) (data : Typed tp) : RemoteMessage where
  recipient := channel.handle
  data := data.val
  realType := tp
  mode := .remote

def backgroundResult (requestor : Handle) (id : BackgroundId) (result : Except Error (Typed tp)) :
    RemoteMessage where
  recipient := requestor
  data := (Typed.ofResult result).val
  realType := tp
  mode := .background id

/-- The local closure `send` of `background_iter`. -/
def iterSend (requestor : Handle) (id : BackgroundId) (value : Except Error (Typed tp)) :
    RemoteMessage where
  recipient := requestor
  data := (Typed.ofResult value).val
  realType := tp
  mode := .background id

@[simp] theorem iterSend_data (requestor : Handle) (id : BackgroundId)
    (value : Except Error (Typed tp)) :
    (iterSend requestor id value).data = (Typed.ofResult value).val := rfl

structure BackgroundWrapper (final : TypeId) where
  requestor : Handle
  id : BackgroundId
  complete : Bool

namespace BackgroundWrapper

variable {final : TypeId}

/-- The message about a panic.  The type it names is that of the box, not that of the payload. -/
def panicked (wrapper : BackgroundWrapper final) : RemoteMessage where
  recipient := wrapper.requestor
  data := (Typed.ofResult (.error .backgroundPanicked : Except Error (Typed final))).val
  realType := .result final
  mode := .background wrapper.id

def drop (wrapper : BackgroundWrapper final) : Option RemoteMessage :=
  if wrapper.complete then none else some wrapper.panicked

end BackgroundWrapper

def RemoteMessage.message (m : RemoteMessage) : Message := ⟨m.data, m.realType, m.mode⟩

/-- The typed ways to build a message for payloads of type `tp`, with what the sender supplies. -/
inductive Sending (tp : TypeId)
  | send (sender : Option Handle) (data : Typed tp)
  | post (sender : Option Handle) (data : Typed tp)
  | channelSend (channel : Channel) (data : Typed tp)
  | background (requestor : Handle) (id : BackgroundId) (result : Except Error (Typed tp))
  | backgroundPanic (requestor : Handle) (id : BackgroundId)
  | iterItem (requestor : Handle) (id : BackgroundId) (item : Typed tp)
  | iterEnd (requestor : Handle) (id : BackgroundId)
  | iterError (requestor : Handle) (id : BackgroundId) (err : Error)

namespace Sending

def message : Sending tp → Message
  | send sender data => ⟨data.val, tp, .send sender⟩
  | post sender data => ⟨data.val, tp, .post sender⟩
  | channelSend channel data => (channel.send data).message
  | background requestor id result => (backgroundResult requestor id result).message
  | backgroundPanic requestor id =>
      (⟨requestor, id, false⟩ : BackgroundWrapper tp).panicked.message
  | iterItem requestor id item => (iterSend requestor id (.ok item)).message
  | iterEnd requestor id =>
      (iterSend requestor id (.error .iterEnd : Except Error (Typed tp))).message
  | iterError requestor id err =>
      (iterSend requestor id (.error err : Except Error (Typed tp))).message

/-- What the recipient is meant to get. -/
def supplied : Sending tp → Except Error (Typed tp)
  | send _ data => .ok data
  | post _ data => .ok data
  | channelSend _ data => .ok data
  | background _ _ result => result
  | backgroundPanic _ _ => .error .backgroundPanicked
  | iterItem _ _ item => .ok item
  | iterEnd _ _ => .error .iterEnd
  | iterError _ _ err => .error err

def IsPanic : Sending tp → Prop
  | backgroundPanic _ _ => True
  | _ => False

end Sending

/-! ## What the loop does with them -/

/-- A message that `send` accepts is scheduled as it was built. -/
theorem sendImplSender_builds {l l' : Loop Ev} {sender : Option Handle} {handle : Handle}
    {data : Typed tp} (h : l.sendImplSender sender handle data.val tp = .ok (.ok l')) :
    l'.scheduled = l.scheduled ++ [⟨handle, .message (Sending.send sender data).message⟩] := by
  obtain ⟨checked, _, h⟩ := Except.bind_eq_ok.mp h
  cases checked with
  | error err => cases h
  | ok _ =>
      cases h
      rfl

/-- A message that `post` accepts is passed as it was built. -/
theorem postImpl_builds {c c' : Config Ev} {handle : Handle} {data : Typed tp}
    (h : c.step (.call (.iface (.postImpl handle data.val tp))) = .ok c') :
    c'.ctl = .user ∨ c'.ctl = .call handle (.message (Sending.post c.caller data).message) := by
  have e := Config.step_edit h nofun
  cases e with
  | refusal op err ha hctl hr => exact .inl hctl
  | query op v ha hctl hq =>
      cases ha
      exact hq.elim
  | posted handle' data' tp' holder ha hctl =>
      cases ha
      exact .inr rfl
  | _ => simp_all [Action.IsGather, Action.IsSettle]

/-- What comes off the channel is scheduled as it was sent, or not at all. -/
theorem gatherMessage_builds {l l' : Loop Ev} {m : RemoteMessage}
    (h : l.gatherMessage m = .ok l') : l'.scheduled = l.scheduled ∨
      l'.scheduled = l.scheduled ++ [⟨m.recipient, .message m.message⟩] := by
  unfold Loop.gatherMessage at h
  split at h
  all_goals
    obtain ⟨passed, _, h⟩ := Except.bind_eq_ok.mp h
    cases passed with
    | error err =>
        cases h
        exact .inl rfl
    | ok _ =>
        cases h
        exact .inr rfl

/-! ## The named type and the box -/

/-- `get` finds the payload under the type that the message names and under no other, and returns
what was supplied. -/
structure Message.Agrees (m : Message) (supplied : Except Error (Typed tp)) : Prop where
  named (T : TypeId) : m.Downcasts T ↔ T = m.realType
  extracted (T : TypeId) : T = m.realType →
    (m.get T).map Subtype.val = supplied.map Subtype.val

/-- A payload in its own box. -/
theorem agrees_direct {m : Message} {data : Typed tp} (hdata : m.data = data.val)
    (htype : m.realType = tp) (hmode : ∀ id, m.mode ≠ .background id) :
    m.Agrees (.ok data) where
  named T := by
    have hboxed : m.boxed T = T := by
      unfold Message.boxed
      split
      · exact absurd ‹_› (hmode _)
      · rfl
    rw [Message.downcasts_iff, hboxed, hdata, data.property, htype, eq_comm]
  extracted T hT := by
    obtain rfl := hT.trans htype
    unfold Message.get
    split
    · exact absurd ‹_› (hmode _)
    · rw [hdata, data.downcast]

/-- A result in the box of a job. -/
theorem get_result {m : Message} {result : Except Error (Typed tp)} {id : BackgroundId}
    (hdata : m.data = (Typed.ofResult result).val) (hmode : m.mode = .background id) :
    m.get tp = result := by
  unfold Message.get
  rw [hmode, hdata]
  simp only [Typed.downcast, Typed.toResult_ofResult]

theorem downcasts_result {m : Message} {result : Except Error (Typed tp)} {id : BackgroundId}
    (hdata : m.data = (Typed.ofResult result).val) (hmode : m.mode = .background id) (T : TypeId) :
    m.Downcasts T ↔ T = tp := by
  have hboxed : m.boxed T = .result T := by rw [Message.boxed, hmode]
  rw [Message.downcasts_iff, hboxed, hdata, (Typed.ofResult result).property,
    TypeId.result.injEq, eq_comm]

theorem agrees_result {m : Message} {result : Except Error (Typed tp)} {id : BackgroundId}
    (hdata : m.data = (Typed.ofResult result).val) (htype : m.realType = tp)
    (hmode : m.mode = .background id) : m.Agrees result where
  named T := by rw [downcasts_result hdata hmode, htype]
  extracted T hT := by
    obtain rfl := hT.trans htype
    rw [get_result hdata hmode]

/-- No type is a type of results of itself. -/
theorem TypeId.result_ne (tp : TypeId) : TypeId.result tp ≠ tp := by
  induction tp with
  | atom name => exact nofun
  | result payload ih => exact fun heq => ih (TypeId.result.inj heq)

/-- Every message agrees with the type that it names, but for the one about a panic. -/
theorem message_type_agrees_iff_no_panic (s : Sending tp) :
    s.message.Agrees s.supplied ↔ ¬s.IsPanic := by
  cases s with
  | backgroundPanic requestor id =>
      refine iff_of_false (fun hagrees => ?_) (not_not_intro trivial)
      have hfound : (Sending.backgroundPanic requestor id : Sending tp).message.Downcasts tp :=
        (downcasts_result rfl rfl tp).mpr rfl
      exact TypeId.result_ne tp ((hagrees.named tp).mp hfound).symm
  | send | post | channelSend =>
      exact iff_of_true (agrees_direct rfl rfl nofun) id
  | background | iterItem | iterEnd | iterError =>
      exact iff_of_true (agrees_result rfl rfl rfl) id

/-- The message about the panic of a job that was to return a value of type 0: `get` finds the
error under this type, and the message names another. -/
theorem panic_message_misnames_type :
    let s : Sending (.atom 0) := .backgroundPanic ⟨0, 0⟩ ⟨0⟩
    s.message.Downcasts (.atom 0) ∧ s.message.get (.atom 0) = .error .backgroundPanicked ∧
      s.message.realType = .result (.atom 0) ∧ ¬s.message.Downcasts s.message.realType ∧
      ¬s.message.Agrees s.supplied := by
  refine ⟨by decide, by decide, rfl, by decide, fun hagrees => ?_⟩
  exact absurd ((hagrees.named (.atom 0)).mp (by decide)) (by decide)

end Eveboros
