import RsLxst.Core.Proof.CallState
import RsLxst.Telephony.Runtime

/-!
# What the runtime core does to the active call

For every operation of the core: what happens to the active call, and which terminations its
commands announce (`terminatedBy`). `acceptLinkEvent_step` is the case analysis of a link event.
-/

set_option autoImplicit false

namespace Lxst.Telephony

/-- The links whose termination the commands announce. -/
def terminatedBy (commands : List TelephonyCommand) : List LinkId :=
  commands.filterMap fun
    | .callTerminated linkId _ => some linkId
    | _ => none

theorem terminatedBy_append (commands more : List TelephonyCommand) :
    terminatedBy (commands ++ more) = terminatedBy commands ++ terminatedBy more :=
  List.filterMap_append

/-- A call's own actions announce no termination. -/
theorem terminatedBy_commandsFromActions (linkId : LinkId) (remoteIdentity : Option IdentityHash)
    (actions : Actions) : terminatedBy (commandsFromActions linkId remoteIdentity actions) = [] := by
  induction actions with
  | nil => rfl
  | cons action actions ih =>
    cases action with
    | ringIncomingCall => cases remoteIdentity <;> exact ih
    | _ => exact ih

/-- A call that has received signals. -/
def Received : CallState → CallState → Prop :=
  Relation.ReflTransGen fun call call' => ∃ signal, call' = (call.receiveSignal signal).1

namespace TelephonyRuntimeCore

variable {core core' : TelephonyRuntimeCore}

theorem activeCall_of_idle (h : core.lineBusy = false) : core.activeCall = none := by
  rw [lineBusy, Bool.or_eq_false_iff, Option.isSome_eq_false_iff, Option.isNone_iff_eq_none] at h
  exact h.2

theorem terminatedBy_terminationCommands (active : ActiveCall) (ringTimeout : Bool)
    (reason : Option SignallingStatus) :
    terminatedBy (terminationCommands active ringTimeout reason) = [active.linkId] := by
  rw [terminationCommands, terminatedBy_append, terminatedBy_commandsFromActions]
  rfl

/-! ## Local operations -/

theorem answerActive_cases (core : TelephonyRuntimeCore) (linkId : LinkId) :
    (∃ error, core.answerActive linkId = (.error error, core)) ∨
      ∃ active commands, core.activeCall = some active ∧ active.linkId = linkId ∧
        active.call.role = .incoming ∧ active.call.status = .ringing ∧ terminatedBy commands = [] ∧
        core.answerActive linkId =
          (.ok commands,
            { core with activeCall := some { active with call := active.call.answer.1 } }) := by
  unfold answerActive
  cases hactive : core.activeCall with
  | none => exact .inl ⟨_, rfl⟩
  | some active =>
    dsimp only
    split
    · exact .inl ⟨_, rfl⟩
    split
    · exact .inl ⟨_, rfl⟩
    · rename_i hlink hphase
      rw [not_or, not_not, not_not] at hphase
      exact .inr ⟨active, _, rfl, not_not.mp hlink, hphase.1, hphase.2,
        terminatedBy_commandsFromActions _ _ _, rfl⟩

theorem switchActiveProfile_cases (core : TelephonyRuntimeCore) (profile : Profile) :
    (∃ error, core.switchActiveProfile profile = (.error error, core)) ∨
      ∃ active commands, core.activeCall = some active ∧ active.call.status = .established ∧
        terminatedBy commands = [] ∧
        core.switchActiveProfile profile =
          (.ok commands,
            { core with
              activeCall := some { active with call := (active.call.switchProfile profile).1 } }) := by
  unfold switchActiveProfile
  cases hactive : core.activeCall with
  | none => exact .inl ⟨_, rfl⟩
  | some active =>
    dsimp only
    split
    · exact .inl ⟨_, rfl⟩
    · rename_i hstatus
      exact .inr ⟨active, _, rfl, not_not.mp hstatus, terminatedBy_commandsFromActions _ _ _, rfl⟩

theorem hangupActive_cases (core : TelephonyRuntimeCore) (ringTimeout : Bool) :
    core.activeCall = none ∧ core.hangupActive ringTimeout = (.error .noActiveCall, core) ∨
      ∃ active commands core', core.activeCall = some active ∧ core'.activeCall = none ∧
        terminatedBy commands = [active.linkId] ∧
        core.hangupActive ringTimeout = (.ok commands, core') := by
  unfold hangupActive terminateActive
  cases hactive : core.activeCall with
  | none => exact .inl ⟨rfl, rfl⟩
  | some active =>
    exact .inr ⟨active, _, _, rfl, rfl, terminatedBy_terminationCommands active ringTimeout none,
      rfl⟩

/-- The call waits for the echo of its answer. -/
def Answering (active : ActiveCall) : Prop :=
  active.call.role = .incoming ∧ active.call.answered = true ∧ active.call.status = .connecting

theorem answeredCall_cases (core : TelephonyRuntimeCore) (linkId : LinkId) :
    (∃ error, core.answeredCall linkId = .error error) ∧
        (∀ active, core.activeCall = some active → active.linkId = linkId → ¬ Answering active) ∨
      ∃ active, (core.activeCall = some active ∧ active.linkId = linkId ∧ Answering active) ∧
        core.answeredCall linkId = .ok active := by
  unfold answeredCall
  cases hactive : core.activeCall with
  | none => exact .inl ⟨⟨_, rfl⟩, nofun⟩
  | some active =>
    dsimp only
    split
    · rename_i hlink
      refine .inl ⟨⟨_, rfl⟩, ?_⟩
      rintro _ ⟨⟩ hlink'
      exact absurd hlink' hlink
    rename_i hlink
    split
    · rename_i hphase
      refine .inl ⟨⟨_, rfl⟩, ?_⟩
      rintro _ ⟨⟩ - ⟨hrole, hanswered, hstatus⟩
      simp [hrole, hanswered, hstatus] at hphase
    · rename_i hphase
      simp only [not_or, not_not, Bool.not_eq_true', Bool.not_eq_false] at hphase
      exact .inr ⟨active, ⟨rfl, not_not.mp hlink, hphase⟩, rfl⟩

/-- A retry is refused only to a call that does not wait for the echo. -/
theorem retryAnswerActive_refused {linkId : LinkId}
    (h : ∃ error, core.retryAnswerActive linkId = .error error) (active : ActiveCall)
    (hactive : core.activeCall = some active) (hlink : active.linkId = linkId) :
    ¬ Answering active := by
  obtain ⟨error, h⟩ := h
  rcases answeredCall_cases core linkId with ⟨-, hnot⟩ | ⟨active', -, hok⟩
  · exact hnot active hactive hlink
  · rw [retryAnswerActive, hok] at h
    cases h

/-- A retry only sends signals. -/
theorem mem_retryAnswerActive {linkId : LinkId} {command : TelephonyCommand}
    (h : command ∈ returned (core.retryAnswerActive linkId)) :
    ∃ link signal, command = .sendSignal link signal := by
  unfold retryAnswerActive at h
  rcases answeredCall_cases core linkId with ⟨⟨error, herror⟩, -⟩ | ⟨active, -, hok⟩
  · rw [herror] at h
    cases h
  · rw [hok] at h
    have hmem : command ∈ commandsFromActions active.linkId (some active.remoteIdentity)
      active.call.retryAnswer := h
    unfold CallState.retryAnswer at hmem
    split at hmem
    · cases hmem
    · simp only [commandsFromActions, List.filterMap_cons, List.filterMap_nil, List.mem_cons,
        List.not_mem_nil, or_false] at hmem
      obtain rfl | rfl := hmem
      · exact ⟨_, _, rfl⟩
      · exact ⟨_, _, rfl⟩

/-- A timeout ends the call, or is refused. -/
theorem timeoutAnswerActive_eq (core : TelephonyRuntimeCore) (linkId : LinkId) :
    (∃ error, core.timeoutAnswerActive linkId = (.error error, core)) ∨
      core.timeoutAnswerActive linkId = core.terminateActive false (some .connecting) := by
  unfold timeoutAnswerActive
  rcases answeredCall_cases core linkId with ⟨⟨error, h⟩, -⟩ | ⟨active, -, h⟩
  · rw [h]
    exact .inl ⟨error, rfl⟩
  · rw [h]
    exact .inr rfl

theorem timeoutAnswerActive_cases (core : TelephonyRuntimeCore) (linkId : LinkId) :
    (∃ error, core.timeoutAnswerActive linkId = (.error error, core)) ∧
        (∀ active, core.activeCall = some active → active.linkId = linkId → ¬ Answering active) ∨
      ∃ active commands core',
        (core.activeCall = some active ∧ active.linkId = linkId ∧ Answering active) ∧
        core'.activeCall = none ∧ terminatedBy commands = [active.linkId] ∧
        core.timeoutAnswerActive linkId = (.ok commands, core') := by
  unfold timeoutAnswerActive
  rcases answeredCall_cases core linkId with ⟨⟨error, h⟩, hnot⟩ | ⟨active, hactive, h⟩
  · rw [h]
    exact .inl ⟨⟨error, rfl⟩, hnot⟩
  · rw [h, terminateActive, hactive.1]
    exact .inr ⟨active, _, _, ⟨rfl, hactive.2⟩, rfl,
      terminatedBy_terminationCommands active false _, rfl⟩

theorem terminatedBy_teardowns (linkIds : List LinkId) :
    terminatedBy (linkIds.map .teardownLink) = [] := by
  induction linkIds with
  | nil => rfl
  | cons linkId linkIds ih => exact ih

theorem shutdown_cases (core : TelephonyRuntimeCore) :
    core.shutdown.2.activeCall = none ∧
      terminatedBy core.shutdown.1 = (core.activeCall.map (·.linkId)).toList := by
  unfold shutdown
  cases hactive : core.activeCall with
  | none =>
    refine ⟨hactive, ?_⟩
    exact (terminatedBy_append [] _).trans (terminatedBy_teardowns _)
  | some active =>
    refine ⟨rfl, ?_⟩
    rw [terminatedBy_append, terminatedBy_terminationCommands, terminatedBy_teardowns]
    rfl

/-! ## Link events -/

/-- What the signals of a packet can do to the active call; `commands` are those of the packet,
unless it fails. -/
inductive SignalStep (core : TelephonyRuntimeCore) :
    Option (List TelephonyCommand) → TelephonyRuntimeCore → Prop
  | kept {commands : Option (List TelephonyCommand)} {core' : TelephonyRuntimeCore}
      (h : core'.activeCall = core.activeCall) (hq : ∀ c ∈ commands, terminatedBy c = []) :
      SignalStep core commands core'
  | signalled {commands : Option (List TelephonyCommand)} {core' : TelephonyRuntimeCore}
      {active : ActiveCall} {call : CallState} (h : core.activeCall = some active)
      (h' : core'.activeCall = some { active with call }) (hr : Received active.call call)
      (hq : ∀ c ∈ commands, terminatedBy c = []) : SignalStep core commands core'
  | ended {commands : Option (List TelephonyCommand)} {core' : TelephonyRuntimeCore}
      {active : ActiveCall} (h : core.activeCall = some active) (h' : core'.activeCall = none)
      (hq : ∀ c ∈ commands, terminatedBy c = [active.linkId]) : SignalStep core commands core'

theorem receiveSignal_step (core : TelephonyRuntimeCore) (linkId : LinkId) (signal : Signal) :
    SignalStep core (core.receiveSignal linkId signal).1.toOption
      (core.receiveSignal linkId signal).2 := by
  unfold receiveSignal
  cases hactive : core.activeCall with
  | none => exact .kept rfl nofun
  | some active =>
    dsimp only
    split
    · exact .kept rfl nofun
    rename_i hlink
    rw [not_not] at hlink
    have hquiet := terminatedBy_commandsFromActions linkId (some active.remoteIdentity)
      (active.call.receiveSignal signal).2
    split
    · refine .ended hactive rfl ?_
      rintro _ ⟨⟩
      rw [terminatedBy_append, hquiet, hlink]
      rfl
    · refine .signalled hactive rfl (.single ⟨signal, rfl⟩) ?_
      rintro _ ⟨⟩
      exact hquiet

/-- A step depends on the core's active call only. -/
theorem SignalStep.of_activeCall {core₁ : TelephonyRuntimeCore}
    {commands : Option (List TelephonyCommand)} (hs : SignalStep core₁ commands core')
    (h : core₁.activeCall = core.activeCall) : SignalStep core commands core' := by
  cases hs with
  | kept h' hq => exact .kept (h'.trans h) hq
  | signalled h' h'' hr hq => exact .signalled (h.symm.trans h') h'' hr hq
  | ended h' h'' hq => exact .ended (h.symm.trans h') h'' hq

/-- The commands of two parts of a packet, if neither fails. -/
def joined (commands more : Option (List TelephonyCommand)) : Option (List TelephonyCommand) :=
  commands.bind fun commands => more.map (commands ++ ·)

theorem terminatedBy_joined {commands more : Option (List TelephonyCommand)} {a b : List LinkId}
    (h : ∀ c ∈ commands, terminatedBy c = a) (h' : ∀ c ∈ more, terminatedBy c = b) :
    ∀ c ∈ joined commands more, terminatedBy c = a ++ b := by
  cases commands with
  | none => nofun
  | some commands =>
    cases more with
    | none => nofun
    | some more =>
      rintro _ ⟨⟩
      rw [terminatedBy_append, h commands rfl, h' more rfl]

theorem SignalStep.trans {core'' : TelephonyRuntimeCore}
    {commands more : Option (List TelephonyCommand)} (h : SignalStep core commands core')
    (h' : SignalStep core' more core'') : SignalStep core (joined commands more) core'' := by
  cases h with
  | kept h hq =>
    cases h' with
    | kept h' hq' => exact .kept (h'.trans h) (terminatedBy_joined hq hq')
    | signalled h₁ h₁' hr hq' =>
      exact .signalled (h.symm.trans h₁) h₁' hr (terminatedBy_joined hq hq')
    | ended h₁ h₁' hq' => exact .ended (h.symm.trans h₁) h₁' (terminatedBy_joined hq hq')
  | signalled h h₁ hr hq =>
    cases h' with
    | kept h' hq' => exact .signalled h (h'.trans h₁) hr (terminatedBy_joined hq hq')
    | signalled h₂ h₂' hr' hq' =>
      cases h₁.symm.trans h₂
      exact .signalled h h₂' (hr.trans hr') (terminatedBy_joined hq hq')
    | ended h₂ h₂' hq' =>
      cases h₁.symm.trans h₂
      exact .ended h h₂' (terminatedBy_joined hq hq')
  | ended h h₁ hq =>
    cases h' with
    | kept h' hq' =>
      have hjoined := terminatedBy_joined hq hq'
      rw [List.append_nil] at hjoined
      exact .ended h (h'.trans h₁) hjoined
    | signalled h₂ => cases h₁.symm.trans h₂
    | ended h₂ => cases h₁.symm.trans h₂

theorem receiveSignals_step (core : TelephonyRuntimeCore) (linkId : LinkId)
    (signals : List Signal) :
    SignalStep core (core.receiveSignals linkId signals).1.toOption
      (core.receiveSignals linkId signals).2 := by
  induction signals generalizing core with
  | nil => exact .kept rfl (by rintro _ ⟨⟩; rfl)
  | cons signal signals ih =>
    have hhead := receiveSignal_step core linkId signal
    unfold receiveSignals
    generalize core.receiveSignal linkId signal = head at hhead ⊢
    rcases head with ⟨error | commands, core₁⟩
    · exact hhead
    have htail := hhead.trans (ih core₁)
    dsimp only
    generalize core₁.receiveSignals linkId signals = tail at htail ⊢
    rcases tail with ⟨error | rest, core₂⟩
    · exact htail
    · exact htail

/-- What a link event can do to the active call. -/
inductive CallStep (core : TelephonyRuntimeCore) (event : TelephonyLinkEvent) :
    Option (List TelephonyCommand) → TelephonyRuntimeCore → Prop
  | signals {commands : Option (List TelephonyCommand)} {core' : TelephonyRuntimeCore}
      (h : SignalStep core commands core') : CallStep core event commands core'
  | admitted {commands : Option (List TelephonyCommand)} {core' : TelephonyRuntimeCore}
      {linkId : LinkId} {remoteIdentity : IdentityHash}
      (he : event = .remoteIdentified linkId remoteIdentity)
      (hknown : linkId ∈ core.pendingLinks ∨ (core.ingress.lookup linkId).isSome)
      (hidle : core.lineBusy = false) (hallowed : core.access.isAllowed remoteIdentity = true)
      (h' : core'.activeCall = some
        { linkId, remoteIdentity, call := { CallState.incoming with status := .ringing } })
      (hq : ∀ c ∈ commands, terminatedBy c = []) : CallStep core event commands core'

/-- A step whose commands are not known. -/
theorem CallStep.of_failed {event : TelephonyLinkEvent} {commands : Option (List TelephonyCommand)}
    (h : CallStep core event commands core') : CallStep core event none core' := by
  cases h with
  | signals h =>
    cases h with
    | kept h => exact .signals (.kept h nofun)
    | signalled h h' hr => exact .signals (.signalled h h' hr nofun)
    | ended h h' => exact .signals (.ended h h' nofun)
  | admitted he hknown hidle hallowed h' => exact .admitted he hknown hidle hallowed h' nofun

theorem ensureIngress_activeCall (core : TelephonyRuntimeCore) (linkId : LinkId) :
    (core.ensureIngress linkId).activeCall = core.activeCall := by
  unfold ensureIngress
  split <;> rfl

/-- Commands that come from the actions of a call. -/
theorem quiet_of_actions (linkId : LinkId) (remoteIdentity : Option IdentityHash)
    (actions : Actions) :
    ∀ c ∈ some (commandsFromActions linkId remoteIdentity actions), terminatedBy c = [] := by
  rintro _ ⟨⟩
  exact terminatedBy_commandsFromActions linkId remoteIdentity actions

theorem quiet_nil : ∀ c ∈ some ([] : List TelephonyCommand), terminatedBy c = [] := by
  rintro _ ⟨⟩
  rfl

theorem incomingLinkEstablished_step (core : TelephonyRuntimeCore) (linkId : LinkId) :
    SignalStep core (some (core.incomingLinkEstablished linkId).1)
      (core.incomingLinkEstablished linkId).2 := by
  refine .kept ?_ (quiet_of_actions _ _ _)
  unfold incomingLinkEstablished
  dsimp only
  split
  · exact ensureIngress_activeCall _ linkId
  · rfl

theorem outgoingLinkEstablished_step (core : TelephonyRuntimeCore) (linkId : LinkId) :
    SignalStep core ((core.outgoingLinkEstablished linkId).1.toOption.map fun _ => [])
      (core.outgoingLinkEstablished linkId).2 := by
  unfold outgoingLinkEstablished
  split
  · exact .kept rfl nofun
  split
  · exact .kept rfl nofun
  · exact .kept (ensureIngress_activeCall core linkId) quiet_nil

theorem linkClosed_cases (core : TelephonyRuntimeCore) (linkId : LinkId) :
    (∃ active, core.activeCall = some active ∧ active.linkId = linkId ∧
        core.linkClosed linkId = ([.stopAudioPipelines linkId, .callTerminated linkId none],
          { core.forgetLink linkId with activeCall := none })) ∨
      (∀ active, core.activeCall = some active → active.linkId ≠ linkId) ∧
        core.linkClosed linkId = ([], core.forgetLink linkId) := by
  unfold linkClosed
  dsimp only
  split
  · rename_i hlink
    obtain ⟨active, hactive, heq⟩ : ∃ active, core.activeCall = some active ∧
        active.linkId = linkId := by simpa [forgetLink, Option.any_eq_true] using hlink
    exact .inl ⟨active, hactive, heq, rfl⟩
  · rename_i hlink
    refine .inr ⟨fun active hactive heq => hlink ?_, rfl⟩
    simp [forgetLink, hactive, heq]

theorem linkClosed_step (core : TelephonyRuntimeCore) (linkId : LinkId) :
    SignalStep core (some (core.linkClosed linkId).1) (core.linkClosed linkId).2 := by
  obtain ⟨active, hactive, rfl, hclosed⟩ | ⟨-, hclosed⟩ := linkClosed_cases core linkId
  · rw [hclosed]
    refine .ended hactive rfl ?_
    rintro _ ⟨⟩
    rfl
  · rw [hclosed]
    exact .kept rfl quiet_nil

theorem acceptLxstPlaintext_step (readValue : List UInt8 → Except String MsgPack.Value)
    (core : TelephonyRuntimeCore) (linkId : LinkId) (payload : List UInt8) :
    SignalStep core
      ((core.acceptLxstPlaintext readValue linkId payload).1.toOption.map (·.commands))
      (core.acceptLxstPlaintext readValue linkId payload).2 := by
  unfold acceptLxstPlaintext
  split
  · exact .kept rfl nofun
  split
  · exact .kept rfl nofun
  rename_i ingress _ inbound ingress' _
  dsimp only
  -- the packet's ingress is not part of the call
  have hsignals : SignalStep core _ _ :=
    (receiveSignals_step { core with ingress := core.ingress.insert linkId ingress' } linkId
      inbound.packet.signals).of_activeCall rfl
  generalize receiveSignals _ linkId inbound.packet.signals = result at hsignals ⊢
  rcases result with ⟨error | commands, core'⟩
  · exact hsignals
  · exact hsignals

theorem callerIdentified_step (core : TelephonyRuntimeCore) (linkId : LinkId)
    (remoteIdentity : IdentityHash) :
    CallStep core (.remoteIdentified linkId remoteIdentity)
      (core.callerIdentified linkId remoteIdentity).1.toOption
      (core.callerIdentified linkId remoteIdentity).2 := by
  unfold callerIdentified
  split
  · exact .signals (.kept rfl nofun)
  rename_i hunknown
  have hknown : linkId ∈ core.pendingLinks ∨ (core.ingress.lookup linkId).isSome = true := by
    simpa [or_iff_not_imp_left, Option.isSome_iff_ne_none] using hunknown
  dsimp only
  split
  · exact .signals (.kept rfl (quiet_of_actions _ _ _))
  · rename_i hadmitted
    rw [Bool.not_eq_true, Bool.or_eq_false_iff, Bool.not_eq_false'] at hadmitted
    refine .admitted rfl hknown hadmitted.1 hadmitted.2 ?_ (quiet_of_actions _ _ _)
    rw [hadmitted.1, hadmitted.2]
    rfl

theorem acceptLinkEvent_step (readValue : List UInt8 → Except String MsgPack.Value)
    (core : TelephonyRuntimeCore) (event : TelephonyLinkEvent) :
    CallStep core event ((core.acceptLinkEvent readValue event).1.toOption.map (·.commands))
      (core.acceptLinkEvent readValue event).2 := by
  have hstep (result : Except Error (List TelephonyCommand) × TelephonyRuntimeCore) :
      (asStep result).1.toOption.map (·.commands) = result.1.toOption := by
    rcases result with ⟨error | commands, core'⟩ <;> rfl
  have houtgoing (linkId : LinkId) :
      (asStep ((core.outgoingLinkEstablished linkId).1.map fun _ => [],
        (core.outgoingLinkEstablished linkId).2)).1.toOption.map (·.commands) =
          (core.outgoingLinkEstablished linkId).1.toOption.map fun _ => [] := by
    rw [hstep]
    cases (core.outgoingLinkEstablished linkId).1 <;> rfl
  cases event with
  | linkEstablished linkId =>
    dsimp only [acceptLinkEvent]
    split
    · rw [houtgoing]
      exact .signals (outgoingLinkEstablished_step core linkId)
    · exact .signals (incomingLinkEstablished_step core linkId)
  | incomingLinkEstablished linkId => exact .signals (incomingLinkEstablished_step core linkId)
  | outgoingLinkEstablished linkId =>
    dsimp only [acceptLinkEvent]
    rw [houtgoing]
    exact .signals (outgoingLinkEstablished_step core linkId)
  | remoteIdentified linkId remoteIdentity =>
    dsimp only [acceptLinkEvent]
    rw [hstep]
    exact callerIdentified_step core linkId remoteIdentity
  | linkPacket linkId plaintext =>
    exact .signals (acceptLxstPlaintext_step readValue core linkId plaintext)
  | linkClosed linkId => exact .signals (linkClosed_step core linkId)

end TelephonyRuntimeCore

end Lxst.Telephony
