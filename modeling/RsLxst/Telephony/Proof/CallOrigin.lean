import RsLxst.Telephony.Proof.Tracking

/-!
# Where a call comes from

A call becomes active on a free line only: started by the host, or for a pending link whose remote
the access policy allows (`Starts`); and it stays the same call, on the same link with the same
remote, until it ends (`step_call`). The pipelines of a link are opened or started for the active
call's link only, and for an incoming call only once it is answered (`step_audio`). So over a whole
run no audio is opened for a remote that was not let in, allowed and answered
(`audio_only_for_answered_calls`).
-/

set_option autoImplicit false

namespace Lxst

/-- The actions that open or start the audio pipelines. -/
def TelephonyAction.isAudio : TelephonyAction → Bool
  | .openAudioPipelines | .startAudioPipelines => true
  | _ => false

/-- An unanswered incoming call starts no audio, whatever signal it receives. -/
theorem CallState.receiveSignal_audio {c : CallState} {s : Signal} {action : TelephonyAction}
    (h : action ∈ (c.receiveSignal s).2) (ha : action.isAudio = true) : c.Listens := by
  obtain hlistens | ⟨hr, hun⟩ := Listens.or_unanswered c
  · exact hlistens
  · cases s with
    | status st =>
      rw [receiveSignal_unanswered hr hun, List.mem_singleton] at h
      subst h
      cases ha
    | preferredProfile p =>
      rw [receiveSignal_preferredProfile] at h
      split at h
      · cases h
      · dsimp only at h
        split at h
        all_goals
          rw [List.mem_singleton] at h
          subst h
          cases ha
    | raw v =>
      rw [receiveSignal_raw, List.mem_singleton] at h
      subst h
      cases ha

namespace Telephony

/-- Two stages of one call. -/
structure ActiveCall.SameCall (active first : ActiveCall) : Prop where
  linkId : active.linkId = first.linkId
  remoteIdentity : active.remoteIdentity = first.remoteIdentity
  role : active.call.role = first.call.role

theorem ActiveCall.SameCall.refl (active : ActiveCall) : active.SameCall active := ⟨rfl, rfl, rfl⟩

theorem ActiveCall.SameCall.trans {a b c : ActiveCall} (h : a.SameCall b) (h' : b.SameCall c) :
    a.SameCall c :=
  ⟨h.linkId.trans h'.linkId, h.remoteIdentity.trans h'.remoteIdentity, h.role.trans h'.role⟩

theorem Received.same {call call' : CallState} (h : Received call call') :
    call'.role = call.role ∧ call'.answered = call.answered := by
  induction h with
  | refl => exact ⟨rfl, rfl⟩
  | tail _ hstep ih =>
    obtain ⟨signal, rfl⟩ := hstep
    simpa using ih

/-- The commands that open or start the audio pipelines. -/
def TelephonyCommand.isAudio : TelephonyCommand → Bool
  | .openAudioPipelines _ | .startAudioPipelines _ => true
  | _ => false

namespace TelephonyRuntimeCore

variable {core : TelephonyRuntimeCore}

/-- The operations that make a call the active one. -/
inductive Starts (core : TelephonyRuntimeCore) : Op → ActiveCall → Prop
  | dialled {linkId : LinkId} {remoteIdentity : IdentityHash} {profile : Option Profile}
      (hidle : core.lineBusy = false) :
      Starts core (.startOutgoingCall linkId remoteIdentity profile)
        { linkId, remoteIdentity, call := .outgoing profile }
  | admitted {linkId : LinkId} {remoteIdentity : IdentityHash} (hidle : core.lineBusy = false)
      (hpending : linkId ∈ core.pendingLinks)
      (hallowed : core.access.isAllowed remoteIdentity = true) :
      Starts core (.acceptLinkEvent (.remoteIdentified linkId remoteIdentity))
        { linkId, remoteIdentity, call := { CallState.incoming with status := .ringing } }

/-- What an operation does to the active call. -/
inductive CallAfter (core : TelephonyRuntimeCore) (op : Op) : Option ActiveCall → Prop
  | gone : CallAfter core op none
  | started {first : ActiveCall} (h : Starts core op first) : CallAfter core op (some first)
  | same {active active' : ActiveCall} (h : core.activeCall = some active)
      (hs : active'.SameCall active)
      (ha : active'.call.answered = true →
        active.call.answered = true ∨ op = .answerActive active.linkId) :
      CallAfter core op (some active')

theorem CallAfter.kept {op : Op} : CallAfter core op core.activeCall := by
  cases h : core.activeCall with
  | none => exact .gone
  | some active => exact .same h (.refl active) .inl

variable (readValue : List UInt8 → Except String MsgPack.Value)

theorem step_call (hc : Covered core) (op : Op) :
    CallAfter core op (core.step readValue op).1.activeCall := by
  cases op with
  | acceptLinkEvent event =>
    show CallAfter core _ (core.acceptLinkEvent readValue event).2.activeCall
    cases acceptLinkEvent_step readValue core event with
    | signals h =>
      cases h with
      | kept h =>
        rw [h]
        exact .kept
      | signalled h h' hr =>
        rw [h']
        obtain ⟨hrole, hanswered⟩ := hr.same
        exact .same h ⟨rfl, rfl, hrole⟩ fun ha => .inl (hanswered ▸ ha)
      | ended h h' =>
        rw [h']
        exact .gone
    | admitted he hknown hidle hallowed h' =>
      subst he
      rw [h']
      refine .started (.admitted hidle ?_ hallowed)
      obtain hp | hi := hknown
      · exact hp
      · refine (hc _ (AList.lookup_isSome.mp hi)).resolve_right ?_
        rintro ⟨active, hactive, -⟩
        rw [activeCall_of_idle hidle] at hactive
        cases hactive
  | startOutgoingCall linkId remoteIdentity profile =>
    simp only [step, startOutgoingCall]
    split
    · exact .kept
    · rename_i hidle
      exact .started (.dialled (by simpa using hidle))
  | answerActive linkId =>
    simp only [step]
    obtain ⟨error, he⟩ | ⟨active, commands, hactive, rfl, hrole, hstatus, -, he⟩ :=
      answerActive_cases core linkId
    · rw [he]
      exact .kept
    · rw [he]
      refine .same hactive ⟨rfl, rfl, ?_⟩ fun _ => .inr rfl
      rw [CallState.answer_ringing hrole hstatus]
  | retryAnswerActive linkId => exact .kept
  | timeoutAnswerActive linkId =>
    simp only [step]
    obtain ⟨⟨error, he⟩, -⟩ | ⟨active, commands, core', -, hnone, -, he⟩ :=
      timeoutAnswerActive_cases core linkId
    · rw [he]
      exact .kept
    · rw [he]
      exact hnone ▸ .gone
  | switchActiveProfile profile =>
    simp only [step]
    obtain ⟨error, he⟩ | ⟨active, commands, hactive, -, -, he⟩ :=
      switchActiveProfile_cases core profile
    · rw [he]
      exact .kept
    · rw [he]
      refine .same hactive ⟨rfl, rfl, by simp⟩ fun ha => .inl ?_
      simpa using ha
  | hangupActive ringTimeout =>
    simp only [step]
    obtain ⟨-, he⟩ | ⟨active, commands, core', -, hnone, -, he⟩ :=
      hangupActive_cases core ringTimeout
    · rw [he]
      exact .kept
    · rw [he, hnone]
      exact .gone
  | shutdown =>
    show CallAfter core _ core.shutdown.2.activeCall
    rw [(shutdown_cases core).1]
    exact .gone
  | setExternalBusy busy => exact .kept
  | setAccessPolicy access => exact .kept

/-! ## Audio -/

/-- A call's audio commands come from its audio actions. -/
theorem audio_mem_commandsFromActions {linkId : LinkId} {remoteIdentity : Option IdentityHash}
    {actions : Actions} {command : TelephonyCommand}
    (h : command ∈ commandsFromActions linkId remoteIdentity actions)
    (ha : command.isAudio = true) :
    command.linkId = linkId ∧ ∃ action ∈ actions, action.isAudio = true := by
  unfold commandsFromActions at h
  rw [List.mem_filterMap] at h
  obtain ⟨action, hmem, he⟩ := h
  cases action with
  | ringIncomingCall =>
    obtain ⟨_, -, rfl⟩ := Option.map_eq_some_iff.mp he
    cases ha
  | openAudioPipelines =>
    cases he
    exact ⟨rfl, _, hmem, rfl⟩
  | startAudioPipelines =>
    cases he
    exact ⟨rfl, _, hmem, rfl⟩
  | terminate => cases he
  | _ =>
    cases he
    cases ha

/-- An audio command is for the link of the active call, which takes its peer's signals. -/
def ForCall (core : TelephonyRuntimeCore) (command : TelephonyCommand) : Prop :=
  ∃ active, core.activeCall = some active ∧ active.linkId = command.linkId ∧ active.call.Listens

theorem receiveSignal_audio {linkId : LinkId} {signal : Signal} {commands : List TelephonyCommand}
    {core' : TelephonyRuntimeCore} (h : core.receiveSignal linkId signal = (.ok commands, core'))
    {command : TelephonyCommand} (hmem : command ∈ commands) (ha : command.isAudio = true) :
    ForCall core command := by
  unfold receiveSignal at h
  cases hactive : core.activeCall with
  | none =>
    rw [hactive] at h
    cases h
  | some active =>
    rw [hactive] at h
    dsimp only at h
    split at h
    · cases h
    rename_i hlink
    have hown (hc : command ∈ commandsFromActions linkId (some active.remoteIdentity)
        (active.call.receiveSignal signal).2) : ForCall core command := by
      obtain ⟨hid, action, haction, haudio⟩ := audio_mem_commandsFromActions hc ha
      exact ⟨active, hactive, (not_not.mp hlink).trans hid.symm,
        CallState.receiveSignal_audio haction haudio⟩
    split at h
    · cases h
      obtain hc | hc := List.mem_append.mp hmem
      · exact hown hc
      · simp only [List.mem_cons, List.not_mem_nil, or_false] at hc
        obtain rfl | rfl | rfl := hc
        · cases ha
        · cases ha
        · cases ha
    · cases h
      exact hown hmem

/-- Signals of a packet keep the call, so an audio command is for the call before the packet. -/
theorem receiveSignals_audio {linkId : LinkId} {signals : List Signal}
    {commands : List TelephonyCommand} {core' : TelephonyRuntimeCore}
    (h : core.receiveSignals linkId signals = (.ok commands, core'))
    {command : TelephonyCommand} (hmem : command ∈ commands) (ha : command.isAudio = true) :
    ForCall core command := by
  induction signals generalizing core commands with
  | nil =>
    cases h
    cases hmem
  | cons signal signals ih =>
    have hstep := receiveSignal_step core linkId signal
    unfold receiveSignals at h
    split at h
    · cases h
    rename_i first core₁ hfirst
    split at h
    · cases h
    rename_i rest core₂ hrest
    cases h
    obtain hc | hc := List.mem_append.mp hmem
    · exact receiveSignal_audio hfirst hc ha
    · obtain ⟨active, hactive, hlink, hlistens⟩ := ih hrest hc
      rw [hfirst] at hstep
      cases hstep with
      | kept h => exact ⟨active, h ▸ hactive, hlink, hlistens⟩
      | signalled h h' hr =>
        rw [h'] at hactive
        cases hactive
        obtain ⟨hrole, hanswered⟩ := hr.same
        refine ⟨_, h, hlink, fun hincoming => ?_⟩
        rw [← hanswered]
        exact hlistens (hrole.trans hincoming)
      | ended h h' =>
        rw [h'] at hactive
        cases hactive

theorem acceptLxstPlaintext_audio {linkId : LinkId} {payload : List UInt8} {step : TelephonyStep}
    {core' : TelephonyRuntimeCore}
    (h : core.acceptLxstPlaintext readValue linkId payload = (.ok step, core'))
    {command : TelephonyCommand} (hmem : command ∈ step.commands) (ha : command.isAudio = true) :
    ForCall core command := by
  unfold acceptLxstPlaintext at h
  split at h
  · cases h
  split at h
  · cases h
  dsimp only at h
  split at h
  · cases h
  rename_i hsignals
  cases h
  exact receiveSignals_audio hsignals hmem ha

/-- A call's actions without audio. -/
theorem no_audio_of_actions {linkId : LinkId} {remoteIdentity : Option IdentityHash}
    {actions : Actions} (hq : ∀ action ∈ actions, action.isAudio = false)
    {command : TelephonyCommand}
    (h : command ∈ commandsFromActions linkId remoteIdentity actions) :
    command.isAudio = false := by
  cases ha : command.isAudio with
  | false => rfl
  | true =>
    obtain ⟨-, action, hmem, haudio⟩ := audio_mem_commandsFromActions h ha
    rw [hq action hmem] at haudio
    cases haudio

theorem no_audio_incomingLinkEstablished (core : TelephonyRuntimeCore) (linkId : LinkId) :
    ∀ command ∈ (core.incomingLinkEstablished linkId).1, command.isAudio = false := by
  intro command h
  apply no_audio_of_actions _ h
  unfold CallState.incomingLinkEstablished
  split
  · decide
  · decide

theorem no_audio_callerIdentified (core : TelephonyRuntimeCore) (linkId : LinkId)
    (remoteIdentity : IdentityHash) :
    ∀ command ∈ returned (core.callerIdentified linkId remoteIdentity).1,
      command.isAudio = false := by
  have hactions (busy allowed : Bool) :
      ∀ action ∈ (CallState.incoming.callerIdentified busy allowed).2, action.isAudio = false := by
    cases busy
    · cases allowed
      · decide
      · decide
    · cases allowed
      · decide
      · decide
  intro command h
  unfold callerIdentified at h
  split at h
  · cases h
  dsimp only at h
  split at h
  · exact no_audio_of_actions (hactions _ _) h
  · exact no_audio_of_actions (hactions _ _) h

theorem no_audio_terminationCommands (active : ActiveCall) (ringTimeout : Bool)
    (reason : Option SignallingStatus) :
    ∀ command ∈ terminationCommands active ringTimeout reason, command.isAudio = false := by
  intro command h
  obtain hc | hc := List.mem_append.mp h
  · apply no_audio_of_actions _ hc
    unfold CallState.hangup
    dsimp only
    split
    · decide
    · decide
  · simp only [List.mem_cons, List.not_mem_nil, or_false] at hc
    obtain rfl | rfl := hc
    · rfl
    · rfl

theorem no_audio_terminateActive (ringTimeout : Bool) (reason : Option SignallingStatus) :
    ∀ command ∈ returned (core.terminateActive ringTimeout reason).1,
      command.isAudio = false := by
  intro command h
  unfold terminateActive at h
  split at h
  · cases h
  · exact no_audio_terminationCommands _ _ _ command h

/-- **An operation opens or starts audio** for the link of the active call only, and for an
incoming call only once it is answered. -/
theorem step_audio {op : Op} {command : TelephonyCommand}
    (h : command ∈ (core.step readValue op).2) (ha : command.isAudio = true) :
    ∃ active, core.activeCall = some active ∧ active.linkId = command.linkId ∧
      (active.call.role = .incoming →
        active.call.answered = true ∨ op = .answerActive active.linkId) := by
  have hquiet (hn : command.isAudio = false) : False := by
    rw [hn] at ha
    cases ha
  cases op with
  | acceptLinkEvent event =>
    cases event with
    | linkEstablished linkId =>
      simp only [step, acceptLinkEvent] at h
      split at h
      · cases hout : (core.outgoingLinkEstablished linkId).1 with
        | error error =>
          rw [hout] at h
          cases h
        | ok done =>
          rw [hout] at h
          cases h
      · exact (hquiet (no_audio_incomingLinkEstablished core linkId command h)).elim
    | incomingLinkEstablished linkId =>
      exact (hquiet (no_audio_incomingLinkEstablished core linkId command h)).elim
    | outgoingLinkEstablished linkId =>
      simp only [step, acceptLinkEvent] at h
      cases hout : (core.outgoingLinkEstablished linkId).1 with
      | error error =>
        rw [hout] at h
        cases h
      | ok done =>
        rw [hout] at h
        cases h
    | remoteIdentified linkId remoteIdentity =>
      have hc : command ∈ returned (core.callerIdentified linkId remoteIdentity).1 := by
        simp only [step, acceptLinkEvent, asStep] at h
        generalize (core.callerIdentified linkId remoteIdentity).1 = result at h ⊢
        cases result with
        | error error => exact h
        | ok commands => exact h
      exact (hquiet (no_audio_callerIdentified core linkId remoteIdentity command hc)).elim
    | linkPacket linkId plaintext =>
      simp only [step, acceptLinkEvent] at h
      cases hresult : core.acceptLxstPlaintext readValue linkId plaintext with
      | mk result core' =>
        rw [hresult] at h
        cases result with
        | error error => cases h
        | ok done =>
          obtain ⟨active, hactive, hlink, hlistens⟩ :=
            acceptLxstPlaintext_audio readValue hresult h ha
          exact ⟨active, hactive, hlink, fun hincoming => .inl (hlistens hincoming)⟩
    | linkClosed linkId =>
      obtain ⟨active, -, -, hclosed⟩ | ⟨-, hclosed⟩ := linkClosed_cases core linkId
      · simp only [step, acceptLinkEvent, hclosed, asStep] at h
        have hc : command ∈ [.stopAudioPipelines linkId, .callTerminated linkId none] := h
        simp only [List.mem_cons, List.not_mem_nil, or_false] at hc
        obtain rfl | rfl := hc
        · cases ha
        · cases ha
      · simp only [step, acceptLinkEvent, hclosed, asStep] at h
        cases h
  | startOutgoingCall linkId remoteIdentity profile => cases h
  | answerActive linkId =>
    simp only [step, answerActive] at h
    cases hactive : core.activeCall with
    | none =>
      rw [hactive] at h
      cases h
    | some active =>
      rw [hactive] at h
      dsimp only at h
      split at h
      · cases h
      split at h
      · cases h
      rename_i hlink _
      obtain ⟨hid, -⟩ := audio_mem_commandsFromActions h ha
      exact ⟨active, rfl, hid.symm, fun _ => .inr (by rw [not_not.mp hlink])⟩
  | switchActiveProfile profile =>
    simp only [step, switchActiveProfile] at h
    split at h
    · cases h
    split at h
    · cases h
    rename_i active _ _
    refine (hquiet (no_audio_of_actions ?_ h)).elim
    unfold CallState.switchProfile
    split
    · simp
    · dsimp only
      split
      · simp [TelephonyAction.isAudio]
      · simp [TelephonyAction.isAudio]
  | retryAnswerActive linkId =>
    obtain ⟨link, signal, rfl⟩ := mem_retryAnswerActive h
    cases ha
  | timeoutAnswerActive linkId =>
    simp only [step] at h
    obtain ⟨error, he⟩ | he := timeoutAnswerActive_eq core linkId
    · rw [he] at h
      cases h
    · rw [he] at h
      exact (hquiet (no_audio_terminateActive _ _ command h)).elim
  | hangupActive ringTimeout => exact (hquiet (no_audio_terminateActive _ _ command h)).elim
  | shutdown =>
    simp only [step, shutdown] at h
    obtain hc | hc := List.mem_append.mp h
    · split at hc
      · cases hc
      · exact (hquiet (no_audio_terminationCommands _ _ _ command hc)).elim
    · obtain ⟨_, -, rfl⟩ := List.mem_map.mp hc
      cases ha
  | setExternalBusy busy => cases h
  | setAccessPolicy access => cases h

/-! ## Pending links -/

theorem receiveSignals_pending (linkId : LinkId) (signals : List Signal) :
    (core.receiveSignals linkId signals).2.pendingLinks ⊆ core.pendingLinks := by
  have hsignal (core : TelephonyRuntimeCore) (signal : Signal) :
      (core.receiveSignal linkId signal).2.pendingLinks ⊆ core.pendingLinks := by
    unfold receiveSignal
    split
    · exact List.Subset.refl _
    split
    · exact List.Subset.refl _
    dsimp only
    split
    · exact List.erase_subset
    · exact List.Subset.refl _
  induction signals generalizing core with
  | nil => exact List.Subset.refl _
  | cons signal signals ih =>
    have hfirst := hsignal core signal
    unfold receiveSignals
    generalize core.receiveSignal linkId signal = first at hfirst ⊢
    obtain ⟨error | commands, core₁⟩ := first
    · exact hfirst
    · have hrest := List.Subset.trans (@ih core₁) hfirst
      dsimp only
      generalize core₁.receiveSignals linkId signals = rest at hrest ⊢
      obtain ⟨error | more, core₂⟩ := rest
      · exact hrest
      · exact hrest

theorem acceptLxstPlaintext_pending (linkId : LinkId) (payload : List UInt8) :
    (core.acceptLxstPlaintext readValue linkId payload).2.pendingLinks ⊆ core.pendingLinks := by
  unfold acceptLxstPlaintext
  split
  · exact List.Subset.refl _
  split
  · exact List.Subset.refl _
  rename_i inbound ingress' _
  have hsignals : (receiveSignals { core with ingress := core.ingress.insert linkId ingress' } linkId
      inbound.packet.signals).2.pendingLinks ⊆ core.pendingLinks :=
    receiveSignals_pending linkId inbound.packet.signals
  dsimp only
  generalize receiveSignals _ linkId inbound.packet.signals = rest at hsignals ⊢
  obtain ⟨error | commands, core'⟩ := rest
  · exact hsignals
  · exact hsignals

theorem incomingLinkEstablished_pending {linkId link : LinkId}
    (h : link ∈ (core.incomingLinkEstablished linkId).2.pendingLinks) :
    link ∈ core.pendingLinks ∨ core.lineBusy = false ∧ link = linkId := by
  obtain ⟨-, he⟩ | ⟨hidle, he⟩ := incomingLinkEstablished_cases core linkId
  · rw [he] at h
    exact .inl h
  · rw [he, ensureIngress_pendingLinks] at h
    obtain rfl | hp := List.mem_insert_iff.mp h
    · exact .inr ⟨hidle, rfl⟩
    · exact .inl hp

theorem outgoingLinkEstablished_pending (linkId : LinkId) :
    (core.outgoingLinkEstablished linkId).2.pendingLinks = core.pendingLinks := by
  unfold outgoingLinkEstablished
  split
  · rfl
  split
  · rfl
  · exact ensureIngress_pendingLinks linkId

theorem terminateActive_pending {ringTimeout : Bool} {reason : Option SignallingStatus}
    {link : LinkId} (h : link ∈ (core.terminateActive ringTimeout reason).2.pendingLinks) :
    link ∈ core.pendingLinks := by
  unfold terminateActive at h
  split at h
  · exact h
  · exact List.mem_of_mem_erase h

/-- A link becomes pending only when it is established on a free line. -/
theorem step_pending {op : Op} {link : LinkId}
    (h : link ∈ (core.step readValue op).1.pendingLinks) :
    link ∈ core.pendingLinks ∨ core.lineBusy = false ∧
      (op = .acceptLinkEvent (.linkEstablished link) ∨
        op = .acceptLinkEvent (.incomingLinkEstablished link)) := by
  cases op with
  | acceptLinkEvent event =>
    cases event with
    | linkEstablished linkId =>
      simp only [step, acceptLinkEvent] at h
      split at h
      · left
        rw [← outgoingLinkEstablished_pending linkId]
        exact h
      · obtain hp | ⟨hidle, rfl⟩ := incomingLinkEstablished_pending h
        · exact .inl hp
        · exact .inr ⟨hidle, .inl rfl⟩
    | incomingLinkEstablished linkId =>
      obtain hp | ⟨hidle, rfl⟩ := incomingLinkEstablished_pending h
      · exact .inl hp
      · exact .inr ⟨hidle, .inr rfl⟩
    | outgoingLinkEstablished linkId =>
      left
      rw [← outgoingLinkEstablished_pending linkId]
      exact h
    | remoteIdentified linkId remoteIdentity =>
      left
      have hp : link ∈ (core.callerIdentified linkId remoteIdentity).2.pendingLinks := h
      obtain ⟨-, he⟩ | ⟨-, ⟨-, he⟩ | ⟨-, commands, -, he⟩⟩ :=
        callerIdentified_cases core linkId remoteIdentity
      · rwa [he] at hp
      · rw [he] at hp
        exact List.mem_of_mem_erase hp
      · rw [he] at hp
        exact List.mem_of_mem_erase hp
    | linkPacket linkId plaintext =>
      exact .inl (acceptLxstPlaintext_pending readValue linkId plaintext h)
    | linkClosed linkId =>
      left
      have hp : link ∈ (core.linkClosed linkId).2.pendingLinks := h
      obtain ⟨active, -, -, he⟩ | ⟨-, he⟩ := linkClosed_cases core linkId
      · rw [he] at hp
        exact List.mem_of_mem_erase hp
      · rw [he] at hp
        exact List.mem_of_mem_erase hp
  | startOutgoingCall linkId remoteIdentity profile =>
    left
    simp only [step, startOutgoingCall] at h
    split at h
    · exact h
    · rw [← ensureIngress_pendingLinks linkId]
      exact h
  | answerActive linkId =>
    left
    simp only [step] at h
    obtain ⟨error, he⟩ | ⟨active, commands, -, -, -, -, -, he⟩ := answerActive_cases core linkId
    · rwa [he] at h
    · rwa [he] at h
  | switchActiveProfile profile =>
    left
    simp only [step] at h
    obtain ⟨error, he⟩ | ⟨active, commands, -, -, -, he⟩ := switchActiveProfile_cases core profile
    · rwa [he] at h
    · rwa [he] at h
  | retryAnswerActive linkId => exact .inl h
  | timeoutAnswerActive linkId =>
    left
    simp only [step] at h
    obtain ⟨error, he⟩ | he := timeoutAnswerActive_eq core linkId
    · rwa [he] at h
    · rw [he] at h
      exact terminateActive_pending h
  | hangupActive ringTimeout => exact .inl (terminateActive_pending h)
  | shutdown => cases h
  | setExternalBusy busy => exact .inl h
  | setAccessPolicy access => exact .inl h

/-! ## Runs -/

/-- The link was established in the run while the line was free. -/
def LetIn (ops : List Op) (link : LinkId) : Prop :=
  ∃ before op after, ops = before ++ op :: after ∧
    (Machine.run (step readValue) new before).lineBusy = false ∧
    (op = .acceptLinkEvent (.linkEstablished link) ∨
      op = .acceptLinkEvent (.incomingLinkEstablished link))

theorem pending_letIn (ops : List Op) {link : LinkId}
    (h : link ∈ (Machine.run (step readValue) new ops).pendingLinks) :
    LetIn readValue ops link := by
  induction ops using List.reverseRecOn with
  | nil => cases h
  | append_singleton ops op ih =>
    rw [Machine.run_append] at h
    obtain hp | ⟨hidle, hop⟩ := step_pending readValue h
    · obtain ⟨before, first, after, rfl, hfree, hfirst⟩ := ih hp
      exact ⟨before, first, after ++ [op], by simp, hfree, hfirst⟩
    · exact ⟨ops, op, [], rfl, hidle, hop⟩

/-- The operation of a run that started the active call, which has been active since; the link of
an incoming call was let in before, and the call is answered only by `answerActive`. -/
def Origin (ops : List Op) (active : ActiveCall) : Prop :=
  ∃ before op first after, ops = before ++ op :: after ∧
    Starts (Machine.run (step readValue) new before) op first ∧
    (first.call.role = .incoming → LetIn readValue before first.linkId) ∧
    (∀ mid rest, after = mid ++ rest → ∃ current,
      (Machine.run (step readValue) new (before ++ op :: mid)).activeCall = some current ∧
        current.SameCall first) ∧
    active.SameCall first ∧ (active.call.answered = true → .answerActive first.linkId ∈ after)

theorem activeCall_origin (ops : List Op) {active : ActiveCall}
    (h : (Machine.run (step readValue) new ops).activeCall = some active) :
    Origin readValue ops active := by
  induction ops using List.reverseRecOn generalizing active with
  | nil => cases h
  | append_singleton ops op ih =>
    have hrun : Machine.run (step readValue) new (ops ++ [op]) =
        ((Machine.run (step readValue) new ops).step readValue op).1 := by
      rw [Machine.run_append]
      rfl
    have hcall := step_call readValue (covered_run readValue ops) op
    rw [← hrun, h] at hcall
    cases hcall with
    | started hstarts =>
      refine ⟨ops, op, active, [], rfl, hstarts, ?_, ?_, .refl active, ?_⟩
      · intro hrole
        cases hstarts with
        | dialled => cases hrole
        | admitted _ hpending _ => exact pending_letIn readValue ops hpending
      · rintro mid rest hmid
        obtain ⟨rfl, -⟩ := List.append_eq_nil_iff.mp hmid.symm
        exact ⟨active, h, .refl active⟩
      · cases hstarts with
        | dialled => nofun
        | admitted => nofun
    | same hbefore hsame hanswered =>
      obtain ⟨before, start, first, after, rfl, hstarts, hlet, hsince, hfirst, hanswer⟩ :=
        ih hbefore
      refine ⟨before, start, first, after ++ [op], by simp, hstarts, hlet, ?_,
        hsame.trans hfirst, ?_⟩
      · intro mid rest hmid
        obtain rfl | hne := eq_or_ne rest []
        · rw [List.append_nil] at hmid
          subst hmid
          refine ⟨active, ?_, hsame.trans hfirst⟩
          rw [← h]
          congr 2
          simp
        · obtain ⟨rest, last, rfl⟩ := List.eq_nil_or_concat' rest |>.resolve_left hne
          rw [← List.append_assoc] at hmid
          exact hsince mid rest (List.append_inj_left' hmid rfl)
      · intro ha
        obtain hold | rfl := hanswered ha
        · exact List.mem_append_left _ (hanswer hold)
        · rw [hfirst.linkId]
          simp

/-- **Audio only for answered calls.** In every run of a new core, an operation that opens or
starts the audio pipelines of a link does so for a call that was started on a free line and has
been active since: dialled by the host, or, on a link let in before, from a remote that the access
policy allowed at that moment and that `answerActive` has answered since. -/
theorem audio_only_for_answered_calls (ops : List Op) (op : Op) {command : TelephonyCommand}
    (h : command ∈ ((Machine.run (step readValue) new ops).step readValue op).2)
    (ha : command.isAudio = true) :
    ∃ before start first after, ops = before ++ start :: after ∧
      first.linkId = command.linkId ∧
      Starts (Machine.run (step readValue) new before) start first ∧
      (∀ mid rest, after = mid ++ rest → ∃ current,
        (Machine.run (step readValue) new (before ++ start :: mid)).activeCall = some current ∧
          current.SameCall first) ∧
      (first.call.role = .incoming → LetIn readValue before first.linkId ∧
        .answerActive first.linkId ∈ after ++ [op]) := by
  obtain ⟨active, hactive, hlink, hanswered⟩ := step_audio readValue h ha
  obtain ⟨before, start, first, after, rfl, hstarts, hlet, hsince, hsame, hanswer⟩ :=
    activeCall_origin readValue ops hactive
  refine ⟨before, start, first, after, rfl, hsame.linkId.symm.trans hlink, hstarts, hsince, ?_⟩
  intro hrole
  refine ⟨hlet hrole, ?_⟩
  obtain hold | rfl := hanswered (hsame.role.trans hrole)
  · exact List.mem_append_left _ (hanswer hold)
  · rw [hsame.linkId]
    simp

/-- A caller that is let in and allowed, while another link is refused, and then answered. -/
theorem audio_only_for_answered_calls_incoming :
    let readValue : List UInt8 → Except String MsgPack.Value := fun _ => .error ""
    let ops : List Op :=
      [.acceptLinkEvent (.linkEstablished (.replicate 16 1)),
        .acceptLinkEvent (.remoteIdentified (.replicate 16 1) (.replicate 16 7)),
        .acceptLinkEvent (.linkEstablished (.replicate 16 2))]
    let op : Op := .answerActive (.replicate 16 1)
    ∃ before start first after, ops = before ++ start :: after ∧
      first.linkId = .replicate 16 1 ∧
      Starts (Machine.run (step readValue) new before) start first ∧
      (∀ mid rest, after = mid ++ rest → ∃ current,
        (Machine.run (step readValue) new (before ++ start :: mid)).activeCall = some current ∧
          current.SameCall first) ∧
      (first.call.role = .incoming → LetIn readValue before first.linkId ∧
        .answerActive first.linkId ∈ after ++ [op]) :=
  @audio_only_for_answered_calls (fun _ => .error "") _ _ (.openAudioPipelines (.replicate 16 1))
    (by decide +kernel) rfl

end TelephonyRuntimeCore

end Telephony

end Lxst
