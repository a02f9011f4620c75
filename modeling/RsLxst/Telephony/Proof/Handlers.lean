import RsLxst.Telephony.Proof.Frame

/-!
# What each handler can do

One lemma for each handler that may change the core or a timer, in terms of `Frame` and
`refreshed`; `handleControl_frame` covers the controls that do neither.
-/

set_option autoImplicit false

namespace Lxst.Telephony.TelephonyService

open Program
open TelephonyRnsEndpoint (TelephonyDriveStep)

variable {rns : Rns} {audio : Audio} {s s' : TelephonyService rns audio}

/-! ## Commands -/

/-- Commands were executed and published, or the endpoint refused them and nothing is told. -/
def Controlled (commands : Except Error (List TelephonyCommand)) (now : Instant)
    (s s' : TelephonyService rns audio) : Prop :=
  match commands with
  | .error _ => Frame [] s s'
  | .ok commands =>
    match TelephonyRnsEndpoint.executeCommands commands s.endpoint with
    | (.error _, _) => Frame [] s s'
    | (.ok _, endpoint) => Frame (terminatedBy commands) (refreshed now { s with endpoint }) s'

/-- The endpoint executes the commands, if there are any. -/
def Executes (commands : Except Error (List TelephonyCommand)) (s : TelephonyService rns audio) :
    Prop :=
  ∀ list, commands = .ok list →
    ∃ effects, (TelephonyRnsEndpoint.executeCommands list s.endpoint).1 = .ok effects

/-- A quiet program after the commands. -/
theorem Controlled.then {commands : Except Error (List TelephonyCommand)} {now : Instant}
    {s'' : TelephonyService rns audio} (h : Controlled commands now s s') (h' : Frame [] s' s'') :
    Controlled commands now s s'' := by
  unfold Controlled at h ⊢
  split at h
  · exact h.then h'
  split at h
  · exact h.then h'
  · exact h.quiet h'

theorem controlCommands_cases (commands : Except Error (List TelephonyCommand)) (now : Instant)
    (s : TelephonyService rns audio) :
    wp (controlCommands commands now) (fun _ => Controlled commands now s) s := by
  unfold controlCommands Controlled
  cases commands with
  | error error => exact .refl s
  | ok commands =>
    dsimp only
    rw [wp_bind, wp_onEndpoint]
    rcases TelephonyRnsEndpoint.executeCommands commands s.endpoint with ⟨error | effects, endpoint⟩
    · exact Frame.endpoint s endpoint
    · exact publishCommands_frame commands effects now _

theorem reportControl_cases (commands : Except Error (List TelephonyCommand)) (now : Instant)
    (s : TelephonyService rns audio) :
    wp (do reportError (← controlCommands commands now)) (fun _ => Controlled commands now s) s := by
  rw [wp_bind]
  refine wp_mono (controlCommands_cases commands now s) fun result s₁ h₁ => ?_
  exact wp_mono (reportError_frame result s₁) fun _ _ h₂ => h₁.then h₂

/-! ## Controls -/

theorem handleAnnounce_frame (now : Instant) (entropy : Nat) (s : TelephonyService rns audio) :
    wp (handleAnnounce now entropy) (fun _ => Frame [] s) s := by
  unfold handleAnnounce
  rw [wp_bind, wp_onEndpoint]
  dsimp only
  have hreport (result : Except Error Unit) (s₁ : TelephonyService rns audio)
      (h₁ : Frame [] s s₁) : wp (reportError result) (fun _ => Frame [] s) s₁ :=
    wp_mono (reportError_frame result s₁) fun _ _ h₂ => h₁.then h₂
  split
  · rw [wp_bind, wp_modify]
    exact hreport _ _ ⟨rfl, rfl, rfl, rfl, .of_events rfl rfl⟩
  · exact hreport _ _ (Frame.endpoint s _)

theorem startOutgoingDiscovery_frame (remoteIdentity : IdentityHash) (profile : Option Profile)
    (s : TelephonyService rns audio) :
    wp (startOutgoingDiscovery remoteIdentity profile) (fun _ => Frame [] s) s := by
  unfold startOutgoingDiscovery
  rw [wp_bind, wp_get]
  split
  · exact wp_mono (emitServiceError_sends _ s) fun _ _ h => h.toFrame
  · rw [wp_bind, wp_set]
    refine wp_mono (emitServiceEvent_frame rfl _) fun _ _ h => ?_
    exact (Frame.outgoingDiscovery s _).then h

/-- The controls that may change the core. -/
def changesCore : TelephonyControl audio → Bool
  | .answer _ | .hangup _ | .switchProfile _ | .setExternalBusy _ | .setAccessPolicy _ => true
  | _ => false

theorem handleControl_frame {control : TelephonyControl audio} (h : changesCore control = false)
    (now : Instant) (entropy : Nat) (s : TelephonyService rns audio) :
    wp (handleControl control now entropy) (fun _ => Frame [] s) s := by
  have hreport {p : ServiceM rns audio (Except Error Unit)} (hp : wp p (fun _ => Frame [] s) s) :
      wp (do reportError (← p)) (fun _ => Frame [] s) s := by
    rw [wp_bind]
    refine wp_mono hp fun result s₁ h₁ => ?_
    exact wp_mono (reportError_frame result s₁) fun _ _ h₂ => h₁.then h₂
  cases control with
  | announce => exact handleAnnounce_frame now entropy s
  | call remoteIdentity profile => exact startOutgoingDiscovery_frame remoteIdentity profile s
  | sendRawFrames bitDepth frames => exact hreport (sendRawFrames_frame bitDepth frames s)
  | sendAudioFrames profile frames => exact hreport (sendOpusFrames_frame profile frames now s)
  | sendOpusFrames profile frames => exact hreport (sendOpusFrames_frame profile frames now s)
  | startAudioStream linkId gate profile frames =>
    exact hreport (startAudioStream_frame linkId gate profile frames s)
  | startOpusStream profile frames => exact hreport (startOpusStream_frame profile frames s)
  | stopAudioStream => exact stopOpusStream_frame _ s
  | stopOpusStream => exact stopOpusStream_frame _ s
  | startAudioReceiveStream frames => exact hreport (startOpusReceiveStream_frame frames s)
  | startOpusReceiveStream frames => exact hreport (startOpusReceiveStream_frame frames s)
  | stopAudioReceiveStream => exact stopOpusReceiveStream_frame _ s
  | stopOpusReceiveStream => exact stopOpusReceiveStream_frame _ s
  | shutdown => exact .refl s
  | answer | hangup | switchProfile | setExternalBusy | setAccessPolicy => cases h

/-- The service whose answer was queued. -/
def answered (linkId : LinkId) (core : TelephonyRuntimeCore) (now : Instant)
    (s : TelephonyService rns audio) (endpoint : TelephonyRnsEndpoint rns) :
    TelephonyService rns audio :=
  { s with
    endpoint, core
    answering := some
      { linkId
        nextRetryAt := deadline s.config.answerRetryInterval now
        expiresAt := deadline s.config.answerTimeout now } }

/-- An answer was refused, which changes nothing, or it was queued and published. -/
def Answered (linkId : LinkId) (now : Instant) (s s' : TelephonyService rns audio) : Prop :=
  Frame [] s s' ∨
    ∃ commands core endpoint, s.core.answerActive linkId = (.ok commands, core) ∧
      Frame (terminatedBy commands) (refreshed now (answered linkId core now s endpoint)) s'

theorem Answered.then {linkId : LinkId} {now : Instant} {s'' : TelephonyService rns audio}
    (h : Answered linkId now s s') (h' : Frame [] s' s'') : Answered linkId now s s'' := by
  rcases h with h | ⟨commands, core, endpoint, hanswer, h⟩
  · exact .inl (h.then h')
  · exact .inr ⟨commands, core, endpoint, hanswer, h.quiet h'⟩

theorem answerExact_cases (linkId : LinkId) (now : Instant) (s : TelephonyService rns audio) :
    wp (answerExact linkId now) (fun _ => Answered linkId now s) s := by
  unfold answerExact
  rw [wp_bind, wp_get]
  rcases s.core.answerActive_cases linkId with
    ⟨error, h⟩ | ⟨active, commands, hactive, -, -, -, -, h⟩
  · rw [h]
    exact .inl (.refl s)
  · simp only [h, wp_bind, wp_set, wp_onEndpoint]
    split
    · -- the batch was not queued: the call is as before
      exact .inl (Frame.endpoint s _)
    · simp only [wp_bind, wp_modify]
      refine wp_mono (publishCommands_frame commands _ now _) fun result s₁ h₁ => ?_
      have hanswered : Answered linkId now s s₁ := .inr ⟨commands, _, _, h, h₁⟩
      cases result with
      | error error => exact hanswered
      | ok =>
        simp only [wp_bind, wp_get]
        split
        · exact hanswered
        · split <;> exact hanswered

theorem handleAnswer_cases (linkId : LinkId) (now : Instant) (s : TelephonyService rns audio) :
    wp (handleAnswer linkId now) (fun _ => Answered linkId now s) s := by
  unfold handleAnswer
  rw [wp_bind]
  refine wp_mono (answerExact_cases linkId now s) fun result s₁ h₁ => ?_
  split
  · exact h₁
  · exact h₁
  · exact wp_mono (emitServiceError_sends _ s₁) fun _ _ h₂ => h₁.then h₂.toFrame

theorem handleHangup_cases (ringTimeout : Bool) (now : Instant) (s : TelephonyService rns audio) :
    wp (handleHangup ringTimeout now) (fun _ s' =>
      s.outgoingDiscovery ≠ none ∧ Frame [] s s' ∨
      s.outgoingDiscovery = none ∧
        Controlled (s.core.hangupActive ringTimeout).1 now
          { s with core := (s.core.hangupActive ringTimeout).2 } s') s := by
  unfold handleHangup
  rw [wp_bind, wp_get]
  split
  · rename_i hdiscovery
    rw [wp_bind, wp_set]
    refine wp_mono (emitServiceEvent_frame rfl _) fun _ _ h => .inl ⟨by simp [hdiscovery], ?_⟩
    exact (Frame.outgoingDiscovery s _).then h
  · rename_i hdiscovery
    exact wp_mono (reportControl_cases _ now _) fun _ _ h => .inr ⟨hdiscovery, h⟩

theorem handleSwitchProfile_cases (profile : Profile) (now : Instant)
    (s : TelephonyService rns audio) :
    wp (handleSwitchProfile profile now) (fun _ =>
      Controlled (s.core.switchActiveProfile profile).1 now
        { s with core := (s.core.switchActiveProfile profile).2 }) s :=
  reportControl_cases _ now _

theorem handleSetExternalBusy_cases (busy : Bool) (now : Instant) (s : TelephonyService rns audio) :
    wp (handleSetExternalBusy busy now) (fun _ =>
      Frame [] (refreshed now { s with core := s.core.setExternalBusy busy })) s := by
  unfold handleSetExternalBusy
  rw [wp_bind, wp_modify]
  exact refreshThen_frame now _ emitSnapshot_frame

/-! ## Outgoing calls -/

theorem wp_beginOutgoing_error {remoteIdentity : IdentityHash} {profile : Option Profile}
    {error : Error} {entropy : Nat} {Q : Except Error LinkId → TelephonyService rns audio → Prop} :
    wp (beginOutgoing remoteIdentity profile (.error error) entropy) Q s ↔ Q (.error error) s :=
  Iff.rfl

/-- The call was begun, and the timers were refreshed if that succeeded. -/
def Begun (remoteIdentity : IdentityHash) (profile : Option Profile) (peer : RemoteTelephonyPeer)
    (entropy : Nat) (now : Instant) (s s' : TelephonyService rns audio) : Prop :=
  match s.endpoint.beginOutgoingLinkWithRemotePubkey s.core remoteIdentity peer.publicKey profile
      peer.hops entropy with
  | (.ok _, endpoint, core) => Frame [] (refreshed now { s with endpoint, core }) s'
  | (.error _, endpoint, core) => Frame [] { s with endpoint, core } s'

/-- The transport queue takes all messages of an outgoing call, or refuses the first. -/
def Begins (s : TelephonyService rns audio) : Prop :=
  s.core.lineBusy = true ∨ s.endpoint.transport.closed = true ∨ s.endpoint.transport.free = 0 ∨
    3 ≤ s.endpoint.transport.free

/-- The event asks for the call that is pending, and for this peer of it. -/
def Discovers (event : TelephonyInternalEvent) (s : TelephonyService rns audio)
    (remoteIdentity : IdentityHash) (profile : Option Profile) (peer : RemoteTelephonyPeer) :
    Prop :=
  event = .outgoingDiscoveryCompleted remoteIdentity profile (.ok peer) ∧
    s.outgoingDiscovery = some { remoteIdentity, profile }

theorem handleInternal_cases (event : TelephonyInternalEvent) (now : Instant) (entropy : Nat)
    (s : TelephonyService rns audio) :
    wp (handleInternal event now entropy) (fun _ s' => Frame [] s s' ∨
      ∃ remoteIdentity profile peer, Discovers event s remoteIdentity profile peer ∧
        Begun remoteIdentity profile peer entropy now { s with outgoingDiscovery := none } s')
      s := by
  obtain ⟨remoteIdentity, profile, result⟩ := event
  unfold handleInternal
  simp only [wp_bind, wp_get]
  split
  · exact .inl (.refl s)
  rename_i hdiscovery
  rw [not_not] at hdiscovery
  rw [wp_bind, wp_set]
  cases result with
  | error error =>
    rw [wp_bind, wp_beginOutgoing_error]
    refine wp_mono (emitServiceEvent_frame rfl _) fun _ _ h => .inl ?_
    exact (Frame.outgoingDiscovery s _).then h
  | ok peer =>
    refine wp_mono (R := fun _ => Begun remoteIdentity profile peer entropy now
      { s with outgoingDiscovery := none }) ?_ fun _ s' h =>
        .inr ⟨remoteIdentity, profile, peer, ⟨rfl, hdiscovery⟩, h⟩
    rw [wp_bind]
    unfold beginOutgoing Begun wp
    dsimp only
    rcases s.endpoint.beginOutgoingLinkWithRemotePubkey s.core remoteIdentity peer.publicKey
      profile peer.hops entropy with ⟨error | linkId, endpoint, core⟩
    · exact emitServiceEvent_frame rfl _
    · exact refreshThen_frame now _ fun s' =>
        .ifSent (a := []) (b := []) (emitServiceEvent_sends _ s') emitSnapshot_frame
          fun s' => .refl s'

theorem handleDueAnnounce_frame (now : Instant) (entropy : Nat) (s : TelephonyService rns audio) :
    wp (handleDueAnnounce now entropy) (fun _ => Frame [] s) s := by
  unfold handleDueAnnounce
  rw [wp_bind, wp_get]
  split
  · rw [wp_bind, wp_onEndpoint]
    split
    · rw [wp_bind, wp_modify]
      split <;> exact ⟨rfl, rfl, rfl, rfl, .of_events rfl rfl⟩
    · rw [wp_bind, wp_modify]
      refine wp_mono (emitServiceError_sends _ _) fun _ _ h => ?_
      exact ⟨h.core, h.config, h.activeTimeout, h.answering, h.tells⟩
  · exact .refl s

/-! ## Timers -/

/-- The answering state is dropped, and the call ends if it still waits for the echo. -/
def TimedOut (linkId : LinkId) (now : Instant) (s s' : TelephonyService rns audio) : Prop :=
  match s.core.timeoutAnswerActive linkId with
  | (.error _, core) => s' = { s with answering := none, core }
  | (.ok commands, core) => ∃ endpoint, Frame (terminatedBy commands)
      (refreshed now { s with answering := none, core, endpoint }) s'

theorem timeoutAnswering_cases (linkId : LinkId) (now : Instant) (s : TelephonyService rns audio) :
    wp (timeoutAnswering linkId now) (fun _ => TimedOut linkId now s) s := by
  unfold timeoutAnswering TimedOut
  rw [wp_bind, wp_modify, wp_bind, wp_get]
  dsimp only
  rcases s.core.timeoutAnswerActive linkId with ⟨error | commands, core⟩
  · rfl
  · dsimp only
    rw [wp_bind, wp_set, wp_bind, wp_onEndpoint, wp_bind]
    refine wp_mono (publishCommands_frame commands _ now _) fun published s₁ h₁ => ?_
    cases published with
    | error error => exact ⟨_, h₁⟩
    | ok =>
      dsimp only
      split
      · exact ⟨_, h₁⟩
      · exact wp_mono (emitServiceError_sends _ s₁) fun _ _ h₂ => ⟨_, h₁.quiet h₂.toFrame⟩

/-- A retry only moves the next one. -/
def Retried (s s' : TelephonyService rns audio) : Prop :=
  ∃ nextRetryAt, Frame []
    { s with answering := s.answering.map fun answering => { answering with nextRetryAt } } s'

theorem retryAnswering_cases (answering : TelephonyAnsweringState) (now : Instant)
    (s : TelephonyService rns audio) :
    wp (retryAnswering answering now) (fun _ s' =>
      (∃ error, s.core.retryAnswerActive answering.linkId = .error error) ∧
          s' = { s with answering := none } ∨ Retried s s') s := by
  unfold retryAnswering
  rw [wp_bind, wp_get]
  cases h : s.core.retryAnswerActive answering.linkId with
  | error error => exact .inl ⟨⟨error, rfl⟩, rfl⟩
  | ok commands =>
    dsimp only
    have hsend : wp (sendRetry commands) (fun _ => Frame [] s) s := by
      unfold sendRetry
      rw [wp_bind, wp_onEndpoint]
      split
      · exact Frame.endpoint s _
      · exact Frame.endpoint s _
      · rw [wp_bind]
        refine wp_mono (emitServiceError_sends _ _) fun _ _ h₁ => ?_
        exact (Frame.endpoint s _).then h₁.toFrame
    rw [wp_bind]
    refine wp_mono hsend fun effects s₁ h₁ => ?_
    rw [wp_bind, wp_modify]
    have hmoved : Retried s { s₁ with answering := s₁.answering.map fun answering =>
        { answering with nextRetryAt := deadline s₁.config.answerRetryInterval now } } :=
      ⟨_, h₁.core, h₁.config, h₁.activeTimeout, congrArg (Option.map _) h₁.answering,
        h₁.tells⟩
    split
    · obtain ⟨nextRetryAt, hmoved⟩ := hmoved
      exact wp_mono (emitServiceEvent_frame rfl _) fun _ _ h₂ =>
        .inr ⟨nextRetryAt, hmoved.then h₂⟩
    · exact .inr hmoved

theorem handleDueAnswerRetry_cases (now : Instant) (s : TelephonyService rns audio) :
    wp (handleDueAnswerRetry now) (fun _ s' => s' = s ∨ Retried s s' ∨
      ∃ answering, s.answering = some answering ∧
        ((∃ expiresAt, answering.expiresAt = some expiresAt ∧ expiresAt ≤ now) ∧
            TimedOut answering.linkId now s s' ∨
          (∃ error, s.core.retryAnswerActive answering.linkId = .error error) ∧
            s' = { s with answering := none })) s := by
  unfold handleDueAnswerRetry
  rw [wp_bind, wp_get]
  split
  · exact .inl rfl
  rename_i answering hanswering
  split
  · rename_i hexpired
    have hexpired : ∃ expiresAt, answering.expiresAt = some expiresAt ∧ expiresAt ≤ now := by
      simpa [Option.any_eq_true] using hexpired
    exact wp_mono (timeoutAnswering_cases answering.linkId now s) fun _ _ h =>
      .inr (.inr ⟨answering, hanswering, .inl ⟨hexpired, h⟩⟩)
  split
  · refine wp_mono (retryAnswering_cases answering now s) fun _ _ h => ?_
    rcases h with h | h
    · exact .inr (.inr ⟨answering, hanswering, .inr h⟩)
    · exact .inr (.inl h)
  · exact .inl rfl

/-- The call that the active timeout is about and its timeout, if it is due and still applies. -/
def Due (now : Instant) (s : TelephonyService rns audio) (timeout : TelephonyServiceTimeout) :
    Prop :=
  s.activeTimeout = some timeout ∧ timeout.expiresAt ≤ now ∧
    ∃ active, s.core.snapshot.activeCall = some active ∧ active.linkId = timeout.linkId ∧
      timeoutApplies timeout.kind active = true

theorem Due.unique {now : Instant} {timeout timeout' : TelephonyServiceTimeout}
    (h : Due now s timeout) (h' : Due now s timeout') : timeout' = timeout :=
  Option.some.inj (h'.1.symm.trans h.1)

theorem handleDueTimeout_cases (now : Instant) (s : TelephonyService rns audio) :
    wp (handleDueTimeout now) (fun _ s' =>
      (∀ timeout, ¬ Due now s timeout) ∧
          (s' = s ∨ s.core.activeCall = none ∧ s' = { s with activeTimeout := none } ∨
            Frame [] (refreshed now s) s') ∨
        ∃ timeout, Due now s timeout ∧
          Controlled (s.core.hangupActive (timeout.kind = .incomingRing)).1 now
            { s with
              activeTimeout := none
              core := (s.core.hangupActive (timeout.kind = .incomingRing)).2 } s') s := by
  unfold handleDueTimeout
  rw [wp_bind, wp_get]
  split
  · rename_i hnone
    refine .inl ⟨fun timeout h => ?_, .inl rfl⟩
    cases hnone.symm.trans h.1
  rename_i timeout htimeout
  have hthis {timeout' : TelephonyServiceTimeout} (h : Due now s timeout') : timeout' = timeout :=
    Option.some.inj (h.1.symm.trans htimeout)
  split
  · rename_i hearly
    refine .inl ⟨fun timeout' h => ?_, .inl rfl⟩
    cases hthis h
    exact absurd h.2.1 (not_le.mpr hearly)
  rename_i hdue
  split
  · rename_i hnone
    refine .inl ⟨fun timeout' h => ?_, .inr (.inl ⟨Option.map_eq_none_iff.mp hnone, rfl⟩)⟩
    obtain ⟨-, -, active, hactive, -⟩ := h
    cases hnone.symm.trans hactive
  rename_i active hactive
  split
  · rename_i hother
    refine wp_mono (refreshAndEmit_sends now s) fun _ _ h =>
      .inl ⟨fun timeout' h => ?_, .inr (.inr h.toFrame)⟩
    cases hthis h
    obtain ⟨-, -, active', hactive', hlink, happlies⟩ := h
    cases hactive.symm.trans hactive'
    simp [hlink, happlies] at hother
  · rename_i happlies
    rw [not_or, not_not, Bool.not_eq_true', Bool.not_eq_false] at happlies
    exact wp_mono (reportControl_cases _ now _) fun _ _ h => .inr
      ⟨timeout, ⟨htimeout, not_lt.mp hdue, active, hactive, happlies⟩, h⟩

/-! ## Link events -/

/-- What driven steps are reported as: all of them, and then the refreshed timers. -/
theorem publishDriven_ok (steps : List TelephonyDriveStep) (now : Instant)
    (s : TelephonyService rns audio) :
    wp (publishDriven (.ok steps) now) (fun sent s' => ∃ s₁,
      Frame (steps.flatMap fun step => terminatedBy step.step.commands) s s₁ ∧
        ((sent = true → steps = []) ∧ Frame [] s₁ s' ∨ Frame [] (refreshed now s₁) s')) s := by
  unfold publishDriven
  rw [wp_bind]
  refine wp_mono (publishDriveSteps_sends steps s) fun sent s₁ h₁ => ?_
  cases sent with
  | false => exact ⟨s₁, h₁.toFrame, .inl ⟨nofun, .refl s₁⟩⟩
  | true =>
    rw [if_pos rfl]
    split
    · rename_i hempty
      exact ⟨s₁, h₁.toFrame, .inl ⟨fun _ => List.isEmpty_iff.mp hempty, .refl s₁⟩⟩
    · exact wp_mono (refreshThen_frame now s₁ emitSnapshot_frame) fun _ _ h₂ =>
        ⟨s₁, h₁.toFrame, .inr h₂⟩

/-- What `drive_ready` does once its link events have been driven to `result` and `last`. -/
def Driven (result : Except Error (List TelephonyDriveStep)) (last : TelephonyRnsEndpoint.Line rns)
    (now : Instant) (s : TelephonyService rns audio) (sent : Bool)
    (s' : TelephonyService rns audio) : Prop :=
  match result with
  | .error _ => Frame [] { s with endpoint := last.endpoint, core := last.core } s'
  | .ok steps => ∃ s₁, Frame (steps.flatMap fun step => terminatedBy step.step.commands)
        { s with endpoint := last.endpoint, core := last.core } s₁ ∧
      ((sent = true → steps = []) ∧ Frame [] s₁ s' ∨ Frame [] (refreshed now s₁) s')

theorem driveReady_cases {fuel : Nat} {now : Instant} {sent : Bool}
    (h : driveReady fuel now s = some (sent, s')) :
    ∃ result last, TelephonyRnsEndpoint.tryDriveReady fuel s.line = some (result, last) ∧
      Driven result last now s sent s' := by
  obtain ⟨⟨result, last⟩, hdriven, hpublished⟩ := Option.map_eq_some_iff.mp h
  refine ⟨result, last, hdriven, ?_⟩
  obtain ⟨rfl, rfl⟩ := Prod.mk.inj hpublished
  cases result with
  | error error => exact (emitServiceError_sends error _).toFrame
  | ok steps => exact publishDriven_ok steps now _

/-! ## The end of the loop -/

/-- The core is the same, and the events emitted terminate nothing. -/
structure Closes (s s' : TelephonyService rns audio) : Prop where
  core : s'.core = s.core
  tells : Tells [] s s'

theorem Closes.trans {s'' : TelephonyService rns audio} (h : Closes s s') (h' : Closes s' s'') :
    Closes s s'' := ⟨h'.core.trans h.core, h.tells.trans h'.tells⟩

theorem Frame.closes (h : Frame [] s s') : Closes s s' := ⟨h.core, h.tells⟩

/-- The shutdown commands were executed, if there are any, and the streams and timers dropped. -/
def ShutDown (now : Instant) (s s' : TelephonyService rns audio) : Prop :=
  ∃ s₁, (s.core.shutdown.1 = [] ∧
        s₁ = { s with outgoingDiscovery := none, core := s.core.shutdown.2 } ∨
      Controlled (.ok s.core.shutdown.1) now
        { s with outgoingDiscovery := none, core := s.core.shutdown.2 } s₁) ∧ Closes s₁ s'

/-- The streams' events are sent and the timers dropped. -/
theorem Sends.closes {media : TelephonyServiceMedia audio} {active : Option ActiveCallSnapshot}
    {sent : Bool} {activeTimeout : Option TelephonyServiceTimeout}
    {answering : Option TelephonyAnsweringState}
    (h : Sends (terminations (s.media.clearUnlessEstablished active).1) { s with media } sent s') :
    Closes s { s' with activeTimeout, answering } := by
  rw [clearUnlessEstablished_terminations] at h
  exact ⟨h.core, h.tells⟩

theorem shutdown_cases (now : Instant) (s : TelephonyService rns audio) :
    wp (shutdown now) (fun _ => ShutDown now s) s := by
  unfold shutdown
  rw [wp_bind, wp_modify, wp_bind, wp_get]
  dsimp only
  rw [wp_bind, wp_set]
  split
  · rw [wp_bind]
    refine wp_mono (controlCommands_cases _ now _) fun _ s₁ h₁ => ?_
    rw [wp_bind, wp_get, wp_bind, wp_set, wp_bind]
    exact wp_mono (emitServiceEvents_sends _ _) fun _ _ h₂ => ⟨s₁, .inr h₁, h₂.closes⟩
  · rename_i hempty
    rw [Bool.not_eq_true', Bool.not_eq_false] at hempty
    rw [wp_bind, wp_get, wp_bind, wp_set, wp_bind]
    exact wp_mono (emitServiceEvents_sends _ _) fun _ _ h₂ =>
      ⟨_, .inl ⟨List.isEmpty_iff.mp hempty, rfl⟩, h₂.closes⟩

theorem onEndpointAll_frame (methods : List (EndpointE rns Unit))
    (s : TelephonyService rns audio) : wp (onEndpointAll methods) (fun _ => Frame [] s) s := by
  induction methods generalizing s with
  | nil => exact .refl s
  | cons method methods ih =>
    unfold onEndpointAll
    rw [wp_bind, wp_onEndpoint]
    exact wp_mono (ih _) fun _ _ h => (Frame.endpoint s _).then h

theorem deregisterDestinations_frame (s : TelephonyService rns audio) :
    wp deregisterDestinations (fun _ => Frame [] s) s := by
  unfold deregisterDestinations
  rw [wp_bind, wp_get]
  exact onEndpointAll_frame _ s

theorem stop_cases (now : Instant) (s : TelephonyService rns audio) :
    wp (stop now) (fun _ => ShutDown now s) s := by
  unfold stop
  rw [wp_bind]
  refine wp_mono (shutdown_cases now s) fun _ s₂ h₂ => ?_
  obtain ⟨s₁, hcommands, hclosed⟩ := h₂
  rw [wp_bind]
  refine wp_mono (deregisterDestinations_frame s₂) fun _ s₃ h₃ => ?_
  rw [wp_bind]
  refine wp_mono (emitServiceEvent_frame rfl s₃) fun _ _ h₄ => ?_
  exact ⟨s₁, hcommands, hclosed.trans (h₃.then h₄).closes⟩

end Lxst.Telephony.TelephonyService
