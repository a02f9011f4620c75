import RsLxst.Telephony.Media

/-!
# The telephony service

`TelephonyService` of `lxst-telephony/src/lib.rs`: the handlers that `run` selects between. A
handler is a `Program` over the service and returns whether the service goes on. The clock is an
argument (`now`, one instant for a handler), as is the entropy of a new link or announce. The
discovery task runs outside the service and comes back as an internal event. The receiver of the
events may go away at any time: `eventsLeft` is the number of events it still takes.
-/

set_option autoImplicit false

namespace Lxst.Telephony

open TelephonyRnsEndpoint (Line TelephonyDriveStep)

structure RemoteTelephonyPeer where
  identityHash : IdentityHash
  destinationHash : Hash
  publicKey : Vector UInt8 64
  hops : Nat
  deriving DecidableEq

inductive TelephonyControl (audio : Audio)
  | announce
  | call (remoteIdentity : IdentityHash) (profile : Option Profile)
  | answer (expectedLinkId : LinkId)
  | hangup (ringTimeout : Bool)
  | sendRawFrames (bitDepth : RawBitDepth) (frames : List audio.Pcm)
  | sendAudioFrames (profile : Profile) (frames : List audio.Pcm)
  | startAudioStream (linkId : LinkId) (gate : Option AudioTransmitGate) (profile : Profile)
      (frames : Mailbox audio.Pcm)
  | stopAudioStream
  | startAudioReceiveStream (frames : BoundedQueue audio.Pcm)
  | stopAudioReceiveStream
  | sendOpusFrames (profile : Profile) (frames : List audio.Pcm)
  | startOpusStream (profile : Profile) (frames : Mailbox audio.Pcm)
  | stopOpusStream
  | startOpusReceiveStream (frames : BoundedQueue audio.Pcm)
  | stopOpusReceiveStream
  | switchProfile (profile : Profile)
  | setExternalBusy (busy : Bool)
  | setAccessPolicy (access : CallerAccessPolicy)
  | shutdown

inductive TelephonyInternalEvent
  | outgoingDiscoveryCompleted (remoteIdentity : IdentityHash) (profile : Option Profile)
      (result : Except Error RemoteTelephonyPeer)

structure OutgoingDiscoveryState where
  remoteIdentity : IdentityHash
  profile : Option Profile
  deriving DecidableEq

structure TelephonyServiceConfig where
  pollInterval : Duration
  incomingRingTimeout : Option Duration
  answerRetryInterval : Option Duration
  answerTimeout : Option Duration
  outgoingCallTimeout : Option Duration
  mediaFramesPerTick : Nat
  announceOnStart : Bool
  announceInterval : Option Duration
  startupAnnounceRetryInterval : Option Duration
  startupAnnounceRetries : Nat
  deriving DecidableEq

def TELEPHONY_ANNOUNCE_INTERVAL : Duration := fromSecs (60 * 60 * 3)
def TELEPHONY_STARTUP_ANNOUNCE_RETRY_INTERVAL : Duration := fromSecs 5
def TELEPHONY_STARTUP_ANNOUNCE_RETRIES : Nat := 6

def TelephonyServiceConfig.default : TelephonyServiceConfig :=
  { pollInterval := fromMillis 20
    incomingRingTimeout := some (fromSecs 60)
    answerRetryInterval := some (fromMillis 750)
    answerTimeout := some (fromSecs 5)
    outgoingCallTimeout := some (fromSecs 70)
    mediaFramesPerTick := 4
    announceOnStart := true
    announceInterval := some TELEPHONY_ANNOUNCE_INTERVAL
    startupAnnounceRetryInterval := some TELEPHONY_STARTUP_ANNOUNCE_RETRY_INTERVAL
    startupAnnounceRetries := TELEPHONY_STARTUP_ANNOUNCE_RETRIES }

inductive TelephonyServiceTimeoutKind
  | incomingRing
  | outgoingCall
  deriving DecidableEq

structure TelephonyServiceTimeout where
  linkId : LinkId
  kind : TelephonyServiceTimeoutKind
  expiresAt : Instant
  deriving DecidableEq

structure TelephonyAnsweringState where
  linkId : LinkId
  nextRetryAt : Option Instant
  expiresAt : Option Instant
  deriving DecidableEq

structure TelephonyService (rns : Rns) (audio : Audio) where
  endpoint : TelephonyRnsEndpoint rns
  core : TelephonyRuntimeCore
  /-- The events sent so far. -/
  events : List (TelephonyServiceEvent audio)
  eventsLeft : Option Nat
  config : TelephonyServiceConfig
  activeTimeout : Option TelephonyServiceTimeout
  answering : Option TelephonyAnsweringState
  nextAnnounceAt : Option Instant
  startupAnnounceRetriesRemaining : Nat
  outgoingDiscovery : Option OutgoingDiscoveryState
  media : TelephonyServiceMedia audio

abbrev ServiceM (rns : Rns) (audio : Audio) := Program (TelephonyService rns audio)

/-- The service events for the commands of a step. -/
def serviceEventsFromCommands {audio : Audio} (commands : List TelephonyCommand) :
    List (TelephonyServiceEvent audio) :=
  commands.filterMap fun
    | .ringIncomingCall linkId remoteIdentity => some (.incomingCall linkId remoteIdentity)
    | .callTerminated linkId reason => some (.callTerminated linkId reason)
    | _ => none

def isFrame : FrameStreamEvent → Bool
  | .frame _ => true
  | .codecChanged .. => false

def mediaReceivedEvent {audio : Audio} (step : TelephonyStep) :
    Option (TelephonyServiceEvent audio) :=
  step.inbound.bind fun inbound =>
    let frames := (inbound.frameEvents.filter isFrame).length
    if frames > 0 then some (.mediaReceived inbound.linkId frames) else none

/-- The Opus and Codec2 frames of a packet. -/
def opusFrames (inbound : InboundLxstPacket) : List Frame :=
  inbound.frameEvents.filterMap fun
    | .frame frame => if frame.codec = .opus ∨ frame.codec = .codec2 then some frame else none
    | .codecChanged .. => none

namespace TelephonyService

variable {rns : Rns} {audio : Audio}

/-- `TelephonyService::with_config` -/
def withConfig (endpoint : TelephonyRnsEndpoint rns) (core : TelephonyRuntimeCore)
    (config : TelephonyServiceConfig) (eventsLeft : Option Nat) (now : Instant) :
    TelephonyService rns audio :=
  { endpoint, core, events := [], eventsLeft, config
    activeTimeout := none
    answering := none
    nextAnnounceAt := if config.announceOnStart then some now
      else config.announceInterval.map (now + ·)
    startupAnnounceRetriesRemaining :=
      if config.announceOnStart ∧ config.startupAnnounceRetryInterval.isSome then
        config.startupAnnounceRetries
      else 0
    outgoingDiscovery := none
    media := .default }

/-! ## Emitting -/

def emitServiceEvent (event : TelephonyServiceEvent audio) : ServiceM rns audio Bool := fun self =>
  match self.eventsLeft with
  | some 0 => (false, self)
  | some (left + 1) =>
    (true, { self with events := self.events ++ [event.published], eventsLeft := some left })
  | none => (true, { self with events := self.events ++ [event.published] })

def emitServiceEvents : List (TelephonyServiceEvent audio) → ServiceM rns audio Bool
  | [] => pure true
  | event :: events => do
    if ← emitServiceEvent event then emitServiceEvents events else pure false

def emitServiceError (error : Error) : ServiceM rns audio Bool :=
  emitServiceEvent (.error error.toText)

def emitSnapshot : ServiceM rns audio Bool := do
  let self ← Program.get
  emitServiceEvent (.snapshot self.core.snapshot)

/-- Runs a method of the endpoint. -/
def onEndpoint {α : Type} (method : EndpointE rns α) :
    ServiceM rns audio (Except Error α) := fun self =>
  let (result, endpoint) := method self.endpoint
  (result, { self with endpoint })

/-! ## Timers -/

/-- The timer of a call in this phase, with its configured duration. -/
def desiredTimeout (config : TelephonyServiceConfig) (active : ActiveCallSnapshot) :
    Option (TelephonyServiceTimeoutKind × Duration) :=
  match active.role with
  | .incoming =>
    if active.status = .ringing then config.incomingRingTimeout.map (.incomingRing, ·) else none
  | .outgoing =>
    if active.status ≠ .established then config.outgoingCallTimeout.map (.outgoingCall, ·)
    else none

/-- The answering state belongs to the active call, which waits for the answer's echo. -/
def answeringCall (answering : TelephonyAnsweringState) (active : ActiveCallSnapshot) : Bool :=
  active.linkId = answering.linkId ∧ active.role = .incoming ∧ active.answered ∧
    active.status = .connecting

def refreshActiveTimeout (now : Instant) :
    ServiceM rns audio (List (TelephonyServiceEvent audio)) := fun self =>
  let active := self.core.snapshot.activeCall
  let (streamEvents, media) := self.media.clearUnlessEstablished active
  let answering := self.answering.filter fun answering => active.any (answeringCall answering)
  let activeTimeout :=
    match active with
    | none => none
    | some active =>
      match desiredTimeout self.config active with
      | none => none
      | some (kind, duration) =>
        if self.activeTimeout.any fun timeout =>
            timeout.linkId = active.linkId ∧ timeout.kind = kind then
          self.activeTimeout
        else some { linkId := active.linkId, kind, expiresAt := now + duration }
  (streamEvents, { self with media, answering, activeTimeout })

/-- Emits the stream events of a refresh. -/
def refreshAndEmit (now : Instant) : ServiceM rns audio Bool := do
  let streamEvents ← refreshActiveTimeout now
  emitServiceEvents streamEvents

/-! ## Publishing commands -/

def publishCommands (commands : List TelephonyCommand) (effects : List TelephonyCommandEffect)
    (now : Instant) : ServiceM rns audio (Except Error Unit) := do
  let streamEvents ← refreshActiveTimeout now
  if ← emitServiceEvent (.drive { step := .ofCommands commands, effects }) then
    if ← emitServiceEvents (serviceEventsFromCommands commands) then
      if ← emitServiceEvents streamEvents then
        if ← emitSnapshot then pure (.ok ()) else pure (.error .serviceEventClosed)
      else pure (.error .serviceEventClosed)
    else pure (.error .serviceEventClosed)
  else pure (.error .serviceEventClosed)

def controlCommands (commands : Except Error (List TelephonyCommand)) (now : Instant) :
    ServiceM rns audio (Except Error Unit) := do
  match commands with
  | .error error => pure (.error error)
  | .ok commands =>
    match ← onEndpoint (TelephonyRnsEndpoint.executeCommands commands) with
    | .error error => pure (.error error)
    | .ok effects => publishCommands commands effects now

/-- `match result { Ok(()) => true, Err(err) => emit_service_error(..).await }` -/
def reportError (result : Except Error Unit) : ServiceM rns audio Bool :=
  match result with
  | .ok () => pure true
  | .error error => emitServiceError error

/-! ## Streams -/

def stopOpusStream (reason : OpusTransmitStreamStopReason) : ServiceM rns audio Bool := do
  let self ← Program.get
  match self.media.opusTransmitStream with
  | none => pure true
  | some stream => do
    Program.set { self with media.opusTransmitStream := none }
    emitServiceEvent (.opusTransmitStreamStopped stream.linkId stream.profile reason)

def stopOpusReceiveStream (reason : OpusReceiveStreamStopReason) : ServiceM rns audio Bool := do
  let self ← Program.get
  match self.media.opusReceiveStream with
  | none => pure true
  | some stream => do
    Program.set { self with media.opusReceiveStream := none }
    emitServiceEvent (.opusReceiveStreamStopped stream.linkId stream.profile reason)

/-- The active call if media may flow. -/
def establishedCall (core : TelephonyRuntimeCore) : Except Error ActiveCall :=
  match core.activeCall with
  | none => .error .noActiveCall
  | some active =>
    if active.call.status ≠ .established then .error .callNotEstablished else .ok active

/-- The active call if media of the profile may flow. -/
def establishedCallWith (core : TelephonyRuntimeCore) (profile : Profile) :
    Except Error ActiveCall := do
  let active ← establishedCall core
  let activeProfile := active.call.profile.getD Profile.DEFAULT
  if profile ≠ activeProfile then .error (.mediaProfileMismatch activeProfile profile)
  else .ok active

/-- The result of the event that ends a media control. -/
def sentOrClosed (sent : Bool) : Except Error Unit :=
  if sent then .ok () else .error .serviceEventClosed

def startOpusReceiveStream (framesTx : BoundedQueue audio.Pcm) :
    ServiceM rns audio (Except Error Unit) := do
  let self ← Program.get
  match establishedCall self.core with
  | .error error => pure (.error error)
  | .ok active => do
    let profile := active.call.profile.getD Profile.DEFAULT
    let _ ← stopOpusReceiveStream .replaced
    Program.modify fun self => { self with
      media.opusReceiveStream := some { linkId := active.linkId, profile, framesTx } }
    let sent ← emitServiceEvent (.opusReceiveStreamStarted active.linkId profile)
    pure (sentOrClosed sent)

def startOpusStream (profile : Profile) (framesRx : Mailbox audio.Pcm) :
    ServiceM rns audio (Except Error Unit) := do
  let self ← Program.get
  match establishedCallWith self.core profile with
  | .error error => pure (.error error)
  | .ok active => do
    let _ ← stopOpusStream .replaced
    Program.modify fun self => { self with
      media.opusTransmitStream :=
        some { linkId := active.linkId, profile, framesRx, gate := none, gateSerial := 0 } }
    let sent ← emitServiceEvent (.opusTransmitStreamStarted active.linkId profile)
    pure (sentOrClosed sent)

def startAudioStream (linkId : LinkId) (gate : Option AudioTransmitGate) (profile : Profile)
    (framesRx : Mailbox audio.Pcm) : ServiceM rns audio (Except Error Unit) := do
  let self ← Program.get
  if self.core.activeCall.any (·.linkId = linkId) then do
    let result ← startOpusStream profile framesRx
    match result with
    | .ok () => Program.modify fun self => { self with
        media.opusTransmitStream :=
          self.media.opusTransmitStream.map fun stream => { stream with gate } }
    | .error _ => pure ()
    pure result
  else pure (.error .wrongActiveLink)

/-! ## Sending media -/

/-- The `MediaSent` event of frames that the endpoint has queued. -/
def emitMediaSent (linkId : LinkId) (frames : Nat) (queued : Except Error Nat) :
    ServiceM rns audio (Except Error Unit) :=
  match queued with
  | .error error => pure (.error error)
  | .ok packets => do
    let sent ← emitServiceEvent (.mediaSent linkId frames packets)
    pure (sentOrClosed sent)

def sendRawFrames (bitDepth : RawBitDepth) (frames : List audio.Pcm) :
    ServiceM rns audio (Except Error Unit) := do
  let self ← Program.get
  match establishedCall self.core with
  | .error error => pure (.error error)
  | .ok active => do
    let queued ← onEndpoint
      (TelephonyRnsEndpoint.queueRawFrames audio active.linkId bitDepth frames)
    emitMediaSent active.linkId frames.length queued

/-- Whether the gate of the transmit stream lets frames pass; the check may note an expiry. -/
def gateAllows (now : Instant) : ServiceM rns audio Bool := do
  let self ← Program.get
  match self.media.opusTransmitStream with
  | some stream =>
    match stream.gate with
    | some gate => do
      let (allowed, gate) := gate.allows now
      Program.set { self with
        media.opusTransmitStream := some { stream with gate := some gate } }
      pure allowed
    | none => pure true
  | none => pure true

def sendOpusFrames (profile : Profile) (frames : List audio.Pcm) (now : Instant) :
    ServiceM rns audio (Except Error Unit) := do
  let self ← Program.get
  match establishedCallWith self.core profile with
  | .error error => pure (.error error)
  | .ok active =>
    match self.media.opusEncoderFor active.linkId profile with
    | .error error => pure (.error error)
    | .ok encoder => do
      let (encoded, encoder) := codeAll audio.encodeFrame encoder frames
      Program.set { self with
        media.opusEncoder := some { linkId := active.linkId, profile, encoder } }
      match encoded with
      | .error error => pure (.error error)
      | .ok encoded => do
        -- the serial cannot change between capture and check within one handler
        if ← gateAllows now then do
          let queued ← onEndpoint (TelephonyRnsEndpoint.queueFrames active.linkId encoded)
          emitMediaSent active.linkId frames.length queued
        else pure (.ok ())

/-- `try_recv` up to `count` times: the frames that the gate lets pass, what is left, and whether
the source has closed. -/
def drainFrames (now : Instant) : (count : Nat) → Option AudioTransmitGate → Mailbox audio.Pcm →
    List audio.Pcm × Option AudioTransmitGate × Mailbox audio.Pcm × Bool
  | 0, gate, framesRx => ([], gate, framesRx, false)
  | count + 1, gate, framesRx =>
    match framesRx.queue with
    | [] => ([], gate, framesRx, !framesRx.connected)
    | frame :: queue =>
      let (allowed, gate) := match gate with
        | some gate =>
          let (allowed, gate) := gate.allows now
          (allowed, some gate)
        | none => (true, none)
      let (frames, rest) := drainFrames now count gate { framesRx with queue }
      (if allowed then frame :: frames else frames, rest)

/-- A new serial of the gate flushes the frames of the earlier edge. -/
def flushOnEdge (stream : ActiveOpusTransmitStream audio) : ActiveOpusTransmitStream audio :=
  match stream.gate with
  | some gate =>
    if gate.serial ≠ stream.gateSerial then
      { stream with framesRx.queue := [], gateSerial := gate.serial }
    else stream
  | none => stream

def drainOpusStreamFrames (now : Instant) :
    ServiceM rns audio (Option (Profile × List audio.Pcm × Bool)) := do
  let self ← Program.get
  match self.media.opusTransmitStream with
  | none => pure none
  | some stream => do
    let stream := flushOnEdge stream
    let (frames, gate, framesRx, sourceClosed) :=
      drainFrames now (max self.config.mediaFramesPerTick 1) stream.gate stream.framesRx
    Program.set { self with media.opusTransmitStream := some { stream with gate, framesRx } }
    if frames.isEmpty ∧ !sourceClosed then pure none
    else pure (some (stream.profile, frames, sourceClosed))

def pumpOpusStream (now : Instant) : ServiceM rns audio Bool := do
  match ← drainOpusStreamFrames now with
  | none => pure true
  | some (profile, frames, sourceClosed) => do
    let sent ← if frames.isEmpty then pure (.ok ()) else sendOpusFrames profile frames now
    match sent with
    | .error error => do
      Program.modify fun self => { self with media.opusTransmitStream := none }
      emitServiceError error
    | .ok () => if sourceClosed then stopOpusStream .sourceClosed else pure true

/-! ## Link events -/

/-- `try_send` of the frames: delivered, dropped, whether the sink has closed, and the sink. -/
def deliverFrames : BoundedQueue audio.Pcm → List audio.Pcm →
    Nat × Nat × Bool × BoundedQueue audio.Pcm
  | framesTx, [] => (0, 0, false, framesTx)
  | framesTx, frame :: frames =>
    match framesTx.trySend frame with
    | (.error .closed, framesTx) => (0, 0, true, framesTx)
    | (.error .full, framesTx) =>
      let (delivered, dropped, rest) := deliverFrames framesTx frames
      (delivered, dropped + 1, rest)
    | (.ok (), framesTx) =>
      let (delivered, rest) := deliverFrames framesTx frames
      (delivered + 1, rest)

def deliverOpusReceiveStream (linkId : LinkId) (profile : Profile) (frames : List audio.Pcm) :
    ServiceM rns audio (List (TelephonyServiceEvent audio)) := do
  let self ← Program.get
  match self.media.opusReceiveStream with
  | none => pure []
  | some stream =>
    if stream.linkId ≠ linkId ∨ stream.profile ≠ profile then do
      Program.set { self with media.opusReceiveStream := none }
      pure []
    else do
      let (delivered, dropped, sinkClosed, framesTx) := deliverFrames stream.framesTx frames
      Program.set { self with
        media.opusReceiveStream := if sinkClosed then none else some { stream with framesTx } }
      pure ((if delivered > 0 ∨ dropped > 0 then
          [.opusReceiveStreamFrames linkId profile delivered dropped] else []) ++
        if sinkClosed then
          [.opusReceiveStreamStopped stream.linkId stream.profile .sinkClosed] else [])

def opusReceivedEvents (step : TelephonyStep) :
    ServiceM rns audio (Except Error (List (TelephonyServiceEvent audio))) := do
  let self ← Program.get
  match step.inbound with
  | none => pure (.ok [])
  | some inbound =>
    let frames := opusFrames inbound
    if frames.isEmpty then pure (.ok [])
    else
      match self.core.activeCall with
      | none => pure (.error .noActiveCall)
      | some active =>
        if active.linkId ≠ inbound.linkId then pure (.error .wrongActiveLink)
        else if active.call.status ≠ .established then pure (.ok [])
        else
          let profile := active.call.profile.getD Profile.DEFAULT
          match self.media.opusDecoderFor active.linkId profile with
          | .error error => pure (.error error)
          | .ok decoder => do
            let (decoded, decoder) := codeAll audio.decodeFrame decoder frames
            Program.set { self with
              media.opusDecoder := some { linkId := active.linkId, profile, decoder } }
            match decoded with
            | .error error => pure (.error error)
            | .ok decoded => do
              let events ← deliverOpusReceiveStream active.linkId profile decoded
              pure (.ok (.opusFramesReceived active.linkId profile decoded :: events))

/-- The media events of a step; an error is reported in their place. -/
def stepMediaEvents (step : TelephonyStep) :
    ServiceM rns audio (Option (List (TelephonyServiceEvent audio))) := do
  match ← opusReceivedEvents step with
  | .ok events => pure (some events)
  | .error error => if ← emitServiceError error then pure (some []) else pure none

/-- Everything that one driven step is reported as. -/
def publishDriveStep (step : TelephonyDriveStep) : ServiceM rns audio Bool := do
  match ← stepMediaEvents step.step with
  | none => pure false
  | some opusReceived =>
    if ← emitServiceEvent (.drive step) then
      if ← emitServiceEvents (serviceEventsFromCommands step.step.commands) then
        if ← emitServiceEvents (mediaReceivedEvent step.step).toList then
          emitServiceEvents opusReceived
        else pure false
      else pure false
    else pure false

def publishDriveSteps : List TelephonyDriveStep → ServiceM rns audio Bool
  | [] => pure true
  | step :: steps => do
    if ← publishDriveStep step then publishDriveSteps steps else pure false

/-- `drive_ready` after `try_drive_ready` has returned. -/
def publishDriven (result : Except Error (List TelephonyDriveStep)) (now : Instant) :
    ServiceM rns audio Bool := do
  match result with
  | .error error => emitServiceError error
  | .ok steps =>
    if ← publishDriveSteps steps then
      if steps.isEmpty then pure true
      else if ← refreshAndEmit now then emitSnapshot
      else pure false
    else pure false

/-- `drive_ready`; it has not returned if the link events need more fuel. -/
def driveReady (fuel : Nat) (now : Instant) (self : TelephonyService rns audio) :
    Option (Bool × TelephonyService rns audio) :=
  (TelephonyRnsEndpoint.tryDriveReady fuel { endpoint := self.endpoint, core := self.core }).map
    fun (result, line) =>
      publishDriven result now { self with endpoint := line.endpoint, core := line.core }

/-! ## Answering -/

/-- A configured interval that is not zero, from now. -/
def deadline (interval : Option Duration) (now : Instant) : Option Instant :=
  (interval.filter (· ≠ 0)).map (now + ·)

def answerExact (expectedLinkId : LinkId) (now : Instant) :
    ServiceM rns audio (Except Error ActiveCallSnapshot) := do
  let self ← Program.get
  let previousActive := self.core.activeCall
  match self.core.answerActive expectedLinkId with
  | (.error error, core) => do
    Program.set { self with core }
    pure (.error error)
  | (.ok commands, core) => do
    Program.set { self with core }
    match ← onEndpoint (TelephonyRnsEndpoint.executeSignallingBatch commands) with
    | .error error => do
      Program.modify fun self => { self with core.activeCall := previousActive }
      pure (.error error)
    | .ok effects => do
      Program.modify fun self => { self with
        answering := some
          { linkId := expectedLinkId
            nextRetryAt := deadline self.config.answerRetryInterval now
            expiresAt := deadline self.config.answerTimeout now } }
      match ← publishCommands commands effects now with
      | .error error => pure (.error error)
      | .ok () => do
        let self ← Program.get
        match self.core.snapshot.activeCall with
        | none => pure (.error .noActiveCall)
        | some active =>
          if active.linkId ≠ expectedLinkId then pure (.error .wrongActiveLink)
          else pure (.ok active)

/-- The `Answer` control; the reply to the caller is not part of the service. -/
def handleAnswer (expectedLinkId : LinkId) (now : Instant) : ServiceM rns audio Bool := do
  match ← answerExact expectedLinkId now with
  | .ok _ => pure true
  | .error .serviceEventClosed => pure false
  | .error error => emitServiceError error

/-! ## Handlers -/

def startOutgoingDiscovery (remoteIdentity : IdentityHash) (profile : Option Profile) :
    ServiceM rns audio Bool := do
  let self ← Program.get
  if self.core.lineBusy ∨ self.outgoingDiscovery.isSome then emitServiceError .lineBusy
  else do
    Program.set { self with outgoingDiscovery := some { remoteIdentity, profile } }
    emitServiceEvent (.outgoingCallPending remoteIdentity)

def handleHangup (ringTimeout : Bool) (now : Instant) : ServiceM rns audio Bool := do
  let self ← Program.get
  match self.outgoingDiscovery with
  | some discovery => do
    Program.set { self with outgoingDiscovery := none }
    emitServiceEvent (.outgoingCallFailed discovery.remoteIdentity "cancelled")
  | none => do
    let (commands, core) := self.core.hangupActive ringTimeout
    Program.set { self with core }
    let result ← controlCommands commands now
    reportError result

def handleAnnounce (now : Instant) (entropy : Nat) : ServiceM rns audio Bool := do
  let result ← onEndpoint (TelephonyRnsEndpoint.announce entropy)
  match result with
  | .ok () => Program.modify fun self => { self with
      startupAnnounceRetriesRemaining := 0
      nextAnnounceAt := self.config.announceInterval.map (now + ·) }
  | .error _ => pure ()
  reportError result

def handleSwitchProfile (profile : Profile) (now : Instant) : ServiceM rns audio Bool := do
  let self ← Program.get
  let (commands, core) := self.core.switchActiveProfile profile
  Program.set { self with core }
  let result ← controlCommands commands now
  reportError result

def handleSetExternalBusy (busy : Bool) (now : Instant) : ServiceM rns audio Bool := do
  Program.modify fun self => { self with core := self.core.setExternalBusy busy }
  if ← refreshAndEmit now then emitSnapshot else pure false

def handleControl (control : TelephonyControl audio) (now : Instant) (entropy : Nat) :
    ServiceM rns audio Bool :=
  match control with
  | .announce => handleAnnounce now entropy
  | .call remoteIdentity profile => startOutgoingDiscovery remoteIdentity profile
  | .answer expectedLinkId => handleAnswer expectedLinkId now
  | .hangup ringTimeout => handleHangup ringTimeout now
  | .sendRawFrames bitDepth frames => do reportError (← sendRawFrames bitDepth frames)
  | .sendOpusFrames profile frames | .sendAudioFrames profile frames => do
    reportError (← sendOpusFrames profile frames now)
  | .startAudioStream linkId gate profile frames => do
    reportError (← startAudioStream linkId gate profile frames)
  | .startOpusStream profile frames => do reportError (← startOpusStream profile frames)
  | .stopOpusStream | .stopAudioStream => stopOpusStream .requested
  | .startOpusReceiveStream frames | .startAudioReceiveStream frames => do
    reportError (← startOpusReceiveStream frames)
  | .stopOpusReceiveStream | .stopAudioReceiveStream => stopOpusReceiveStream .requested
  | .switchProfile profile => handleSwitchProfile profile now
  | .setExternalBusy busy => handleSetExternalBusy busy now
  | .setAccessPolicy access => do
    Program.modify fun self => { self with core := self.core.setAccessPolicy access }
    pure true
  | .shutdown => pure false

/-- The link of a peer that the discovery has found. -/
def beginOutgoing (remoteIdentity : IdentityHash) (profile : Option Profile)
    (result : Except Error RemoteTelephonyPeer) (entropy : Nat) :
    ServiceM rns audio (Except Error LinkId) := fun self =>
  match result with
  | .error error => (.error error, self)
  | .ok peer =>
    let (result, endpoint, core) := self.endpoint.beginOutgoingLinkWithRemotePubkey self.core
      remoteIdentity peer.publicKey profile peer.hops entropy
    (result, { self with endpoint, core })

def handleInternal (event : TelephonyInternalEvent) (now : Instant) (entropy : Nat) :
    ServiceM rns audio Bool := do
  let .outgoingDiscoveryCompleted remoteIdentity profile result := event
  let self ← Program.get
  if self.outgoingDiscovery ≠ some { remoteIdentity, profile } then pure true
  else do
    Program.set { self with outgoingDiscovery := none }
    match ← beginOutgoing remoteIdentity profile result entropy with
    | .ok linkId =>
      if ← refreshAndEmit now then
        if ← emitServiceEvent (.outgoingCallStarted linkId remoteIdentity) then emitSnapshot
        else pure false
      else pure false
    | .error error => emitServiceEvent (.outgoingCallFailed remoteIdentity error.toText)

/-- The interval that an announce failure waits for. -/
def announceRetryInterval (config : TelephonyServiceConfig) : Duration :=
  max config.pollInterval (fromSecs 1)

def handleDueAnnounce (now : Instant) (entropy : Nat) : ServiceM rns audio Bool := do
  let self ← Program.get
  if self.nextAnnounceAt.any (· ≤ now) then do
    match ← onEndpoint (TelephonyRnsEndpoint.announce entropy) with
    | .ok () => do
      Program.modify fun self =>
        if self.startupAnnounceRetriesRemaining > 0 then
          { self with
            startupAnnounceRetriesRemaining := self.startupAnnounceRetriesRemaining - 1
            nextAnnounceAt := self.config.startupAnnounceRetryInterval.map (now + ·) }
        else { self with nextAnnounceAt := self.config.announceInterval.map (now + ·) }
      pure true
    | .error error => do
      Program.modify fun self => { self with
        nextAnnounceAt := some (now + announceRetryInterval self.config) }
      emitServiceError error
  else pure true

def timeoutAnswering (linkId : LinkId) (now : Instant) : ServiceM rns audio Bool := do
  Program.modify fun self => { self with answering := none }
  let self ← Program.get
  match self.core.timeoutAnswerActive linkId with
  | (.error _, core) => do
    Program.set { self with core }
    pure true
  | (.ok commands, core) => do
    Program.set { self with core }
    let result ← onEndpoint (TelephonyRnsEndpoint.executeCommands commands)
    let effects := match result with
      | .ok effects => effects
      | .error _ => commands.map fun _ => .noop
    match ← publishCommands commands effects now with
    | .error _ => pure false
    | .ok () =>
      match result with
      | .ok _ => pure true
      | .error error => emitServiceError error

/-- The retry batch of an unanswered offer: its effects if the batch was queued. -/
def sendRetry (commands : List TelephonyCommand) :
    ServiceM rns audio (Option (List TelephonyCommandEffect)) := do
  match ← onEndpoint (TelephonyRnsEndpoint.executeSignallingBatch commands) with
  | .ok effects => pure (some effects)
  | .error .transportFull => pure none
  | .error error => do
    let _ ← emitServiceError error
    pure none

def retryAnswering (answering : TelephonyAnsweringState) (now : Instant) :
    ServiceM rns audio Bool := do
  let self ← Program.get
  match self.core.retryAnswerActive answering.linkId with
  | .error _ => do
    Program.set { self with answering := none }
    pure true
  | .ok commands => do
    let effects ← sendRetry commands
    Program.modify fun self => { self with
      answering := self.answering.map fun answering => { answering with
        nextRetryAt := deadline self.config.answerRetryInterval now } }
    match effects with
    | some effects => emitServiceEvent (.drive { step := .ofCommands commands, effects })
    | none => pure true

def handleDueAnswerRetry (now : Instant) : ServiceM rns audio Bool := do
  let self ← Program.get
  match self.answering with
  | none => pure true
  | some answering =>
    if answering.expiresAt.any (· ≤ now) then timeoutAnswering answering.linkId now
    else if answering.nextRetryAt.any (· ≤ now) then retryAnswering answering now
    else pure true

/-- The timer's call is still in the phase it was armed for. -/
def timeoutApplies (kind : TelephonyServiceTimeoutKind) (active : ActiveCallSnapshot) : Bool :=
  match kind with
  | .incomingRing => active.role = .incoming ∧ active.status = .ringing
  | .outgoingCall => active.role = .outgoing ∧ active.status ≠ .established

def handleDueTimeout (now : Instant) : ServiceM rns audio Bool := do
  let self ← Program.get
  match self.activeTimeout with
  | none => pure true
  | some timeout =>
    if now < timeout.expiresAt then pure true
    else
      match self.core.snapshot.activeCall with
      | none => do
        Program.set { self with activeTimeout := none }
        pure true
      | some active =>
        if active.linkId ≠ timeout.linkId ∨ !timeoutApplies timeout.kind active then
          refreshAndEmit now
        else do
          let (commands, core) := self.core.hangupActive (timeout.kind = .incomingRing)
          Program.set { self with activeTimeout := none, core }
          let result ← controlCommands commands now
          reportError result

/-- `shutdown`, when the loop of `run` has ended. -/
def shutdown (now : Instant) : ServiceM rns audio Unit := do
  Program.modify fun self => { self with outgoingDiscovery := none }
  let self ← Program.get
  let (commands, core) := self.core.shutdown
  Program.set { self with core }
  if !commands.isEmpty then do
    let _ ← controlCommands (.ok commands) now
  let self ← Program.get
  let (streamEvents, media) := self.media.clearUnlessEstablished none
  Program.set { self with media }
  let _ ← emitServiceEvents streamEvents
  Program.modify fun self => { self with activeTimeout := none, answering := none }

/-- The endpoint methods, one after another, whatever they return. -/
def onEndpointAll : List (EndpointE rns Unit) → ServiceM rns audio Unit
  | [] => pure ()
  | method :: methods => do
    let _ ← onEndpoint method
    onEndpointAll methods

def deregisterDestinations : ServiceM rns audio Unit := do
  let self ← Program.get
  let linkIds := self.endpoint.outgoingAttempts.keys ++ self.endpoint.outgoingLinks.keys
  onEndpointAll (linkIds.map TelephonyRnsEndpoint.deregisterLinkDestination ++
    [TelephonyRnsEndpoint.deregisterDestination])

/-- The end of `run`. -/
def stop (now : Instant) : ServiceM rns audio Unit := do
  shutdown now
  deregisterDestinations
  let _ ← emitServiceEvent .stopped

end TelephonyService

end Lxst.Telephony
