import RsLxst.Telephony.CaptureGate
import RsLxst.Telephony.LinkEvents

/-!
# Media of the telephony service

The codecs, the streams of `TelephonyServiceMedia`, and the endpoint's media sends. PCM frames and
the codec libraries are the parameter `Audio`; its errors are those of the wrappers in `media.rs`.
-/

set_option autoImplicit false

namespace Lxst.Telephony

inductive RawBitDepth
  | float16
  | float32
  | float64
  | float128
  deriving DecidableEq, Repr

structure Audio where
  Pcm : Type
  Encoder : Type
  Decoder : Type
  newEncoder : Profile → Except Error Encoder
  encodeFrame : Encoder → Pcm → Except Error Frame × Encoder
  newDecoder : Profile → Except Error Decoder
  decodeFrame : Decoder → Frame → Except Error Pcm × Decoder
  /-- `RawAudioFrame::to_frame` -/
  toFrame : RawBitDepth → Pcm → Except Error Frame

/-- Audio without content, for runs on fixed inputs. -/
def Audio.plain : Audio :=
  { Pcm := Unit
    Encoder := Unit
    Decoder := Unit
    newEncoder := fun _ => .ok ()
    encodeFrame := fun encoder _ => (.ok { codec := .opus, payload := [] }, encoder)
    newDecoder := fun _ => .ok ()
    decodeFrame := fun decoder _ => (.ok (), decoder)
    toFrame := fun _ _ => .ok { codec := .raw, payload := [] } }

/-- `opus_payload_ceiling_bytes` has a value: the profile's codec is Opus. -/
def isOpusProfile : Profile → Bool
  | .bandwidthUltraLow | .bandwidthVeryLow | .bandwidthLow => false
  | _ => true

/-! ## Events -/

inductive OpusTransmitStreamStopReason
  | requested
  | replaced
  | sourceClosed
  | callEnded
  | profileChanged
  deriving DecidableEq, Repr

inductive OpusReceiveStreamStopReason
  | requested
  | replaced
  | sinkClosed
  | callEnded
  | profileChanged
  deriving DecidableEq, Repr

inductive TelephonyServiceEvent (audio : Audio)
  | outgoingCallPending (remoteIdentity : IdentityHash)
  | outgoingCallStarted (linkId : LinkId) (remoteIdentity : IdentityHash)
  | outgoingCallFailed (remoteIdentity : IdentityHash) (message : String)
  | incomingCall (linkId : LinkId) (remoteIdentity : IdentityHash)
  | callTerminated (linkId : LinkId) (reason : Option SignallingStatus)
  | mediaSent (linkId : LinkId) (frames packets : Nat)
  | mediaReceived (linkId : LinkId) (frames : Nat)
  | opusFramesReceived (linkId : LinkId) (profile : Profile) (frames : List audio.Pcm)
  | opusTransmitStreamStarted (linkId : LinkId) (profile : Profile)
  | opusTransmitStreamStopped (linkId : LinkId) (profile : Profile)
      (reason : OpusTransmitStreamStopReason)
  | opusReceiveStreamStarted (linkId : LinkId) (profile : Profile)
  | opusReceiveStreamStopped (linkId : LinkId) (profile : Profile)
      (reason : OpusReceiveStreamStopReason)
  | opusReceiveStreamFrames (linkId : LinkId) (profile : Profile) (frames dropped : Nat)
  | audioFramesReceived (linkId : LinkId) (profile : Profile) (frames : List audio.Pcm)
  | audioTransmitStreamStarted (linkId : LinkId) (profile : Profile)
  | audioTransmitStreamStopped (linkId : LinkId) (profile : Profile)
      (reason : OpusTransmitStreamStopReason)
  | audioReceiveStreamStarted (linkId : LinkId) (profile : Profile)
  | audioReceiveStreamStopped (linkId : LinkId) (profile : Profile)
      (reason : OpusReceiveStreamStopReason)
  | audioReceiveStreamFrames (linkId : LinkId) (profile : Profile) (frames dropped : Nat)
  | snapshot (snapshot : TelephonyRuntimeSnapshot)
  | drive (step : TelephonyRnsEndpoint.TelephonyDriveStep)
  | error (message : String)
  | stopped

/-- The event that `emit_service_event` sends: profiles that are not Opus are reported as audio. -/
def TelephonyServiceEvent.published {audio : Audio} :
    TelephonyServiceEvent audio → TelephonyServiceEvent audio
  | .opusFramesReceived linkId profile frames =>
    if isOpusProfile profile then .opusFramesReceived linkId profile frames
    else .audioFramesReceived linkId profile frames
  | .opusTransmitStreamStarted linkId profile =>
    if isOpusProfile profile then .opusTransmitStreamStarted linkId profile
    else .audioTransmitStreamStarted linkId profile
  | .opusTransmitStreamStopped linkId profile reason =>
    if isOpusProfile profile then .opusTransmitStreamStopped linkId profile reason
    else .audioTransmitStreamStopped linkId profile reason
  | .opusReceiveStreamStarted linkId profile =>
    if isOpusProfile profile then .opusReceiveStreamStarted linkId profile
    else .audioReceiveStreamStarted linkId profile
  | .opusReceiveStreamStopped linkId profile reason =>
    if isOpusProfile profile then .opusReceiveStreamStopped linkId profile reason
    else .audioReceiveStreamStopped linkId profile reason
  | .opusReceiveStreamFrames linkId profile frames dropped =>
    if isOpusProfile profile then .opusReceiveStreamFrames linkId profile frames dropped
    else .audioReceiveStreamFrames linkId profile frames dropped
  | other => other

/-! ## Streams -/

structure ActiveOpusEncoder (audio : Audio) where
  linkId : LinkId
  profile : Profile
  encoder : audio.Encoder

structure ActiveOpusDecoder (audio : Audio) where
  linkId : LinkId
  profile : Profile
  decoder : audio.Decoder

structure ActiveOpusTransmitStream (audio : Audio) where
  linkId : LinkId
  profile : Profile
  framesRx : Mailbox audio.Pcm
  gate : Option AudioTransmitGate
  gateSerial : UInt64

structure ActiveOpusReceiveStream (audio : Audio) where
  linkId : LinkId
  profile : Profile
  framesTx : BoundedQueue audio.Pcm

structure TelephonyServiceMedia (audio : Audio) where
  opusEncoder : Option (ActiveOpusEncoder audio)
  opusDecoder : Option (ActiveOpusDecoder audio)
  opusTransmitStream : Option (ActiveOpusTransmitStream audio)
  opusReceiveStream : Option (ActiveOpusReceiveStream audio)

namespace TelephonyServiceMedia

variable {audio : Audio}

def default : TelephonyServiceMedia audio :=
  { opusEncoder := none, opusDecoder := none, opusTransmitStream := none,
    opusReceiveStream := none }

/-- Drops everything that is not of the established call, with the stop events. -/
def clearUnlessEstablished (self : TelephonyServiceMedia audio)
    (active : Option ActiveCallSnapshot) :
    List (TelephonyServiceEvent audio) × TelephonyServiceMedia audio :=
  match active.filter (·.status = .established) with
  | none =>
    ((self.opusTransmitStream.map fun stream =>
        .opusTransmitStreamStopped stream.linkId stream.profile .callEnded).toList ++
      (self.opusReceiveStream.map fun stream =>
        .opusReceiveStreamStopped stream.linkId stream.profile .callEnded).toList, default)
  | some active =>
    let stale (linkId : LinkId) (profile : Profile) : Bool :=
      linkId ≠ active.linkId ∨ some profile ≠ active.profile
    let transmitStopped := self.opusTransmitStream.filter fun s => stale s.linkId s.profile
    let receiveStopped := self.opusReceiveStream.filter fun s => stale s.linkId s.profile
    ((transmitStopped.map fun stream =>
        .opusTransmitStreamStopped stream.linkId stream.profile
          (if stream.linkId = active.linkId then .profileChanged else .callEnded)).toList ++
      (receiveStopped.map fun stream =>
        .opusReceiveStreamStopped stream.linkId stream.profile
          (if stream.linkId = active.linkId then .profileChanged else .callEnded)).toList,
      { opusEncoder := self.opusEncoder.filter (·.linkId = active.linkId)
        opusDecoder := self.opusDecoder.filter (·.linkId = active.linkId)
        opusTransmitStream := self.opusTransmitStream.filter fun s => !stale s.linkId s.profile
        opusReceiveStream := self.opusReceiveStream.filter fun s => !stale s.linkId s.profile })

/-- The encoder for the link and profile, a new one unless it is there. -/
def opusEncoderFor (self : TelephonyServiceMedia audio) (linkId : LinkId) (profile : Profile) :
    Except Error audio.Encoder :=
  match self.opusEncoder.filter fun e => e.linkId = linkId ∧ e.profile = profile with
  | some active => .ok active.encoder
  | none => audio.newEncoder profile

def opusDecoderFor (self : TelephonyServiceMedia audio) (linkId : LinkId) (profile : Profile) :
    Except Error audio.Decoder :=
  match self.opusDecoder.filter fun d => d.linkId = linkId ∧ d.profile = profile with
  | some active => .ok active.decoder
  | none => audio.newDecoder profile

end TelephonyServiceMedia

/-- `collect` over frames of a codec: the results up to the first error, and the codec after. -/
def codeAll {codec α β : Type} (code : codec → α → Except Error β × codec) :
    codec → List α → Except Error (List β) × codec
  | c, [] => (.ok [], c)
  | c, frame :: frames =>
    match code c frame with
    | (.error error, c) => (.error error, c)
    | (.ok coded, c) =>
      match codeAll code c frames with
      | (.error error, c) => (.error error, c)
      | (.ok rest, c) => (.ok (coded :: rest), c)

/-! ## Media sends -/

namespace TelephonyRnsEndpoint

variable {rns : Rns}

/-- `media_drop_count`: a link without a counter has none. -/
def mediaDropCount (self : TelephonyRnsEndpoint rns) (linkId : LinkId) : Nat :=
  (self.mediaDrops.lookup linkId).getD 0

/-- `queue_packed_media_packets`: the packets admitted; a full queue drops a packet. -/
def queuePackedMediaPackets (linkId : LinkId) (role : LinkEndpointRole) :
    List (List UInt8) → EndpointE rns Nat
  | [] => pure 0
  | raw :: rest => do
    let self ← always Program.get
    match self.transport.trySend (.sendLinkEndpointBestEffort linkId role raw) with
    | (.error .closed, _) => throw .transportClosed
    | (.error .full, _) => do
      always (countDrop linkId)
      queuePackedMediaPackets linkId role rest
    | (.ok (), transport) => do
      always <| Program.set { self with
        transport
        pendingMediaResults := self.pendingMediaResults ++
          [⟨linkId, role, rns.packedPayloadLen raw, .waiting⟩] }
      let admitted ← queuePackedMediaPackets linkId role rest
      pure (admitted + 1)

/-- `LxstMediaEgress::PYTHON_COMPATIBLE` packs one frame a packet. -/
def packFrames (link : rns.Link) (frames : List Frame) : Except Error (List (List UInt8)) :=
  frames.mapM fun frame => rns.packLxstLinkPacket link { signals := [], frames := [frame] }

def queueFrames (linkId : LinkId) (frames : List Frame) : EndpointE rns Nat := do
  let self ← always Program.get
  let (link, role) ← ofResult (self.ownedLink linkId)
  let packets ← ofResult (packFrames link frames)
  queuePackedMediaPackets linkId role packets

def queueRawFrames (audio : Audio) (linkId : LinkId) (bitDepth : RawBitDepth)
    (frames : List audio.Pcm) : EndpointE rns Nat := do
  let self ← always Program.get
  let (link, role) ← ofResult (self.ownedLink linkId)
  let frames ← ofResult (frames.mapM (audio.toFrame bitDepth))
  let packets ← ofResult (packFrames link frames)
  queuePackedMediaPackets linkId role packets

/-! ## Ticks -/

/-- An outgoing link that has ended: its local state goes and the closure is reported. -/
def retireLink (linkId : LinkId) (unbind : Bool) : EndpointM rns Unit := do
  finishOutgoingLinkLocally linkId unbind
  Program.modify fun self => { self with
    pendingOutgoingEvents := self.pendingOutgoingEvents ++ [.linkClosed linkId] }

def tickAttempts : List LinkId → EndpointM rns Unit
  | [] => pure ()
  | linkId :: rest => do
    let self ← Program.get
    match self.outgoingAttempts.lookup linkId with
    | none => pure ()
    | some attempt =>
      let (action, link) := rns.tickLink attempt.link
      Program.set { self with
        outgoingAttempts := self.outgoingAttempts.replace linkId { attempt with link } }
      if action = .closed then retireLink linkId true
    tickAttempts rest

def tickLinks : List LinkId → EndpointM rns Unit
  | [] => pure ()
  | linkId :: rest => do
    let self ← Program.get
    match self.outgoingLinks.lookup linkId with
    | none => pure ()
    | some state =>
      let (action, link) := rns.tickLink state.link
      updateOutgoingLink linkId fun _ => link
      match action with
      | .none => pure ()
      | .sendKeepalive | .transitionedToStale => do
        let raw := rns.linkPacket linkId .keepalive [rns.keepaliveRequest]
        match ← (queuePreparedControl linkId .initiator
            (.sendLinkEndpoint linkId .initiator raw)).run with
        | .ok () => updateOutgoingLink linkId rns.recordTxKeepalive
        | .error _ => retireLink linkId true
      | .sendTeardownAndClose encrypted => do
        let raw := rns.linkPacket linkId .linkClose encrypted
        match ← (queuePreparedControl linkId .initiator
            (.sendLinkEndpointAndUnbind linkId .initiator raw)).run with
        | .ok () => retireLink linkId false
        | .error _ => retireLink linkId true
      | .closed => retireLink linkId true
    tickLinks rest

def tickReticulum : EndpointM rns Unit := do
  flushOutgoingCleanup
  onManager fun m => ((), rns.tickManager m)
  let self ← Program.get
  tickAttempts self.outgoingAttempts.keys
  let self ← Program.get
  tickLinks self.outgoingLinks.keys

end TelephonyRnsEndpoint

end Lxst.Telephony
