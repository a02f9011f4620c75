import Mathlib.Data.List.AList
import RsLxst.Core.CallState
import RsLxst.Core.Stream

/-!
# The telephony runtime core

`lxst-telephony/src/lib.rs` up to `commands_from_actions`, with both ingresses of `lxst-rns` and
the frame stream of `lxst-core/src/stream.rs`. A method on `&mut self` returns its result and the
new core. The host's `TelephonyCall` runs `CallState`. A hash map is an `AList` and a hash set a
list without duplicates; the order of their entries stands for the iteration order.
-/

set_option autoImplicit false

namespace Lxst.Telephony

abbrev LinkId := Vector UInt8 16
abbrev IdentityHash := Vector UInt8 16
abbrev Table (α : Type) := AList fun _ : LinkId => α

inductive Error
  | destination (text : String)
  | rns (text : String)
  | opus (text : String)
  | audio (text : String)
  | unknownLink
  | lineBusy
  | noActiveCall
  | callNotEstablished
  | callNotAnswerable
  | mediaProfileMismatch (active requested : Profile)
  | wrongActiveLink
  | noSigningKey
  | transportClosed
  | transportFull
  | serviceEventClosed
  | serviceEventFull
  | serviceControlClosed
  | transportQueryClosed
  | unexpectedTransportQueryResponse
  | linkOperation (text : String)
  | linkProofInvalid (text : String)
  | linkDestinationClosed
  | unexpectedLinkEvent
  | remotePublicKeyMissing
  | remoteTelephonyPeerNotDiscovered
  | remotePathNotDiscovered
  deriving DecidableEq, Repr

/-- `{:?}` of a profile. -/
def profileName : Profile → String
  | .bandwidthUltraLow => "BandwidthUltraLow"
  | .bandwidthVeryLow => "BandwidthVeryLow"
  | .bandwidthLow => "BandwidthLow"
  | .qualityMedium => "QualityMedium"
  | .qualityHigh => "QualityHigh"
  | .qualityMax => "QualityMax"
  | .latencyUltraLow => "LatencyUltraLow"
  | .latencyLow => "LatencyLow"

def Error.toText : Error → String
  | .destination text => "Reticulum destination error: " ++ text
  | .rns text => "LXST Reticulum boundary error: " ++ text
  | .opus text => "LXST Opus codec error: " ++ text
  | .audio text => "LXST audio codec error: " ++ text
  | .unknownLink => "unknown LXST link"
  | .lineBusy => "line is busy"
  | .noActiveCall => "no active call"
  | .callNotEstablished => "active call is not established"
  | .callNotAnswerable => "active call is not an incoming ringing call"
  | .mediaProfileMismatch active requested =>
    "requested media profile " ++ profileName requested ++
      " does not match active call profile " ++ profileName active
  | .wrongActiveLink => "active call is on a different link"
  | .noSigningKey => "local identity does not contain a signing key"
  | .transportClosed => "Reticulum transport queue is closed"
  | .transportFull => "Reticulum transport queue is full"
  | .serviceEventClosed => "LXST telephony service event queue is closed"
  | .serviceEventFull => "LXST telephony service event queue is full"
  | .serviceControlClosed => "LXST telephony service control queue is closed"
  | .transportQueryClosed => "Reticulum transport query channel closed"
  | .unexpectedTransportQueryResponse => "unexpected Reticulum transport query response"
  | .linkOperation text => "Reticulum link operation failed: " ++ text
  | .linkProofInvalid text => "Reticulum link proof validation failed: " ++ text
  | .linkDestinationClosed => "Reticulum link destination channel closed"
  | .unexpectedLinkEvent => "unexpected Reticulum destination event for link"
  | .remotePublicKeyMissing =>
    "remote LXST telephony announce did not include a Reticulum public key"
  | .remoteTelephonyPeerNotDiscovered =>
    "remote LXST telephony announce was not discovered before timeout"
  | .remotePathNotDiscovered =>
    "remote LXST telephony Reticulum path was not discovered before timeout"

/-! ## Callers -/

inductive CallerAllowPolicy
  | all
  | none
  | list (allowed : List IdentityHash)
  deriving DecidableEq, Repr

structure CallerAccessPolicy where
  allowed : CallerAllowPolicy
  blocked : List IdentityHash
  deriving DecidableEq, Repr

namespace CallerAccessPolicy

def default : CallerAccessPolicy := { allowed := .all, blocked := [] }

def isAllowed (self : CallerAccessPolicy) (identityHash : IdentityHash) : Bool :=
  if self.blocked.contains identityHash then false
  else
    match self.allowed with
    | .all => true
    | .none => false
    | .list allowed => allowed.contains identityHash

end CallerAccessPolicy

/-! ## Commands and events -/

inductive TelephonyCommand
  | sendSignal (linkId : LinkId) (signal : Signal)
  | identifyLocalIdentity (linkId : LinkId)
  | selectProfile (linkId : LinkId) (profile : Profile)
  | switchProfile (linkId : LinkId) (profile : Profile)
  | prepareDialingPipelines (linkId : LinkId)
  | resetDialingPipelines (linkId : LinkId)
  | openAudioPipelines (linkId : LinkId)
  | startAudioPipelines (linkId : LinkId)
  | stopAudioPipelines (linkId : LinkId)
  | startDialTone (linkId : LinkId)
  | ringIncomingCall (linkId : LinkId) (remoteIdentity : IdentityHash)
  | callTerminated (linkId : LinkId) (reason : Option SignallingStatus)
  | teardownLink (linkId : LinkId)
  | ignoredSignal (linkId : LinkId) (signal : Signal)
  deriving DecidableEq, Repr

def TelephonyCommand.linkId : TelephonyCommand → LinkId
  | .sendSignal linkId _ | .identifyLocalIdentity linkId | .selectProfile linkId _
  | .switchProfile linkId _ | .prepareDialingPipelines linkId | .resetDialingPipelines linkId
  | .openAudioPipelines linkId | .startAudioPipelines linkId | .stopAudioPipelines linkId
  | .startDialTone linkId | .ringIncomingCall linkId _ | .callTerminated linkId _
  | .teardownLink linkId | .ignoredSignal linkId _ => linkId

inductive QueuedLinkPacketKind
  | lxstData
  | linkIdentify
  | linkClose
  deriving DecidableEq, Repr

inductive TelephonyCommandEffect
  | noop
  | queuedLinkPacket (linkId : LinkId) (kind : QueuedLinkPacketKind)
  deriving DecidableEq, Repr

inductive FrameStreamEvent
  | codecChanged (old : Option CodecKind) (new : CodecKind)
  | frame (frame : Frame)
  deriving DecidableEq, Repr

structure InboundLxstPacket where
  linkId : LinkId
  packet : LxstPacket
  frameEvents : List FrameStreamEvent
  deriving DecidableEq, Repr

structure TelephonyStep where
  inbound : Option InboundLxstPacket
  commands : List TelephonyCommand
  deriving DecidableEq, Repr

def TelephonyStep.ofCommands (commands : List TelephonyCommand) : TelephonyStep :=
  { inbound := none, commands }

inductive TelephonyLinkEvent
  | linkEstablished (linkId : LinkId)
  | incomingLinkEstablished (linkId : LinkId)
  | outgoingLinkEstablished (linkId : LinkId)
  | remoteIdentified (linkId : LinkId) (remoteIdentity : IdentityHash)
  | linkPacket (linkId : LinkId) (plaintext : List UInt8)
  | linkClosed (linkId : LinkId)
  deriving DecidableEq, Repr

/-! ## Ingress -/

/-- `FrameStreamState` -/
structure FrameStreamState where
  currentCodec : Option CodecKind
  deriving DecidableEq, Repr

def FrameStreamState.acceptFrames (self : FrameStreamState) :
    List Frame → List FrameStreamEvent × FrameStreamState
  | [] => ([], self)
  | frame :: frames =>
    let changed := self.currentCodec ≠ some frame.codec
    let (events, state) :=
      FrameStreamState.acceptFrames (if changed then ⟨some frame.codec⟩ else self) frames
    ((if changed then [.codecChanged self.currentCodec frame.codec] else []) ++
      .frame frame :: events, state)

def FrameStreamState.acceptPacket (self : FrameStreamState) (packet : LxstPacket) :
    List FrameStreamEvent × FrameStreamState := self.acceptFrames packet.frames

structure LxstLinkIngress where
  frameStream : FrameStreamState
  deriving DecidableEq, Repr

namespace LxstLinkIngress

def new : LxstLinkIngress := { frameStream := { currentCodec := none } }

def acceptPlaintext (readValue : List UInt8 → Except String MsgPack.Value) (self : LxstLinkIngress)
    (linkId : LinkId) (payload : List UInt8) :
    Except Error InboundLxstPacket × LxstLinkIngress :=
  match LxstPacket.decode readValue payload with
  | .error error => (.error (.rns ("LXST core error: " ++ error.toText)), self)
  | .ok packet =>
    let (frameEvents, frameStream) := self.frameStream.acceptPacket packet
    (.ok { linkId, packet, frameEvents }, { frameStream })

end LxstLinkIngress

structure LxstMediaIngress where
  linkIngress : LxstLinkIngress
  jitter : JitterBuffer Frame

structure MediaIngressResult where
  inbound : InboundLxstPacket
  jitterPushes : List (JitterPush Frame)

namespace LxstMediaIngress

def new (jitterCapacity : Nat) (dropPolicy : DropPolicy) : Except Error LxstMediaIngress :=
  match JitterBuffer.new jitterCapacity dropPolicy with
  | .error error => .error (.rns ("LXST stream error: " ++ error.toText))
  | .ok jitter => .ok { linkIngress := .new, jitter }

/-- The loop over the frame events of a packet. -/
def pushFrames (jitter : JitterBuffer Frame) :
    List FrameStreamEvent → List (JitterPush Frame) × JitterBuffer Frame
  | [] => ([], jitter)
  | .codecChanged _ _ :: events => pushFrames jitter events
  | .frame frame :: events =>
    let (push, jitter) := jitter.push frame
    let (pushes, jitter) := pushFrames jitter events
    (push :: pushes, jitter)

def acceptPlaintext (readValue : List UInt8 → Except String MsgPack.Value)
    (self : LxstMediaIngress) (linkId : LinkId) (payload : List UInt8) :
    Except Error MediaIngressResult × LxstMediaIngress :=
  match self.linkIngress.acceptPlaintext readValue linkId payload with
  | (.error error, linkIngress) => (.error error, { self with linkIngress })
  | (.ok inbound, linkIngress) =>
    let (jitterPushes, jitter) := pushFrames self.jitter inbound.frameEvents
    (.ok { inbound, jitterPushes }, { linkIngress, jitter })

def popFrame (self : LxstMediaIngress) : Option Frame × LxstMediaIngress :=
  (self.jitter.pop.1, { self with jitter := self.jitter.pop.2 })

end LxstMediaIngress

/-! ## The core -/

structure ActiveCall where
  linkId : LinkId
  remoteIdentity : IdentityHash
  call : CallState
  deriving DecidableEq, Repr

structure ActiveCallSnapshot where
  linkId : LinkId
  remoteIdentity : IdentityHash
  role : CallRole
  status : SignallingStatus
  profile : Option Profile
  answered : Bool
  deriving DecidableEq, Repr

structure TelephonyRuntimeSnapshot where
  externalBusy : Bool
  pendingLinkCount : Nat
  activeCall : Option ActiveCallSnapshot
  deriving DecidableEq, Repr

structure TelephonyRuntimeCore where
  access : CallerAccessPolicy
  externalBusy : Bool
  pendingLinks : List LinkId
  ingress : Table LxstLinkIngress
  activeCall : Option ActiveCall
  deriving DecidableEq

/-- The commands for a call's actions. -/
def commandsFromActions (linkId : LinkId) (remoteIdentity : Option IdentityHash)
    (actions : Actions) : List TelephonyCommand :=
  actions.filterMap fun
    | .sendSignal signal => some (.sendSignal linkId signal)
    | .identifyLocalIdentity => some (.identifyLocalIdentity linkId)
    | .selectProfile profile => some (.selectProfile linkId profile)
    | .prepareDialingPipelines => some (.prepareDialingPipelines linkId)
    | .resetDialingPipelines => some (.resetDialingPipelines linkId)
    | .openAudioPipelines => some (.openAudioPipelines linkId)
    | .startAudioPipelines => some (.startAudioPipelines linkId)
    | .startDialTone => some (.startDialTone linkId)
    | .teardownLink => some (.teardownLink linkId)
    | .ringIncomingCall => remoteIdentity.map (.ringIncomingCall linkId)
    | .switchProfile profile => some (.switchProfile linkId profile)
    | .ignoreSignal signal => some (.ignoredSignal linkId signal)
    | .terminate _ => none

namespace TelephonyRuntimeCore

def new : TelephonyRuntimeCore :=
  { access := .default, externalBusy := false, pendingLinks := [], ingress := ∅,
    activeCall := none }

def setAccessPolicy (self : TelephonyRuntimeCore) (access : CallerAccessPolicy) :
    TelephonyRuntimeCore := { self with access }

def setExternalBusy (self : TelephonyRuntimeCore) (busy : Bool) : TelephonyRuntimeCore :=
  { self with externalBusy := busy }

def lineBusy (self : TelephonyRuntimeCore) : Bool := self.externalBusy || self.activeCall.isSome

def snapshot (self : TelephonyRuntimeCore) : TelephonyRuntimeSnapshot :=
  { externalBusy := self.externalBusy
    pendingLinkCount := self.pendingLinks.length
    activeCall := self.activeCall.map fun active =>
      { linkId := active.linkId, remoteIdentity := active.remoteIdentity,
        role := active.call.role, status := active.call.status,
        profile := active.call.profile, answered := active.call.answered } }

/-- `self.ingress.entry(link_id).or_default()` -/
def ensureIngress (self : TelephonyRuntimeCore) (linkId : LinkId) : TelephonyRuntimeCore :=
  match self.ingress.lookup linkId with
  | some _ => self
  | none => { self with ingress := self.ingress.insert linkId .new }

/-- Both removals that end a link: from the pending links and from the ingress table. -/
def forgetLink (self : TelephonyRuntimeCore) (linkId : LinkId) : TelephonyRuntimeCore :=
  { self with pendingLinks := self.pendingLinks.erase linkId, ingress := self.ingress.erase linkId }

def incomingLinkEstablished (self : TelephonyRuntimeCore) (linkId : LinkId) :
    List TelephonyCommand × TelephonyRuntimeCore :=
  let actions := CallState.incomingLinkEstablished self.lineBusy
  let self :=
    if !self.lineBusy then
      { self with pendingLinks := self.pendingLinks.insert linkId }.ensureIngress linkId
    else self
  (commandsFromActions linkId none actions, self)

def callerIdentified (self : TelephonyRuntimeCore) (linkId : LinkId)
    (remoteIdentity : IdentityHash) :
    Except Error (List TelephonyCommand) × TelephonyRuntimeCore :=
  if !self.pendingLinks.contains linkId ∧ (self.ingress.lookup linkId).isNone then
    (.error .unknownLink, self)
  else
    let allowed := self.access.isAllowed remoteIdentity
    let busy := self.lineBusy
    let (call, actions) := CallState.incoming.callerIdentified busy allowed
    let commands := commandsFromActions linkId (some remoteIdentity) actions
    if busy || !allowed then (.ok commands, self.forgetLink linkId)
    else
      (.ok commands,
        { self with
          pendingLinks := self.pendingLinks.erase linkId
          activeCall := some { linkId, remoteIdentity, call } })

def startOutgoingCall (self : TelephonyRuntimeCore) (linkId : LinkId)
    (remoteIdentity : IdentityHash) (profile : Option Profile) :
    Except Error Unit × TelephonyRuntimeCore :=
  if self.lineBusy then (.error .lineBusy, self)
  else
    (.ok (),
      { self.ensureIngress linkId with
        activeCall := some { linkId, remoteIdentity, call := .outgoing profile } })

def outgoingLinkEstablished (self : TelephonyRuntimeCore) (linkId : LinkId) :
    Except Error Unit × TelephonyRuntimeCore :=
  match self.activeCall with
  | none => (.error .noActiveCall, self)
  | some active =>
    if active.linkId ≠ linkId then (.error .wrongActiveLink, self)
    else (.ok (), self.ensureIngress linkId)

def answerActive (self : TelephonyRuntimeCore) (expectedLinkId : LinkId) :
    Except Error (List TelephonyCommand) × TelephonyRuntimeCore :=
  match self.activeCall with
  | none => (.error .noActiveCall, self)
  | some active =>
    if active.linkId ≠ expectedLinkId then (.error .wrongActiveLink, self)
    else if active.call.role ≠ .incoming ∨ active.call.status ≠ .ringing then
      (.error .callNotAnswerable, self)
    else
      let (call, actions) := active.call.answer
      (.ok (commandsFromActions active.linkId (some active.remoteIdentity) actions),
        { self with activeCall := some { active with call } })

/-- The call that an answer retry or an answer timeout is about. -/
def answeredCall (self : TelephonyRuntimeCore) (expectedLinkId : LinkId) :
    Except Error ActiveCall :=
  match self.activeCall with
  | none => .error .noActiveCall
  | some active =>
    if active.linkId ≠ expectedLinkId then .error .wrongActiveLink
    else if active.call.role ≠ .incoming ∨ !active.call.answered ∨
        active.call.status ≠ .connecting then
      .error .callNotAnswerable
    else .ok active

def retryAnswerActive (self : TelephonyRuntimeCore) (expectedLinkId : LinkId) :
    Except Error (List TelephonyCommand) :=
  (self.answeredCall expectedLinkId).map fun active =>
    commandsFromActions active.linkId (some active.remoteIdentity) active.call.retryAnswer

def switchActiveProfile (self : TelephonyRuntimeCore) (profile : Profile) :
    Except Error (List TelephonyCommand) × TelephonyRuntimeCore :=
  match self.activeCall with
  | none => (.error .noActiveCall, self)
  | some active =>
    if active.call.status ≠ .established then (.error .callNotEstablished, self)
    else
      let (call, actions) := active.call.switchProfile profile
      (.ok (commandsFromActions active.linkId (some active.remoteIdentity) actions),
        { self with activeCall := some { active with call } })

/-- The commands that end an active call locally. -/
def terminationCommands (active : ActiveCall) (ringTimeout : Bool)
    (reason : Option SignallingStatus) : List TelephonyCommand :=
  commandsFromActions active.linkId (some active.remoteIdentity)
      (active.call.hangup ringTimeout).2 ++
    [.stopAudioPipelines active.linkId, .callTerminated active.linkId reason]

def terminateActive (self : TelephonyRuntimeCore) (ringTimeout : Bool)
    (reason : Option SignallingStatus) :
    Except Error (List TelephonyCommand) × TelephonyRuntimeCore :=
  match self.activeCall with
  | none => (.error .noActiveCall, self)
  | some active =>
    (.ok (terminationCommands active ringTimeout reason),
      { self with activeCall := none }.forgetLink active.linkId)

def hangupActive (self : TelephonyRuntimeCore) (ringTimeout : Bool) :
    Except Error (List TelephonyCommand) × TelephonyRuntimeCore :=
  self.terminateActive ringTimeout none

def timeoutAnswerActive (self : TelephonyRuntimeCore) (expectedLinkId : LinkId) :
    Except Error (List TelephonyCommand) × TelephonyRuntimeCore :=
  match self.answeredCall expectedLinkId with
  | .error error => (.error error, self)
  | .ok _ => self.terminateActive false (some .connecting)

def shutdown (self : TelephonyRuntimeCore) : List TelephonyCommand × TelephonyRuntimeCore :=
  let (commands, self) :=
    match self.activeCall with
    | none => ([], self)
    | some active =>
      (terminationCommands active false none,
        { self with activeCall := none }.forgetLink active.linkId)
  (commands ++ self.pendingLinks.map .teardownLink,
    { self with pendingLinks := [], ingress := ∅ })

def linkClosed (self : TelephonyRuntimeCore) (linkId : LinkId) :
    List TelephonyCommand × TelephonyRuntimeCore :=
  let self := self.forgetLink linkId
  if self.activeCall.any (·.linkId = linkId) then
    ([.stopAudioPipelines linkId, .callTerminated linkId none], { self with activeCall := none })
  else ([], self)

def receiveSignal (self : TelephonyRuntimeCore) (linkId : LinkId) (signal : Signal) :
    Except Error (List TelephonyCommand) × TelephonyRuntimeCore :=
  match self.activeCall with
  | none => (.error .noActiveCall, self)
  | some active =>
    if active.linkId ≠ linkId then (.error .wrongActiveLink, self)
    else
      let (call, actions) := active.call.receiveSignal signal
      let self := { self with activeCall := some { active with call } }
      let commands := commandsFromActions linkId (some active.remoteIdentity) actions
      let terminates := actions.findSome? fun
        | .terminate reason => some reason
        | _ => none
      match terminates with
      | some reason =>
        (.ok (commands ++ [.stopAudioPipelines linkId, .teardownLink linkId,
            .callTerminated linkId reason]),
          { self with activeCall := none }.forgetLink linkId)
      | none => (.ok commands, self)

/-- The signals of one packet, in order, up to the first that fails. -/
def receiveSignals (self : TelephonyRuntimeCore) (linkId : LinkId) :
    List Signal → Except Error (List TelephonyCommand) × TelephonyRuntimeCore
  | [] => (.ok [], self)
  | signal :: signals =>
    match self.receiveSignal linkId signal with
    | (.error error, self) => (.error error, self)
    | (.ok commands, self) =>
      match self.receiveSignals linkId signals with
      | (.error error, self) => (.error error, self)
      | (.ok rest, self) => (.ok (commands ++ rest), self)

variable (readValue : List UInt8 → Except String MsgPack.Value)

def acceptLxstPlaintext (self : TelephonyRuntimeCore) (linkId : LinkId) (payload : List UInt8) :
    Except Error TelephonyStep × TelephonyRuntimeCore :=
  match self.ingress.lookup linkId with
  | none => (.error .unknownLink, self)
  | some ingress =>
    match ingress.acceptPlaintext readValue linkId payload with
    | (.error error, _) => (.error error, self)
    | (.ok inbound, ingress) =>
      let self := { self with ingress := self.ingress.insert linkId ingress }
      match self.receiveSignals linkId inbound.packet.signals with
      | (.error error, self) => (.error error, self)
      | (.ok commands, self) => (.ok { inbound := some inbound, commands }, self)

/-- A result of commands as a step without a packet. -/
def asStep (result : Except Error (List TelephonyCommand) × TelephonyRuntimeCore) :
    Except Error TelephonyStep × TelephonyRuntimeCore :=
  (result.1.map .ofCommands, result.2)

def acceptLinkEvent (self : TelephonyRuntimeCore) (event : TelephonyLinkEvent) :
    Except Error TelephonyStep × TelephonyRuntimeCore :=
  match event with
  | .linkEstablished linkId =>
    if self.activeCall.any fun active => active.linkId = linkId ∧ active.call.role = .outgoing then
      let (result, self) := self.outgoingLinkEstablished linkId
      asStep (result.map fun _ => [], self)
    else
      let (commands, self) := self.incomingLinkEstablished linkId
      asStep (.ok commands, self)
  | .incomingLinkEstablished linkId =>
    let (commands, self) := self.incomingLinkEstablished linkId
    asStep (.ok commands, self)
  | .outgoingLinkEstablished linkId =>
    let (result, self) := self.outgoingLinkEstablished linkId
    asStep (result.map fun _ => [], self)
  | .remoteIdentified linkId remoteIdentity => asStep (self.callerIdentified linkId remoteIdentity)
  | .linkPacket linkId plaintext => self.acceptLxstPlaintext readValue linkId plaintext
  | .linkClosed linkId =>
    let (commands, self) := self.linkClosed linkId
    asStep (.ok commands, self)

/-- The operations on a core, those of its service among them. -/
inductive Op
  | acceptLinkEvent (event : TelephonyLinkEvent)
  | startOutgoingCall (linkId : LinkId) (remoteIdentity : IdentityHash) (profile : Option Profile)
  | answerActive (expectedLinkId : LinkId)
  | retryAnswerActive (expectedLinkId : LinkId)
  | timeoutAnswerActive (expectedLinkId : LinkId)
  | switchActiveProfile (profile : Profile)
  | hangupActive (ringTimeout : Bool)
  | shutdown
  | setExternalBusy (busy : Bool)
  | setAccessPolicy (access : CallerAccessPolicy)
  deriving DecidableEq, Repr

/-- The commands of a result: none, if the operation failed. -/
def returned : Except Error (List TelephonyCommand) → List TelephonyCommand
  | .ok commands => commands
  | .error _ => []

/-- An operation on the core and the commands it returns. -/
def step (self : TelephonyRuntimeCore) : Op → TelephonyRuntimeCore × List TelephonyCommand
  | .acceptLinkEvent event =>
    let result := self.acceptLinkEvent readValue event
    (result.2, returned (result.1.map (·.commands)))
  | .startOutgoingCall linkId remoteIdentity profile =>
    ((self.startOutgoingCall linkId remoteIdentity profile).2, [])
  | .answerActive linkId => ((self.answerActive linkId).2, returned (self.answerActive linkId).1)
  | .retryAnswerActive linkId => (self, returned (self.retryAnswerActive linkId))
  | .timeoutAnswerActive linkId =>
    ((self.timeoutAnswerActive linkId).2, returned (self.timeoutAnswerActive linkId).1)
  | .switchActiveProfile profile =>
    ((self.switchActiveProfile profile).2, returned (self.switchActiveProfile profile).1)
  | .hangupActive ringTimeout =>
    ((self.hangupActive ringTimeout).2, returned (self.hangupActive ringTimeout).1)
  | .shutdown => (self.shutdown.2, self.shutdown.1)
  | .setExternalBusy busy => (self.setExternalBusy busy, [])
  | .setAccessPolicy access => (self.setAccessPolicy access, [])

end TelephonyRuntimeCore

end Lxst.Telephony
