import RsLxst.Core.CallState
import RsLxst.Lib.Machine

/-!
# The embedded session

`lxst-embedded/src/session.rs`: local admission and microphone policy around the shared call
transitions. A method on `&mut self` returns the new state and the events it pushed; a `u64`
time is a `UInt64` and `now` is whatever the embedder passes. `Session.step` is one call of any
operation, so a run is `Machine.run Session.step` over a list of `Op`s.

`Events` is a fixed buffer of eight events whose `push` asserts that there is room; like
`Actions` it is only appended to, so the model keeps the list.
-/

set_option autoImplicit false

namespace Lxst.Embedded

def SETUP_MS : UInt64 := 30000
def RING_MS : UInt64 := 90000
def ANSWER_MS : UInt64 := 10000
def PROFILE_MS : UInt64 := 5000
def TALK_LIMIT_MS : UInt64 := 30000

/-- `u64::saturating_add` -/
def saturatingAdd (a b : UInt64) : UInt64 :=
  if a.toNat + b.toNat < UInt64.size then a + b else UInt64.ofNat (UInt64.size - 1)

/-- `u64::saturating_sub` -/
def saturatingSub (a b : UInt64) : UInt64 := if b ≤ a then a - b else 0

structure ProfileSet where
  bits : UInt8
  deriving DecidableEq, Repr

namespace ProfileSet

def bit (profile : Profile) : UInt8 := 1 <<< (profile.wireValue / 16 - 1).toUInt8

def CODEC2 : ProfileSet := ⟨0b00000111⟩
def OPUS_MEDIUM : ProfileSet := ⟨0b00001000⟩
def contains (self : ProfileSet) (profile : Profile) : Bool := self.bits &&& bit profile != 0
def union (self other : ProfileSet) : ProfileSet := ⟨self.bits ||| other.bits⟩
def only (profile : Profile) : ProfileSet := ⟨bit profile⟩

end ProfileSet

structure SessionConfig where
  allowed : ProfileSet
  preferred : Profile
  capture : Bool
  playback : Bool
  deriving DecidableEq, Repr

inductive ConfigError
  | noAudioDirection
  | unsupportedPreferredProfile
  deriving DecidableEq, Repr

inductive EndReason
  | localEnd
  | remote
  | rejected
  | busy
  | timeout
  | profileUnsupported
  | audioUnavailable
  | routeLost
  deriving DecidableEq, Repr

inductive Event
  | transition (action : TelephonyAction)
  | capture (on : Bool)
  | flushMedia
  | ended (reason : EndReason)
  deriving DecidableEq, Repr

abbrev Events := List Event

namespace Events

def CAPACITY : Nat := 8

def transitions (events : Events) (actions : Actions) : Events :=
  events ++ actions.map .transition

end Events

structure Session where
  call : CallState
  config : SessionConfig
  verified : Bool
  linked : Bool
  ready : Bool
  transmitting : Bool
  inputDown : Bool
  audioGeneration : UInt32
  ended : Option EndReason
  deadline : UInt64
  talkStarted : UInt64
  suggested : Bool
  profileDeadline : Option UInt64
  answerRetry : UInt64
  retries : UInt8
  deriving DecidableEq, Repr

namespace Session

def new (role : CallRole) (config : SessionConfig) (nowMs : UInt64) :
    Except ConfigError Session :=
  if !config.capture && !config.playback then .error .noAudioDirection
  else if !config.allowed.contains config.preferred then .error .unsupportedPreferredProfile
  else
    let call := match role with
      | .incoming => CallState.incoming
      | .outgoing => CallState.outgoing (some config.preferred)
    .ok
      { call := (call.switchProfile config.preferred).1
        config
        verified := false
        linked := false
        ready := false
        transmitting := false
        inputDown := false
        audioGeneration := 1
        ended := none
        deadline := saturatingAdd nowMs SETUP_MS
        talkStarted := 0
        suggested := false
        profileDeadline := none
        answerRetry := 0
        retries := 0 }

def status (self : Session) : SignallingStatus := self.call.status
def profile (self : Session) : Option Profile := self.call.profile

def mediaReady (self : Session) : Bool :=
  self.ended.isNone && self.linked && self.verified && self.ready &&
    self.profileDeadline.isNone && self.call.status = .established

def playbackAllowed (self : Session) : Bool :=
  self.mediaReady && self.config.playback && !self.transmitting

def linkEstablished (self : Session) : Session × Events :=
  if self.ended.isSome || self.linked then (self, [])
  else
    let self := { self with linked := true }
    (self, if self.call.role = .incoming then
        Events.transitions [] (CallState.incomingLinkEstablished false)
      else [])

def peerVerified (self : Session) (nowMs : UInt64) : Session × Events :=
  if self.ended.isSome || !self.linked || self.verified then (self, [])
  else
    let self := { self with verified := true }
    if self.call.role = .incoming then
      let (call, actions) := self.call.callerIdentified false true
      ({ self with call, deadline := saturatingAdd nowMs RING_MS },
        Events.transitions [] actions ++
          [.transition (.sendSignal (.preferredProfile self.config.preferred))])
    else (self, [])

def answer (self : Session) (nowMs : UInt64) : Session × Events :=
  if self.ended.isSome || !self.verified || self.call.role ≠ .incoming ||
      self.call.status ≠ .ringing then (self, [])
  else
    let (call, actions) := self.call.answer
    ({ self with
        call
        deadline := saturatingAdd nowMs ANSWER_MS
        answerRetry := saturatingAdd nowMs 1000 },
      Events.transitions [] actions)

def stopCapture (self : Session) (events : Events) : Session × Events :=
  if self.transmitting then ({ self with transmitting := false }, events ++ [.capture false])
  else (self, events)

/-- `Session::end` -/
def end_ (self : Session) (reason : EndReason) : Session × Events :=
  if self.ended.isSome then (self, [])
  else
    let (self, events) := self.stopCapture []
    let events := events ++ [.flushMedia]
    let (call, actions) := self.call.hangup (reason = .timeout)
    ({ self with call, ready := false, ended := some reason },
      events.transitions actions ++ [.ended reason])

/-- The `allowed` of a status signal: the stages a peer may announce from the `current` one. -/
def statusAllowed (call : CallState) (status : SignallingStatus) : Bool :=
  let current := call.status
  match call.role with
  | .incoming => call.answered && status = .established
  | .outgoing =>
    match status with
    | .available => current = .calling || current = .available
    | .ringing => current = .available || current = .ringing
    | .connecting => current = .ringing || current = .connecting || current = .established
    | .established => current = .connecting || current = .established
    | _ => false

/-- A profile outside the allowed set: offer ours once, then end. -/
def refuseProfile (self : Session) (nowMs : UInt64) : Session × Events :=
  if self.suggested then self.end_ .profileUnsupported
  else
    let self := { self with
      suggested := true
      profileDeadline := some (saturatingAdd nowMs PROFILE_MS) }
    let (self, events) := self.stopCapture []
    (self, events ++ [.flushMedia, .transition (.sendSignal
      (.preferredProfile (self.call.profile.getD self.config.preferred)))])

/-- An allowed profile that differs from the call's: media starts over with it. -/
def adoptProfile (self : Session) (profile : Profile) : Session × Events :=
  let (self, events) := self.stopCapture []
  let self := { self with ready := false, audioGeneration := self.audioGeneration + 1 }
  let events := events ++ [.flushMedia]
  -- only the incoming side echoes an adopted profile
  (self, if self.call.role = .incoming then
      events ++ [.transition (.sendSignal (.preferredProfile profile))]
    else events)

/-- The deadline of the stage that an allowed status signal opens. -/
def stageDeadline (self : Session) (status : SignallingStatus) (nowMs : UInt64) : UInt64 :=
  let current := self.call.status
  let deadline :=
    if status = .ringing ∧ current ≠ status then saturatingAdd nowMs RING_MS else self.deadline
  if status = .connecting ∧ current = .ringing then saturatingAdd nowMs ANSWER_MS else deadline

/-- `events.transitions(self.call.receive_signal(signal))` -/
def forward (self : Session) (events : Events) (signal : Signal) : Session × Events :=
  let (call, actions) := self.call.receiveSignal signal
  ({ self with call }, events.transitions actions)

def receiveSignal (self : Session) (signal : Signal) (nowMs : UInt64) : Session × Events :=
  if self.ended.isSome || !self.linked || !self.verified then (self, [])
  else
    match signal with
    | .preferredProfile profile =>
      if !self.config.allowed.contains profile then self.refuseProfile nowMs
      else
        let self := { self with profileDeadline := none }
        let (self, events) :=
          if self.call.profile ≠ some profile then self.adoptProfile profile else (self, [])
        self.forward events (.preferredProfile profile)
    | .status .busy => self.end_ .busy
    | .status .rejected => self.end_ .rejected
    | .status .calling => (self, [])
    | .status status =>
      if !statusAllowed self.call status then (self, [])
      else
        let self := { self with deadline := self.stageDeadline status nowMs }
        self.forward [] (.status status)
    | .raw value => self.forward [] (.raw value)

def receiveProfileMedia (self : Session) (profile : Profile) (nowMs : UInt64) :
    Session × Events :=
  if self.ended.isNone && self.linked && self.verified && self.call.status = .established &&
      self.call.profile = some profile && self.config.allowed.contains profile &&
      self.profileDeadline.any (nowMs < ·) then
    ({ self with profileDeadline := none }, [])
  else (self, [])

def audioReady (self : Session) (generation : UInt32) (success : Bool) : Session × Events :=
  if self.ended.isSome || generation ≠ self.audioGeneration then (self, [])
  else if !success then self.end_ .audioUnavailable
  else ({ self with ready := true }, [])

def setTransmitting (self : Session) (pressed : Bool) (nowMs : UInt64) : Session × Events :=
  if !pressed then
    let (self, events) := { self with inputDown := false }.stopCapture []
    (self, events ++ [.flushMedia])
  else if !self.inputDown then
    let self := { self with inputDown := true }
    if !self.mediaReady || !self.config.capture then (self, [])
    else
      ({ self with transmitting := true, talkStarted := nowMs }, [.flushMedia, .capture true])
  else (self, [])

/-- The talk limit of `tick`. -/
def limitTalk (self : Session) (nowMs : UInt64) : Session × Events :=
  if self.transmitting && saturatingSub nowMs self.talkStarted ≥ TALK_LIMIT_MS then
    let (self, events) := self.stopCapture []
    (self, events ++ [.flushMedia])
  else (self, [])

/-- The retransmission of the answer offer in `tick`. -/
def retryOffer (self : Session) (events : Events) (nowMs : UInt64) : Session × Events :=
  if self.call.role = .incoming && self.call.answered && self.status = .connecting &&
      nowMs ≥ self.answerRetry && self.retries < 3 then
    ({ self with retries := self.retries + 1, answerRetry := saturatingAdd nowMs 1000 },
      events.transitions self.call.retryAnswer)
  else (self, events)

def tick (self : Session) (nowMs : UInt64) : Session × Events :=
  if self.ended.isSome then (self, [])
  else if self.profileDeadline.any (nowMs ≥ ·) then self.end_ .profileUnsupported
  else if self.status ≠ .established && nowMs ≥ self.deadline then self.end_ .timeout
  else
    let (self, events) := self.limitTalk nowMs
    self.retryOffer events nowMs

/-- The operations of a session. -/
inductive Op
  | linkEstablished
  | peerVerified (nowMs : UInt64)
  | answer (nowMs : UInt64)
  | receiveSignal (signal : Signal) (nowMs : UInt64)
  | receiveProfileMedia (profile : Profile) (nowMs : UInt64)
  | audioReady (generation : UInt32) (success : Bool)
  | setTransmitting (pressed : Bool) (nowMs : UInt64)
  | tick (nowMs : UInt64)
  | end_ (reason : EndReason)
  deriving DecidableEq, Repr

def step (self : Session) : Op → Session × Events
  | .linkEstablished => self.linkEstablished
  | .peerVerified nowMs => self.peerVerified nowMs
  | .answer nowMs => self.answer nowMs
  | .receiveSignal signal nowMs => self.receiveSignal signal nowMs
  | .receiveProfileMedia profile nowMs => self.receiveProfileMedia profile nowMs
  | .audioReady generation success => self.audioReady generation success
  | .setTransmitting pressed nowMs => self.setTransmitting pressed nowMs
  | .tick nowMs => self.tick nowMs
  | .end_ reason => self.end_ reason

end Session

end Lxst.Embedded
