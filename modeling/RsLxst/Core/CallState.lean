import RsLxst.Core.WireTypes

/-!
# The call transitions

`shared/telephony.rs` and `shared/actions.rs`: the state machine of one call, run unchanged by
the host (`TelephonyCall`) and by the embedded `Session`. A method on `&mut self` returns the new
state with the actions it emits.

`Actions` is a fixed buffer of four actions whose `push` asserts that there is room. Actions are
only ever appended, so an assertion fails exactly when the list grows past `Actions.CAPACITY`;
the model keeps the list and `Core/Proof/CallState.lean` shows that no transition exceeds it.
-/

set_option autoImplicit false

namespace Lxst

inductive CallRole
  | incoming
  | outgoing
  deriving DecidableEq, Repr

inductive TelephonyAction
  | sendSignal (signal : Signal)
  | identifyLocalIdentity
  | selectProfile (profile : Profile)
  | prepareDialingPipelines
  | resetDialingPipelines
  | openAudioPipelines
  | startAudioPipelines
  | startDialTone
  | terminate (reason : Option SignallingStatus)
  | teardownLink
  | ringIncomingCall
  | switchProfile (profile : Profile)
  | ignoreSignal (signal : Signal)
  deriving DecidableEq, Repr

abbrev Actions := List TelephonyAction

def Actions.CAPACITY : Nat := 4

structure CallState where
  role : CallRole
  status : SignallingStatus
  profile : Option Profile
  answered : Bool
  deriving DecidableEq, Repr

namespace CallState

def outgoing (profile : Option Profile) : CallState :=
  { role := .outgoing, status := .calling, profile, answered := false }

def incoming : CallState :=
  { role := .incoming, status := .available, profile := none, answered := false }

/-- `ensure_profile`: selects the call's profile, the default one if it has none. -/
def ensureProfile (self : CallState) (actions : Actions) : CallState × Actions :=
  let profile := self.profile.getD Profile.DEFAULT
  ({ self with profile := some profile }, actions ++ [.selectProfile profile])

def pushStatusSignal (self : CallState) (status : SignallingStatus) (actions : Actions) :
    CallState × Actions :=
  (if status.isAutoStatus then { self with status } else self,
    actions ++ [.sendSignal (.status status)])

def incomingLinkEstablished (lineBusy : Bool) : Actions :=
  if lineBusy then [.sendSignal (.status .busy), .teardownLink]
  else [.sendSignal (.status .available)]

def callerIdentified (self : CallState) (lineBusy allowed : Bool) : CallState × Actions :=
  if lineBusy || !allowed then (self, [.sendSignal (.status .busy), .teardownLink])
  else
    let (self, actions) := self.pushStatusSignal .ringing [.resetDialingPipelines]
    (self, actions ++ [.ringIncomingCall])

def answer (self : CallState) : CallState × Actions :=
  if self.role ≠ .incoming ∨ self.status ≠ .ringing then (self, [])
  else
    let (self, actions) := { self with answered := true }.ensureProfile []
    let (self, actions) := self.pushStatusSignal .connecting actions
    let actions := actions ++ [.openAudioPipelines]
    -- the call stays in `connecting` until the caller's echo of `established` arrives
    (self, actions ++ [.sendSignal (.status .established)])

def retryAnswer (self : CallState) : Actions :=
  if self.role ≠ .incoming ∨ !self.answered ∨ self.status ≠ .connecting then []
  else [.sendSignal (.status .connecting), .sendSignal (.status .established)]

def receiveSignal (self : CallState) (signal : Signal) : CallState × Actions :=
  if self.role = .incoming ∧ !self.answered ∧ signal.isStatus then
    (self, [.ignoreSignal signal])
  else
    match signal with
    | .status .busy => (self, [.terminate (some .busy)])
    | .status .rejected => (self, [.terminate (some .rejected)])
    | .status .calling => (self, [.ignoreSignal signal])
    | .status .available =>
      if self.status.wireValue ≥ SignallingStatus.available.wireValue then
        (self, [.ignoreSignal signal])
      else ({ self with status := .available }, [.identifyLocalIdentity])
    | .status .ringing =>
      if self.status.wireValue ≥ SignallingStatus.ringing.wireValue then
        (self, [.ignoreSignal signal])
      else
        let (self, actions) := { self with status := .ringing }.ensureProfile []
        let actions := actions ++ [.prepareDialingPipelines]
        let actions := match self.profile with
          | some profile => actions ++ [.sendSignal (.preferredProfile profile)]
          | none => actions
        (self, actions ++ [.startDialTone])
    | .status .connecting =>
      if self.role = .outgoing ∧
          self.status.wireValue ≥ SignallingStatus.connecting.wireValue then
        -- a delayed or retried offer: echo again, in case the first echo was lost
        (self, [.sendSignal (.status .established)])
      else if self.status.wireValue ≥ SignallingStatus.connecting.wireValue then
        (self, [.ignoreSignal signal])
      else
        let self := { self with status := .connecting }
        let actions := [.resetDialingPipelines, .openAudioPipelines]
        (self, if self.role = .outgoing then actions ++ [.sendSignal (.status .established)]
          else actions)
    | .status .established =>
      if self.status = .established then (self, [.ignoreSignal signal])
      else ({ self with status := .established }, [.startAudioPipelines])
    | .preferredProfile profile =>
      if self.profile = some profile then (self, [])
      else
        ({ self with profile := some profile },
          if self.status = .established then [.switchProfile profile]
          else [.selectProfile profile])
    | .raw _ => (self, [.ignoreSignal signal])

def switchProfile (self : CallState) (profile : Profile) : CallState × Actions :=
  if self.profile = some profile then (self, [])
  else
    ({ self with profile := some profile },
      if self.status = .established then
        [.sendSignal (.preferredProfile profile), .switchProfile profile]
      else [.selectProfile profile])

def hangup (self : CallState) (ringTimeout : Bool) : CallState × Actions :=
  let actions : Actions :=
    if self.role = .incoming ∧ self.status = .ringing ∧ !ringTimeout then
      [.sendSignal (.status .rejected)]
    else []
  ({ self with status := .available, answered := false }, actions ++ [.teardownLink])

/-- The operations on a call that is set up, up to its end. -/
inductive Op
  | receiveSignal (signal : Signal)
  | answer
  | retryAnswer
  | switchProfile (profile : Profile)
  deriving DecidableEq, Repr

def step (self : CallState) : Op → CallState × Actions
  | .receiveSignal signal => self.receiveSignal signal
  | .answer => self.answer
  | .retryAnswer => (self, self.retryAnswer)
  | .switchProfile profile => self.switchProfile profile

end CallState

end Lxst
