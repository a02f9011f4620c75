import RsLxst.Lib.Program
import RsLxst.Telephony.Rns

/-!
# The telephony endpoint: state, sends and commands

`TelephonyRnsEndpoint` of `lxst-telephony/src/lib.rs`, without its event loop
(`Telephony/LinkEvents.lean`). A method on `&mut self` is a `Program` over the endpoint; one that
returns a `Result` keeps the changes it made before it failed.
-/

set_option autoImplicit false

namespace Lxst.Telephony

inductive DestinationEvent (rns : Rns)
  | inboundPacket (raw : List UInt8) (interfaceId : Nat) (interfaceOwner : Option Nat)
      (metrics : rns.Metrics)
  | linkClosed (linkId : LinkId)
  | other

structure OutgoingLinkAttempt (rns : Rns) where
  /-- The result of dispatching the link request, until it has arrived. -/
  dispatchResult : Option (Oneshot Bool)
  link : rns.Link
  remotePublicKey : Vector UInt8 64
  eventRx : Mailbox (DestinationEvent rns)

structure OutgoingEndpointState where
  interfaceOwner : Option Nat
  attachedInterface : Nat
  bindResultRx : Option (Oneshot LinkEndpointBindResult)
  /-- Lifecycle events end the link, whatever they say. -/
  lifecycleRx : Mailbox Unit

structure OutgoingLinkState (rns : Rns) where
  link : rns.Link
  eventRx : Mailbox (DestinationEvent rns)
  endpoint : Option OutgoingEndpointState

structure PendingControlResult where
  linkId : LinkId
  role : LinkEndpointRole
  resultRx : Oneshot LinkEndpointSendResult

structure PendingMediaResult where
  linkId : LinkId
  role : LinkEndpointRole
  encryptedLen : Nat
  resultRx : Oneshot LinkEndpointSendResult

structure PendingOutgoingCleanup where
  linkId : LinkId
  unbindSent : Bool
  deriving DecidableEq

structure TelephonyRnsEndpoint (rns : Rns) where
  destinationHash : Hash
  manager : rns.Manager
  inbox : Inbox
  transport : TransportQueue
  outgoingAttempts : Table (OutgoingLinkAttempt rns)
  outgoingLinks : Table (OutgoingLinkState rns)
  pendingOutgoingEvents : List TelephonyLinkEvent
  pendingControlResults : List PendingControlResult
  pendingMediaResults : List PendingMediaResult
  pendingOutgoingCleanup : List PendingOutgoingCleanup
  mediaDrops : Table Nat

/-- A method of the endpoint, and one that may fail. -/
abbrev EndpointM (rns : Rns) := Program (TelephonyRnsEndpoint rns)
abbrev EndpointE (rns : Rns) := ExceptT Error (EndpointM rns)

namespace TelephonyRnsEndpoint

variable {rns : Rns}

/-- An endpoint without outgoing links. -/
def new {rns : Rns} (destinationHash : Hash) (manager : rns.Manager) (inbox : Inbox)
    (transport : TransportQueue) : TelephonyRnsEndpoint rns :=
  { destinationHash, manager, inbox, transport, outgoingAttempts := ∅, outgoingLinks := ∅,
    pendingOutgoingEvents := [], pendingControlResults := [], pendingMediaResults := [],
    pendingOutgoingCleanup := [], mediaDrops := ∅ }

/-- A method that does not fail, and a result that is already there. -/
def always {α : Type} (method : EndpointM rns α) : EndpointE rns α := ExceptT.lift method
def ofResult {α : Type} (result : Except Error α) : EndpointE rns α := ExceptT.mk (pure result)

theorem always_bind {α β : Type} (m : EndpointM rns α) (f : α → EndpointE rns β)
    (self : TelephonyRnsEndpoint rns) : (always m >>= f) self = f (m self).1 (m self).2 := rfl

theorem get_bind {β : Type} (f : TelephonyRnsEndpoint rns → EndpointE rns β)
    (self : TelephonyRnsEndpoint rns) : (always Program.get >>= f) self = f self self := rfl

theorem ofResult_bind_error {α β : Type} {result : Except Error α} {error : Error}
    (h : result = .error error) (f : α → EndpointE rns β) (self : TelephonyRnsEndpoint rns) :
    (ofResult result >>= f) self = (.error error, self) := by
  rw [h]
  rfl

theorem ofResult_bind_ok {α β : Type} {result : Except Error α} {a : α} (h : result = .ok a)
    (f : α → EndpointE rns β) (self : TelephonyRnsEndpoint rns) :
    (ofResult result >>= f) self = f a self := by
  rw [h]
  rfl

/-! ## Sends -/

def trySendTransport (message : TransportMessage) : EndpointE rns Unit :=
  ExceptT.mk fun self =>
    let (result, transport) := self.transport.trySend message
    (result.mapError transportError, { self with transport })

def requestPathToIdentity (identityHash : IdentityHash) : EndpointE rns Unit :=
  trySendTransport (.requestPath (rns.telephonyDestinationHash identityHash))

def deregisterDestination : EndpointE rns Unit := do
  let self ← always Program.get
  trySendTransport (.deregisterDestination self.destinationHash)

def deregisterLinkDestination (linkId : LinkId) : EndpointE rns Unit :=
  trySendTransport (.deregisterDestination linkId)

def announce (entropy : Nat) : EndpointE rns Unit := do
  match rns.announcePacket entropy with
  | none => throw .noSigningKey
  | some raw => do
    let self ← always Program.get
    trySendTransport (.outbound raw self.destinationHash)

/-- `queue_prepared_control` of a message. -/
def queuePreparedControl (linkId : LinkId) (role : LinkEndpointRole)
    (message : TransportMessage) : EndpointE rns Unit := do
  trySendTransport message
  always <| Program.modify fun self => { self with
    pendingControlResults := self.pendingControlResults ++ [⟨linkId, role, .waiting⟩] }

/-! ## Closing an outgoing link -/

/-- `try_advance_outgoing_cleanup`: whether the cleanup is finished, and what is left of it. -/
def tryAdvanceOutgoingCleanup (cleanup : PendingOutgoingCleanup) :
    EndpointM rns (Bool × PendingOutgoingCleanup) := fun self =>
  let (unbound, transport) :=
    if cleanup.unbindSent then (.ok (), self.transport)
    else self.transport.trySend (.unbindLinkEndpoint cleanup.linkId .initiator)
  match unbound with
  | .error .closed => ((true, cleanup), self)
  | .error .full => ((false, cleanup), self)
  | .ok () =>
    let cleanup := { cleanup with unbindSent := true }
    let (deregistered, transport) := transport.trySend (.deregisterDestination cleanup.linkId)
    let finished := match deregistered with
      | .ok () | .error .closed => true
      | .error .full => false
    ((finished, cleanup), { self with transport })

def finishOutgoingLinkLocally (linkId : LinkId) (unbind : Bool) : EndpointM rns Unit := do
  Program.modify fun self => { self with
    outgoingAttempts := self.outgoingAttempts.erase linkId
    outgoingLinks := self.outgoingLinks.erase linkId
    pendingControlResults := self.pendingControlResults.filter (·.linkId ≠ linkId)
    pendingMediaResults := self.pendingMediaResults.filter (·.linkId ≠ linkId)
    mediaDrops := self.mediaDrops.erase linkId }
  if unbind then do
    let (finished, cleanup) ← tryAdvanceOutgoingCleanup { linkId, unbindSent := false }
    Program.modify fun self =>
      if !finished ∧ !self.pendingOutgoingCleanup.any (·.linkId = linkId) then
        { self with pendingOutgoingCleanup := self.pendingOutgoingCleanup ++ [cleanup] }
      else self

def closeOutgoingLinkLocally (linkId : LinkId) : EndpointM rns Unit :=
  finishOutgoingLinkLocally linkId true

/-- `flush_outgoing_cleanup`, on the list of cleanups. -/
def flushCleanups : List PendingOutgoingCleanup → EndpointM rns (List PendingOutgoingCleanup)
  | [] => pure []
  | cleanup :: rest => do
    let (finished, cleanup) ← tryAdvanceOutgoingCleanup cleanup
    if finished then flushCleanups rest else pure (cleanup :: rest)

theorem flushCleanups_cons (cleanup : PendingOutgoingCleanup)
    (cleanups : List PendingOutgoingCleanup) (self : TelephonyRnsEndpoint rns) :
    flushCleanups (cleanup :: cleanups) self =
      if (tryAdvanceOutgoingCleanup cleanup self).1.1 then
        flushCleanups cleanups (tryAdvanceOutgoingCleanup cleanup self).2
      else ((tryAdvanceOutgoingCleanup cleanup self).1.2 :: cleanups,
        (tryAdvanceOutgoingCleanup cleanup self).2) := by
  rw [flushCleanups]
  simp only [bind]
  rcases tryAdvanceOutgoingCleanup cleanup self with ⟨⟨_ | _, cleanup'⟩, self'⟩ <;> rfl

def flushOutgoingCleanup : EndpointM rns Unit := do
  let self ← Program.get
  let left ← flushCleanups self.pendingOutgoingCleanup
  Program.modify fun self => { self with pendingOutgoingCleanup := left }

/-! ## The link manager -/

/-- Runs an operation of the link manager, which shares the transport queue and the inbox. -/
def onManager {α : Type}
    (op : rns.Manager × TransportQueue × Inbox → α × rns.Manager × TransportQueue × Inbox) :
    EndpointM rns α := fun self =>
  let (a, manager, transport, inbox) := op (self.manager, self.transport, self.inbox)
  (a, { self with manager, transport, inbox })

def closeLinkOwner (linkId : LinkId) (role : LinkEndpointRole) : EndpointM rns Unit :=
  match role with
  | .initiator => closeOutgoingLinkLocally linkId
  | .responder => do
    let _ ← onManager fun m => rns.closeLink m linkId false
    pure ()

def tryPumpReticulum : EndpointM rns Bool := onManager rns.tryStep

/-- The link with this identifier that the endpoint holds, and its role. -/
def ownedLink (self : TelephonyRnsEndpoint rns) (linkId : LinkId) :
    Except Error (rns.Link × LinkEndpointRole) :=
  match rns.getLink self.manager linkId with
  | some link => .ok (link, .responder)
  | none =>
    match self.outgoingLinks.lookup linkId with
    | some state => .ok (state.link, .initiator)
    | none => .error .unknownLink

def updateOutgoingLink (linkId : LinkId) (f : rns.Link → rns.Link) : EndpointM rns Unit :=
  Program.modify fun self =>
    match self.outgoingLinks.lookup linkId with
    | some state =>
      { self with outgoingLinks :=
          self.outgoingLinks.replace linkId { state with link := f state.link } }
    | none => self

def updateOwnedLink (linkId : LinkId) (f : rns.Link → rns.Link) : EndpointM rns Unit := do
  let self ← Program.get
  match rns.getLink self.manager linkId with
  | some link => Program.set { self with manager := rns.setLink self.manager (f link) }
  | none => updateOutgoingLink linkId f

/-! ## Commands -/

/-- What `prepare_command_with_link` prepares: the effect, a message with the length of its
encrypted part, and the link after the operation. -/
structure PreparedCommand (rns : Rns) where
  effect : TelephonyCommandEffect
  message : Option (TransportMessage × Nat)
  link : rns.Link

def prepareCommandWithLink (link : rns.Link) (role : LinkEndpointRole)
    (command : TelephonyCommand) : Except Error (PreparedCommand rns) :=
  match command with
  | .sendSignal linkId signal => do
    let raw ← rns.packLxstLinkPacket link (signallingPacket signal)
    .ok { effect := .queuedLinkPacket linkId .lxstData, link,
          message := some (.sendLinkEndpoint (rns.linkId link) role raw,
            rns.packedPayloadLen raw) }
  | .identifyLocalIdentity linkId =>
    match rns.identify link with
    | .error text => .error (.linkOperation text)
    | .ok (encrypted, link) =>
      let raw := rns.linkPacket linkId .linkIdentify encrypted
      .ok { effect := .queuedLinkPacket linkId .linkIdentify, link,
            message := some (.sendLinkEndpoint linkId role raw, rns.packedPayloadLen raw) }
  | .teardownLink linkId =>
    match rns.teardown link with
    | (none, link) => .ok { effect := .noop, message := none, link }
    | (some encrypted, link) =>
      let raw := rns.linkPacket linkId .linkClose encrypted
      .ok { effect := .queuedLinkPacket linkId .linkClose, link,
            message := some (.sendLinkEndpointAndUnbind linkId role raw,
              rns.packedPayloadLen raw) }
  | _ => .ok { effect := .noop, message := none, link }

/-- A command for a link of the manager. -/
def executeManagedCommand (linkId : LinkId) (command : TelephonyCommand) :
    EndpointE rns TelephonyCommandEffect :=
  match command with
  | .sendSignal _ signal => do
    let payload ← ofResult (rns.encodePacket (signallingPacket signal))
    match ← always (onManager fun m => rns.sendLinkPacket m linkId payload) with
    | .ok () => pure (.queuedLinkPacket linkId .lxstData)
    | .error text => throw (.linkOperation text)
  | .identifyLocalIdentity _ => do
    match ← always (onManager fun m => rns.sendLinkIdentify m linkId) with
    | .ok () => pure (.queuedLinkPacket linkId .linkIdentify)
    | .error text => throw (.linkOperation text)
  | .teardownLink _ => do
    let closed ← always (onManager fun m => rns.closeLink m linkId true)
    pure (if closed then .queuedLinkPacket linkId .linkClose else .noop)
  | _ => pure .noop

def isTeardown : TelephonyCommand → Bool
  | .teardownLink _ => true
  | _ => false

/-- The commands that act on a link. -/
def actsOnLink : TelephonyCommand → Bool
  | .sendSignal .. | .identifyLocalIdentity _ | .teardownLink _ => true
  | _ => false

/-- A command for a link that the endpoint opened. -/
def executeOutgoingCommand (linkId : LinkId) (command : TelephonyCommand) :
    EndpointE rns TelephonyCommandEffect := do
  let self ← always Program.get
  match self.outgoingLinks.lookup linkId with
  | none => throw .unknownLink
  | some state => do
    let prepared ← ofResult (prepareCommandWithLink state.link .initiator command)
    always (updateOutgoingLink linkId fun _ => prepared.link)
    match prepared.message with
    | none => pure ()
    | some (message, encryptedLen) =>
      match ← always (queuePreparedControl linkId .initiator message).run with
      | .error error => do
        if isTeardown command then always (closeOutgoingLinkLocally linkId)
        throw error
      | .ok () => always (updateOutgoingLink linkId fun link => rns.recordTx link encryptedLen)
    if isTeardown command then always (finishOutgoingLinkLocally linkId false)
    pure prepared.effect

def executeCommand (command : TelephonyCommand) : EndpointE rns TelephonyCommandEffect := do
  if !actsOnLink command then pure .noop
  else do
    let linkId := command.linkId
    let self ← always Program.get
    if (rns.getLink self.manager linkId).isSome then executeManagedCommand linkId command
    else if isTeardown command ∧ (self.outgoingAttempts.lookup linkId).isSome then do
      always (closeOutgoingLinkLocally linkId)
      pure .noop
    else executeOutgoingCommand linkId command

/-- Stops at the first command that fails. -/
def executeCommands : List TelephonyCommand → EndpointE rns (List TelephonyCommandEffect)
  | [] => pure []
  | command :: commands => do
    let effect ← executeCommand command
    let effects ← executeCommands commands
    pure (effect :: effects)

def signalCommands (commands : List TelephonyCommand) : List (LinkId × Signal) :=
  commands.filterMap fun
    | .sendSignal linkId signal => some (linkId, signal)
    | _ => none

/-- A prepared packet of a batch: its message, with the length of its encrypted part. -/
structure PreparedSignal where
  linkId : LinkId
  role : LinkEndpointRole
  message : TransportMessage
  encryptedLen : Nat

/-- The packet of one signal of a batch. -/
def prepareSignal (self : TelephonyRnsEndpoint rns) (command : LinkId × Signal) :
    Except Error PreparedSignal := do
  let (link, role) ← self.ownedLink command.1
  let raw ← rns.packLxstLinkPacket link (signallingPacket command.2)
  .ok { linkId := command.1, role, message := .sendLinkEndpoint (rns.linkId link) role raw,
        encryptedLen := rns.packedPayloadLen raw }

def batchEffects (commands : List TelephonyCommand) : List TelephonyCommandEffect :=
  commands.map fun
    | .sendSignal linkId _ => .queuedLinkPacket linkId .lxstData
    | _ => .noop

/-- The bookkeeping of sent packets: the links' counters and the pending results. -/
def recordSends : List PreparedSignal → EndpointM rns Unit
  | [] => pure ()
  | prepared :: rest => do
    updateOwnedLink prepared.linkId fun link => rns.recordTx link prepared.encryptedLen
    Program.modify fun self => { self with
      pendingControlResults :=
        self.pendingControlResults ++ [⟨prepared.linkId, prepared.role, .waiting⟩] }
    recordSends rest

/-- All signals of the batch are sent, or none. -/
def executeSignallingBatch (commands : List TelephonyCommand) :
    EndpointE rns (List TelephonyCommandEffect) := do
  let self ← always Program.get
  let prepared ← ofResult ((signalCommands commands).mapM self.prepareSignal)
  let (result, transport) := self.transport.trySendAll (prepared.map (·.message))
  ofResult (result.mapError transportError)
  always (Program.set { self with transport })
  always (recordSends prepared)
  pure (batchEffects commands)

/-! ## Outgoing calls -/

/-- `begin_outgoing_link_with_remote_pubkey`; the core is threaded through. -/
def beginOutgoingLinkWithRemotePubkey (self : TelephonyRnsEndpoint rns)
    (core : TelephonyRuntimeCore) (remoteIdentity : IdentityHash)
    (remotePublicKey : Vector UInt8 64) (profile : Option Profile) (hops : Nat) (entropy : Nat) :
    Except Error LinkId × TelephonyRnsEndpoint rns × TelephonyRuntimeCore :=
  let destinationHash := rns.telephonyDestinationHash remoteIdentity
  match requestPathToIdentity remoteIdentity self with
  | (.error error, self) => (.error error, self, core)
  | (.ok (), self) =>
    let (link, requestData) := rns.newInitiator destinationHash (max hops 1) entropy
    let linkId := rns.linkId link
    match core.startOutgoingCall linkId remoteIdentity profile with
    | (.error error, core) => (.error error, self, core)
    | (.ok (), core) =>
      match trySendTransport (.registerDestination linkId TELEPHONY_DESTINATION_NAME) self with
      | (.error error, self) => (.error error, self, core)
      | (.ok (), self) =>
        match trySendTransport (.sendLinkRequest
            (rns.linkRequestPacket destinationHash requestData) destinationHash) self with
        | (.error error, self) =>
          let ((), self) := closeOutgoingLinkLocally linkId self
          (.error error, self, core)
        | (.ok (), self) =>
          let attempt := { dispatchResult := some .waiting, link, remotePublicKey,
                           eventRx := { queue := [], connected := true } }
          (.ok linkId,
            { self with outgoingAttempts := self.outgoingAttempts.insert linkId attempt }, core)

end TelephonyRnsEndpoint

end Lxst.Telephony
