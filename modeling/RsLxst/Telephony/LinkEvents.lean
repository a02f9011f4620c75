import RsLxst.Telephony.Endpoint

/-!
# The telephony endpoint: link events

The receiving side of `TelephonyRnsEndpoint`: the manager's notifications, the outgoing attempts
and links, the results of earlier sends, and the loop `try_drive_ready`, which applies the events
to the core. The loop ends when nothing is left to do; `fuel` bounds its turns, and a call that
needs more is not finished (`none`).
-/

set_option autoImplicit false

namespace Lxst.Telephony.TelephonyRnsEndpoint

variable {rns : Rns}

/-! ## Events of outgoing attempts and links -/

/-- The end of an outgoing link, reported once. -/
def outgoingClosed (linkId : LinkId) : EndpointE rns (Option TelephonyLinkEvent) := do
  always (closeOutgoingLinkLocally linkId)
  pure (some (.linkClosed linkId))

/-- A proof packet for a pending attempt. -/
def receiveProof (linkId : LinkId) (body : List UInt8) (interfaceId : Nat)
    (interfaceOwner : Option Nat) (metrics : rns.Metrics) :
    EndpointE rns (Option TelephonyLinkEvent) := do
  let self ← always Program.get
  match self.outgoingAttempts.lookup linkId with
  | none => throw .unknownLink
  | some attempt =>
    match rns.verifyKey attempt.remotePublicKey with
    | .error text => throw (.linkProofInvalid text)
    | .ok key =>
      match rns.validateProof attempt.link body key with
      | (none, link) => do
        -- an invalid candidate leaves the attempt pending
        always <| Program.set { self with
          outgoingAttempts := self.outgoingAttempts.replace linkId { attempt with link } }
        pure none
      | (some rttData, link) => do
        let link := rns.updatePhyStatsForce link metrics
        let bind := TransportMessage.bindLinkEndpoint linkId interfaceId interfaceOwner .initiator
        let rtt := TransportMessage.sendLinkEndpoint linkId .initiator
          (rns.linkPacket linkId .lrrtt rttData)
        match self.transport.trySendAll [bind, rtt] with
        | (.error error, _) => do
          always (closeOutgoingLinkLocally linkId)
          always <| Program.modify fun self => { self with
            pendingOutgoingEvents := self.pendingOutgoingEvents ++ [.linkClosed linkId] }
          throw (transportError error)
        | (.ok (), transport) => do
          let state :=
            { link, eventRx := attempt.eventRx,
              endpoint := some
                { interfaceOwner, attachedInterface := interfaceId,
                  bindResultRx := some .waiting,
                  lifecycleRx := { queue := [], connected := true } } }
          always <| Program.set { self with
            transport
            outgoingAttempts := self.outgoingAttempts.erase linkId
            pendingControlResults :=
              self.pendingControlResults ++ [⟨linkId, .initiator, .waiting⟩]
            outgoingLinks := self.outgoingLinks.insert linkId state }
          pure (some (.linkEstablished linkId))

def handleOutgoingAttemptEvent (linkId : LinkId) (event : DestinationEvent rns) :
    EndpointE rns (Option TelephonyLinkEvent) :=
  match event with
  | .linkClosed closedId => if closedId = linkId then outgoingClosed linkId else pure none
  | .other => pure none
  | .inboundPacket raw interfaceId interfaceOwner metrics =>
    match rns.unpackHeader raw with
    | .error _ => pure none
    | .ok (header, dataOffset) =>
      if header.destinationHash ≠ linkId ∨ !header.isProof ∨ raw.length ≤ dataOffset then pure none
      else receiveProof linkId (raw.drop dataOffset) interfaceId interfaceOwner metrics

/-- A packet for an established outgoing link, from its own interface. -/
def receiveActivePacket (linkId : LinkId) (context : PacketContext) (body : List UInt8)
    (metrics : rns.Metrics) : EndpointE rns (Option TelephonyLinkEvent) := do
  let self ← always Program.get
  match self.outgoingLinks.lookup linkId with
  | none => throw .unknownLink
  | some state => do
    always (updateOutgoingLink linkId fun link => rns.updatePhyStats link metrics)
    let link := rns.updatePhyStats state.link metrics
    let count (link : rns.Link) := rns.recordRx (rns.recordInbound link) body.length
    match context with
    | .linkClose => do
      let (closed, link) := rns.receiveTeardown link body
      always (updateOutgoingLink linkId fun _ => link)
      if closed then outgoingClosed linkId else pure none
    | .none =>
      match rns.decrypt link body with
      | .error text => throw (.linkOperation text)
      | .ok plaintext => do
        always (updateOutgoingLink linkId count)
        pure (some (.linkPacket linkId plaintext))
    | .keepalive => do
      always (updateOutgoingLink linkId count)
      pure none
    | _ => pure none

def handleOutgoingActiveEvent (linkId : LinkId) (event : DestinationEvent rns) :
    EndpointE rns (Option TelephonyLinkEvent) := do
  match event with
  | .linkClosed closedId => if closedId = linkId then outgoingClosed linkId else pure none
  | .other => pure none
  | .inboundPacket raw interfaceId interfaceOwner metrics => do
    let self ← always Program.get
    let endpoint := (self.outgoingLinks.lookup linkId).bind (·.endpoint)
    if endpoint.any fun endpoint =>
        endpoint.attachedInterface ≠ interfaceId ∨ endpoint.interfaceOwner ≠ interfaceOwner then
      pure none
    else
      match rns.unpackHeader raw with
      | .error text => throw (.linkOperation text)
      | .ok (header, dataOffset) =>
        if header.destinationHash ≠ linkId ∨ raw.length < dataOffset then pure none
        else receiveActivePacket linkId header.context (raw.drop dataOffset) metrics

/-! ## Results of earlier sends -/

/-- `try_recv` on a bind result: the result left to wait for, and whether the link ends. -/
def pollBindResult : Option (Oneshot LinkEndpointBindResult) →
    Option (Oneshot LinkEndpointBindResult) × Bool
  | none => (none, false)
  | some .waiting => (some .waiting, false)
  | some (.ready .bound) | some (.ready .alreadyBound) => (none, false)
  | some result => (some result, true)

/-- The bindings of the given outgoing links, up to the first that has ended. -/
def pollBindings : List LinkId → EndpointE rns (Option TelephonyLinkEvent)
  | [] => pure none
  | linkId :: rest => do
    let self ← always Program.get
    match self.outgoingLinks.lookup linkId with
    | some { link, eventRx, endpoint := some endpoint } => do
      let (bindResultRx, unbound) := pollBindResult endpoint.bindResultRx
      let terminal := unbound || !endpoint.lifecycleRx.queue.isEmpty ||
        !endpoint.lifecycleRx.connected
      let endpoint := { endpoint with
        bindResultRx
        lifecycleRx.queue := endpoint.lifecycleRx.queue.tail }
      let state := { link, eventRx, endpoint := some endpoint }
      always <| Program.set { self with
        outgoingLinks := self.outgoingLinks.replace linkId state }
      if terminal then outgoingClosed linkId else pollBindings rest
    | _ => pollBindings rest

def sendSucceeded : Oneshot LinkEndpointSendResult → Bool
  | .ready .sent | .ready .queued => true
  | _ => false

def isWaiting {α : Type} : Oneshot α → Bool
  | .waiting => true
  | _ => false

/-- The pending control results: the link whose result was the first to fail is closed. -/
def pollControlResults : EndpointE rns (Option TelephonyLinkEvent) := do
  let self ← always Program.get
  let failed := self.pendingControlResults.find? fun pending =>
    !isWaiting pending.resultRx && !sendSucceeded pending.resultRx
  always <| Program.set { self with
    pendingControlResults := self.pendingControlResults.filter (isWaiting ·.resultRx) }
  match failed with
  | none => pure none
  | some pending => do
    always (closeLinkOwner pending.linkId pending.role)
    pure (some (.linkClosed pending.linkId))

/-- `*self.media_drops.entry(link_id).or_default() += 1` -/
def countDrop (linkId : LinkId) : EndpointM rns Unit :=
  Program.modify fun self => { self with
    mediaDrops := self.mediaDrops.insert linkId ((self.mediaDrops.lookup linkId).getD 0 + 1) }

def countDrops : List PendingMediaResult → EndpointM rns Unit
  | [] => pure ()
  | pending :: rest => do
    if pending.resultRx = .ready .droppedBackpressure then countDrop pending.linkId
    countDrops rest

/-- The counter of a link that sent media, by the role it was sent in. -/
def recordMediaSent (pending : PendingMediaResult) : EndpointM rns Unit := do
  match pending.role with
  | .responder => do
    let self ← Program.get
    match rns.getLink self.manager pending.linkId with
    | some link => Program.set { self with
        manager := rns.setLink self.manager (rns.recordTx link pending.encryptedLen) }
    | none => pure ()
  | .initiator =>
    updateOutgoingLink pending.linkId fun link => rns.recordTx link pending.encryptedLen

def recordMediaSents : List PendingMediaResult → EndpointM rns Unit
  | [] => pure ()
  | pending :: rest => do
    if sendSucceeded pending.resultRx then recordMediaSent pending
    recordMediaSents rest

def pollMediaResults : EndpointE rns (Option TelephonyLinkEvent) := do
  let self ← always Program.get
  let pendings := self.pendingMediaResults
  let failed := pendings.find? fun pending =>
    !isWaiting pending.resultRx && !sendSucceeded pending.resultRx &&
      pending.resultRx ≠ .ready .droppedBackpressure
  always (countDrops pendings)
  always <| Program.modify fun self => { self with
    pendingMediaResults := pendings.filter (isWaiting ·.resultRx) }
  always (recordMediaSents pendings)
  match failed with
  | none => pure none
  | some pending => do
    always (closeLinkOwner pending.linkId pending.role)
    pure (some (.linkClosed pending.linkId))

/-- The first event of two sources. -/
def orElseEvent (first second : EndpointE rns (Option TelephonyLinkEvent)) :
    EndpointE rns (Option TelephonyLinkEvent) := do
  match ← first with
  | some event => pure (some event)
  | none => second

def pollOutgoingEndpointState : EndpointE rns (Option TelephonyLinkEvent) := do
  let self ← always Program.get
  orElseEvent (pollBindings self.outgoingLinks.keys)
    (orElseEvent pollControlResults pollMediaResults)

/-! ## Receiving -/

/-- One pending attempt: its dispatch result, then its next event. -/
def pollAttempt (linkId : LinkId) : EndpointE rns (Option TelephonyLinkEvent) := do
  let self ← always Program.get
  match self.outgoingAttempts.lookup linkId with
  | none => pure none
  | some attempt =>
    match attempt.dispatchResult with
    | some (.ready false) | some .closed => outgoingClosed linkId
    | some .waiting => pure none
    | none | some (.ready true) =>
      let attempt := { attempt with dispatchResult := none }
      match attempt.eventRx.queue with
      | event :: queue => do
        let attempt := { attempt with eventRx.queue := queue }
        always <| Program.set { self with
          outgoingAttempts := self.outgoingAttempts.replace linkId attempt }
        handleOutgoingAttemptEvent linkId event
      | [] => do
        always <| Program.set { self with
          outgoingAttempts := self.outgoingAttempts.replace linkId attempt }
        if attempt.eventRx.connected then pure none else outgoingClosed linkId

def pollAttempts : List LinkId → EndpointE rns (Option TelephonyLinkEvent)
  | [] => pure none
  | linkId :: rest => orElseEvent (pollAttempt linkId) (pollAttempts rest)

/-- The established outgoing links, up to the first with an event, whatever comes of it. -/
def pollLinks : List LinkId → EndpointE rns (Option TelephonyLinkEvent)
  | [] => pure none
  | linkId :: rest => do
    let self ← always Program.get
    match self.outgoingLinks.lookup linkId with
    | none => pollLinks rest
    | some state =>
      match state.eventRx.queue with
      | event :: queue => do
        let state := { state with eventRx.queue := queue }
        always <| Program.set { self with
          outgoingLinks := self.outgoingLinks.replace linkId state }
        handleOutgoingActiveEvent linkId event
      | [] => if state.eventRx.connected then pollLinks rest else outgoingClosed linkId

def tryRecvOutgoingEvent : EndpointE rns (Option TelephonyLinkEvent) := do
  always flushOutgoingCleanup
  let self ← always Program.get
  match self.pendingOutgoingEvents with
  | event :: rest => do
    always (Program.set { self with pendingOutgoingEvents := rest })
    pure (some event)
  | [] =>
    orElseEvent pollOutgoingEndpointState do
      let self ← always Program.get
      orElseEvent (pollAttempts self.outgoingAttempts.keys) do
        let self ← always Program.get
        pollLinks self.outgoingLinks.keys

/-- `try_recv_link_event`: the manager's channels in order, then the outgoing side. -/
def tryRecvLinkEvent : EndpointE rns (Option TelephonyLinkEvent) := do
  let self ← always Program.get
  match self.inbox with
  | { established := linkId :: rest, .. } => do
    always (Program.set { self with inbox.established := rest })
    pure (some (.linkEstablished linkId))
  | { identified := (linkId, remoteIdentity) :: rest, .. } => do
    always (Program.set { self with inbox.identified := rest })
    pure (some (.remoteIdentified linkId remoteIdentity))
  | { packets := (plaintext, linkId) :: rest, .. } => do
    always (Program.set { self with inbox.packets := rest })
    pure (some (.linkPacket linkId plaintext))
  | { closed := linkId :: rest, .. } => do
    always (Program.set { self with inbox.closed := rest })
    pure (some (.linkClosed linkId))
  | _ => tryRecvOutgoingEvent

/-! ## Driving the core -/

structure TelephonyDriveStep where
  step : TelephonyStep
  effects : List TelephonyCommandEffect
  deriving DecidableEq, Repr

/-- The endpoint and the core that its events are applied to. -/
structure Line (rns : Rns) where
  endpoint : TelephonyRnsEndpoint rns
  core : TelephonyRuntimeCore

/-- `try_step` -/
def tryStep (line : Line rns) : Except Error (Option TelephonyStep) × Line rns :=
  match tryRecvLinkEvent line.endpoint with
  | (.error error, endpoint) => (.error error, { line with endpoint })
  | (.ok none, endpoint) => (.ok none, { line with endpoint })
  | (.ok (some event), endpoint) =>
    let (result, core) := line.core.acceptLinkEvent rns.readValue event
    (result.map some, { endpoint, core })

def tryDriveOnce (line : Line rns) : Except Error (Option TelephonyDriveStep) × Line rns :=
  match tryStep line with
  | (.error error, line) => (.error error, line)
  | (.ok none, line) => (.ok none, line)
  | (.ok (some step), line) =>
    match executeCommands step.commands line.endpoint with
    | (.error error, endpoint) => (.error error, { line with endpoint })
    | (.ok effects, endpoint) => (.ok (some { step, effects }), { line with endpoint })

/-- `while self.try_pump_reticulum() { progressed = true; }` -/
def pumpAll : (fuel : Nat) → Line rns → Bool → Option (Bool × Line rns)
  | 0, _, _ => none
  | fuel + 1, line, progressed =>
    let (more, endpoint) := tryPumpReticulum line.endpoint
    if more then pumpAll fuel { line with endpoint } true
    else some (progressed, { line with endpoint })

/-- `while let Some(step) = self.try_drive_once(core)? { driven.push(step); progressed = true; }` -/
def driveAll : (fuel : Nat) → Line rns → List TelephonyDriveStep → Bool →
    Option (Except Error (List TelephonyDriveStep × Bool) × Line rns)
  | 0, _, _, _ => none
  | fuel + 1, line, driven, progressed =>
    match tryDriveOnce line with
    | (.error error, line) => some (.error error, line)
    | (.ok none, line) => some (.ok (driven, progressed), line)
    | (.ok (some step), line) => driveAll fuel line (driven ++ [step]) true

def driveLoop : (fuel : Nat) → Line rns → List TelephonyDriveStep →
    Option (Except Error (List TelephonyDriveStep) × Line rns)
  | 0, _, _ => none
  | fuel + 1, line, driven => do
    let (progressed, line) ← pumpAll fuel line false
    match ← driveAll fuel line driven progressed with
    | (.error error, line) => some (.error error, line)
    | (.ok (driven, progressed), line) =>
      if progressed then driveLoop fuel line driven else some (.ok driven, line)

def tryDriveReady (fuel : Nat) (line : Line rns) :
    Option (Except Error (List TelephonyDriveStep) × Line rns) := driveLoop fuel line []

end Lxst.Telephony.TelephonyRnsEndpoint
