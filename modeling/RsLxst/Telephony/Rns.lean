import RsLxst.Telephony.Runtime

/-!
# Reticulum and the transport queue

The crates below `lxst-telephony` are outside the repository. `Rns` collects what the endpoint uses
of them: links, the link manager, packet headers and the MessagePack library. Keys, identities and
random bytes are hidden in these functions; where the library draws randomness the function takes
it as `entropy`. A bounded `mpsc` sender is a `BoundedQueue`, a receiver a `Mailbox` and a
one-shot receiver a `Oneshot`.
-/

set_option autoImplicit false

namespace Lxst.Telephony

abbrev Hash := Vector UInt8 16

def TELEPHONY_DESTINATION_NAME : String := "lxst.telephony"

/-! ## Channels -/

/-- The receiving end of a one-shot channel. -/
inductive Oneshot (α : Type)
  | waiting
  | ready (value : α)
  | closed
  deriving DecidableEq

/-- The receiving end of a channel: what is queued, and whether a sender is left. -/
structure Mailbox (α : Type) where
  queue : List α
  connected : Bool
  deriving DecidableEq

inductive LinkEndpointRole
  | initiator
  | responder
  deriving DecidableEq, Repr

inductive LinkEndpointSendResult
  | sent
  | queued
  | droppedBackpressure
  | failed
  deriving DecidableEq, Repr

inductive LinkEndpointBindResult
  | bound
  | alreadyBound
  | failed
  deriving DecidableEq, Repr

inductive TransportMessage
  | registerDestination (hash : Hash) (appName : String)
  | deregisterDestination (hash : Hash)
  | requestPath (destinationHash : Hash)
  | outbound (raw : List UInt8) (destinationHash : Hash)
  | sendLinkRequest (raw : List UInt8) (destinationHash : Hash)
  | bindLinkEndpoint (linkId : LinkId) (interfaceId : Nat) (interfaceOwner : Option Nat)
      (role : LinkEndpointRole)
  | unbindLinkEndpoint (linkId : LinkId) (role : LinkEndpointRole)
  | sendLinkEndpoint (linkId : LinkId) (role : LinkEndpointRole) (raw : List UInt8)
  | sendLinkEndpointAndUnbind (linkId : LinkId) (role : LinkEndpointRole) (raw : List UInt8)
  | sendLinkEndpointBestEffort (linkId : LinkId) (role : LinkEndpointRole) (raw : List UInt8)
  deriving DecidableEq, Repr

inductive TrySendError
  | full
  | closed
  deriving DecidableEq, Repr

/-- The sending end of a bounded channel. -/
structure BoundedQueue (α : Type) where
  queue : List α
  capacity : Nat
  closed : Bool
  deriving DecidableEq, Repr

namespace BoundedQueue

variable {α : Type}

/-- The slots that are free. -/
def free (self : BoundedQueue α) : Nat := self.capacity - self.queue.length

/-- `mpsc::Sender::try_send` -/
def trySend (self : BoundedQueue α) (value : α) : Except TrySendError Unit × BoundedQueue α :=
  if self.closed then (.error .closed, self)
  else if self.free = 0 then (.error .full, self)
  else (.ok (), { self with queue := self.queue ++ [value] })

/-- `try_reserve_owned` for every value, then all sends; a failed reservation sends nothing. -/
def trySendAll (self : BoundedQueue α) (values : List α) :
    Except TrySendError Unit × BoundedQueue α :=
  if values.isEmpty then (.ok (), self)
  else if self.closed then (.error .closed, self)
  else if self.free < values.length then (.error .full, self)
  else (.ok (), { self with queue := self.queue ++ values })

end BoundedQueue

abbrev TransportQueue := BoundedQueue TransportMessage

/-- `map_transport_try_send_error` -/
def transportError : TrySendError → Error
  | .full => .transportFull
  | .closed => .transportClosed

/-! ## The library -/

inductive PacketContext
  | none
  | lrrtt
  | keepalive
  | linkIdentify
  | linkClose
  | other
  deriving DecidableEq, Repr

/-- What the endpoint reads of a packet header. -/
structure PacketHeader where
  isProof : Bool
  destinationHash : Hash
  context : PacketContext
  deriving DecidableEq, Repr

inductive LinkAction
  | none
  | sendKeepalive
  | transitionedToStale
  | sendTeardownAndClose (encrypted : List UInt8)
  | closed
  deriving DecidableEq, Repr

/-- The channels that the link manager reports to. -/
structure Inbox where
  established : List LinkId
  identified : List (LinkId × IdentityHash)
  packets : List (List UInt8 × LinkId)
  closed : List LinkId
  deriving DecidableEq

structure Rns where
  Link : Type
  Manager : Type
  Metrics : Type
  readValue : List UInt8 → Except String MsgPack.Value
  writeValue : MsgPack.Value → Except String (List UInt8)
  telephonyDestinationHash : IdentityHash → Hash
  /-- The signed announce packet; no value without a signing key. -/
  announcePacket : (entropy : Nat) → Option (List UInt8)
  /-- `Link::new_initiator`: the link and its request data. -/
  newInitiator : Hash → (hops : Nat) → (entropy : Nat) → Link × List UInt8
  linkRequestPacket : Hash → (requestData : List UInt8) → List UInt8
  /-- A link data packet of the given context. -/
  linkPacket : LinkId → PacketContext → (encrypted : List UInt8) → List UInt8
  /-- The byte of a keepalive request. -/
  keepaliveRequest : UInt8
  unpackHeader : List UInt8 → Except String (PacketHeader × Nat)
  linkId : Link → LinkId
  /-- The state of a link that is not active. -/
  inactiveState : Link → Option String
  mdu : Link → Nat
  encrypt : Link → List UInt8 → Except String (List UInt8)
  decrypt : Link → List UInt8 → Except String (List UInt8)
  /-- `identify_with_fallible`, signed by the local identity. -/
  identify : Link → Except String (List UInt8 × Link)
  teardown : Link → Option (List UInt8) × Link
  receiveTeardown : Link → List UInt8 → Bool × Link
  /-- The signing half of a remote public key. -/
  VerifyKey : Type
  verifyKey : Vector UInt8 64 → Except String VerifyKey
  validateProof : Link → List UInt8 → VerifyKey → Option (List UInt8) × Link
  tickLink : Link → LinkAction × Link
  recordTx : Link → Nat → Link
  recordRx : Link → Nat → Link
  recordInbound : Link → Link
  recordTxKeepalive : Link → Link
  updatePhyStats : Link → Metrics → Link
  updatePhyStatsForce : Link → Metrics → Link
  /-- The manager's links; they accept the same operations. -/
  getLink : Manager → LinkId → Option Link
  setLink : Manager → Link → Manager
  /-- The manager's own operations enqueue on the shared transport queue and report to the inbox. -/
  tryStep : Manager × TransportQueue × Inbox → Bool × Manager × TransportQueue × Inbox
  tickManager : Manager × TransportQueue × Inbox → Manager × TransportQueue × Inbox
  sendLinkPacket : Manager × TransportQueue × Inbox → LinkId → List UInt8 →
    Except String Unit × Manager × TransportQueue × Inbox
  sendLinkIdentify : Manager × TransportQueue × Inbox → LinkId →
    Except String Unit × Manager × TransportQueue × Inbox
  closeLink : Manager × TransportQueue × Inbox → LinkId → (sendClose : Bool) →
    Bool × Manager × TransportQueue × Inbox

/-- `signalling_packet` -/
def signallingPacket (signal : Signal) : LxstPacket := LxstPacket.signalling [signal]

namespace Rns

variable (rns : Rns)

/-- `LxstPacket::encode`, with the error text of `lxst-rns`. -/
def encodePacket (packet : LxstPacket) : Except Error (List UInt8) :=
  match packet.encode rns.writeValue with
  | .ok bytes => .ok bytes
  | .error error => .error (.rns ("LXST core error: " ++ error.toText))

/-- `pack_lxst_link_packet`: the raw link packet. -/
def packLxstLinkPacket (link : rns.Link) (packet : LxstPacket) : Except Error (List UInt8) := do
  let payload ← rns.encodePacket packet
  match rns.inactiveState link with
  | some state => .error (.rns ("Reticulum link is not active: " ++ state))
  | none =>
    if payload.length > rns.mdu link then
      .error (.rns ("LXST payload length " ++ toString payload.length ++
        " exceeds link MDU " ++ toString (rns.mdu link)))
    else
      match rns.encrypt link payload with
      | .ok encrypted => .ok (rns.linkPacket (rns.linkId link) .none encrypted)
      | .error text => .error (.rns ("Reticulum link encryption failed: " ++ text))

/-- `packed_payload_len` -/
def packedPayloadLen (raw : List UInt8) : Nat :=
  match rns.unpackHeader raw with
  | .ok (_, dataOffset) => raw.length - dataOffset
  | .error _ => 0

end Rns

/-! ## A plain instance -/

/-- The MessagePack form of a small unsigned number. -/
def writeUint (n : Nat) : List UInt8 :=
  if n < 128 then [UInt8.ofNat n]
  else if n < 256 then [0xcc, UInt8.ofNat n]
  else if n < 65536 then [0xcd, UInt8.ofNat (n / 256), UInt8.ofNat n]
  else [0xce, UInt8.ofNat (n / 16777216), UInt8.ofNat (n / 65536), UInt8.ofNat (n / 256),
    UInt8.ofNat n]

/-- The MessagePack form of a signalling packet with few signals. -/
def writeSignalling : MsgPack.Value → Except String (List UInt8)
  | .map [(.integer field, .array signals)] => do
    let numbers ← signals.mapM fun
      | .integer n => .ok (writeUint n.toNat)
      | _ => .error "not a signal"
    .ok (0x81 :: writeUint field.toNat ++ UInt8.ofNat (0x90 + signals.length) :: numbers.flatten)
  | _ => .error "not a signalling packet"

namespace Rns

/-- Enqueues a message of the plain manager. -/
def plainSend (m : List LinkId × TransportQueue × Inbox) (message : TransportMessage) :
    Except String Unit × List LinkId × TransportQueue × Inbox :=
  let (result, queue) := m.2.1.trySend message
  (result.mapError fun _ => "transport queue full", m.1, queue, m.2.2)

/-- A Reticulum without secrets: a link is its identifier, a packet is its payload, and the
manager is the list of its links. -/
def plain : Rns where
  Link := LinkId
  Manager := List LinkId
  Metrics := Unit
  VerifyKey := Unit
  readValue := firstValue
  writeValue := writeSignalling
  telephonyDestinationHash identity := identity
  announcePacket _ := some []
  newInitiator _ _ entropy := (Vector.replicate 16 (UInt8.ofNat entropy), [])
  linkRequestPacket _ requestData := requestData
  linkPacket _ _ encrypted := encrypted
  keepaliveRequest := 0xff
  unpackHeader _ := .error "no header"
  linkId link := link
  inactiveState _ := none
  mdu _ := 431
  encrypt _ payload := .ok payload
  decrypt _ body := .ok body
  identify link := .ok ([], link)
  teardown link := (some [], link)
  receiveTeardown link _ := (true, link)
  verifyKey _ := .ok ()
  validateProof link body _ := (some body, link)
  tickLink link := (.none, link)
  recordTx link _ := link
  recordRx link _ := link
  recordInbound link := link
  recordTxKeepalive link := link
  updatePhyStats link _ := link
  updatePhyStatsForce link _ := link
  getLink manager linkId := if manager.contains linkId then some linkId else none
  setLink manager _ := manager
  tryStep m := (false, m)
  tickManager m := m
  sendLinkPacket m linkId payload := plainSend m (.sendLinkEndpoint linkId .responder payload)
  sendLinkIdentify m linkId := plainSend m (.sendLinkEndpoint linkId .responder [])
  closeLink m linkId sendClose :=
    let (_, manager, queue, inbox) :=
      if sendClose then plainSend m (.sendLinkEndpointAndUnbind linkId .responder [])
      else (.ok (), m)
    (m.1.contains linkId, manager.erase linkId, queue, inbox)

end Rns

end Lxst.Telephony
