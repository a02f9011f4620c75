import RsLxst.Telephony.LinkEvents
import RsLxst.Telephony.Proof.Outgoing

/-!
# The race for a pending attempt

Anybody can send proof packets to a link that is being set up. A candidate that does not validate
changes nothing (`handle_refused`), so neither does a sequence of them (`receiveAll_refused`). The
first that validates decides: with two free slots it is bound and answered (`handle_proven`),
without them the attempt is retired (`handle_unanswered`). `proof_race` puts them together; the
transport queue may be another one for each event.
-/

set_option autoImplicit false

namespace Lxst.Telephony

/-! ## Tables and queues -/

theorem Table.replace_self {α : Type} {table : Table α} {linkId : LinkId} {a : α}
    (h : table.lookup linkId = some a) : table.replace linkId a = table := by
  apply AList.ext
  exact List.kreplace_self table.nodupKeys (AList.mem_lookup_iff.1 h)

namespace BoundedQueue

variable {α : Type} (q : BoundedQueue α)

/-- What is sent is behind what is there. -/
def push (sent : List α) : BoundedQueue α := { q with queue := q.queue ++ sent }

theorem push_nil : q.push [] = q := by simp [push]

theorem trySend_push (a : α) : ∃ sent, sent <+: [a] ∧ (q.trySend a).2 = q.push sent ∧
    ((q.trySend a).1 = .ok () → sent = [a]) := by
  unfold trySend
  split
  · exact ⟨[], List.nil_prefix, q.push_nil.symm, nofun⟩
  split
  · exact ⟨[], List.nil_prefix, q.push_nil.symm, nofun⟩
  · exact ⟨[a], List.prefix_refl _, rfl, fun _ => rfl⟩

theorem trySendAll_eq (q : BoundedQueue α) {values : List α} (hne : values ≠ []) :
    q.trySendAll values =
      if q.closed = false ∧ values.length ≤ q.free then (.ok (), q.push values)
      else (.error (if q.closed then .closed else .full), q) := by
  have hempty : values.isEmpty = false := by simpa using hne
  unfold trySendAll
  rw [hempty]
  cases hclosed : q.closed with
  | true => rfl
  | false =>
    by_cases hroom : values.length ≤ q.free
    · simp [hroom, Nat.not_lt.2 hroom, push, hclosed]
    · simp [hroom, Nat.lt_of_not_le hroom]

end BoundedQueue

namespace TelephonyRnsEndpoint

variable {rns : Rns} {self : TelephonyRnsEndpoint rns} {linkId : LinkId}

/-! ## Candidates that do not validate -/

/-- A link that refuses a proof is as it was. -/
def RefusesCleanly (rns : Rns) : Prop :=
  ∀ link body key, (rns.validateProof link body key).1 = none →
    (rns.validateProof link body key).2 = link

/-- The body of a proof packet for the link. -/
def proofBody (linkId : LinkId) : DestinationEvent rns → Option (List UInt8)
  | .inboundPacket raw _ _ _ =>
    match rns.unpackHeader raw with
    | .error _ => none
    | .ok (header, dataOffset) =>
      if header.destinationHash ≠ linkId ∨ !header.isProof ∨ raw.length ≤ dataOffset then none
      else some (raw.drop dataOffset)
  | _ => none

/-- The event is not the link's end, nor a proof that validates. -/
structure Refused (linkId : LinkId) (attempt : OutgoingLinkAttempt rns)
    (event : DestinationEvent rns) : Prop where
  notClosed : event ≠ .linkClosed linkId
  invalid : ∀ body key, proofBody linkId event = some body →
    rns.verifyKey attempt.remotePublicKey = .ok key →
      (rns.validateProof attempt.link body key).1 = none

/-- What an event without effect comes to: an error only if the remote key is none. -/
def Quiet (attempt : OutgoingLinkAttempt rns) (result : Except Error (Option TelephonyLinkEvent)) :
    Prop :=
  result = .ok none ∨ ∃ text, rns.verifyKey attempt.remotePublicKey = .error text ∧
    result = .error (.linkProofInvalid text)

/-- A packet that is no proof for the link is dropped, any other is received. -/
theorem handle_inboundPacket (raw : List UInt8) (interfaceId : Nat) (interfaceOwner : Option Nat)
    (metrics : rns.Metrics) : handleOutgoingAttemptEvent linkId
      (.inboundPacket raw interfaceId interfaceOwner metrics) self =
        match proofBody linkId (.inboundPacket raw interfaceId interfaceOwner metrics) with
        | none => (.ok none, self)
        | some body => receiveProof linkId body interfaceId interfaceOwner metrics self := by
  unfold handleOutgoingAttemptEvent proofBody
  dsimp only
  cases rns.unpackHeader raw with
  | error text => rfl
  | ok unpacked =>
    dsimp only
    split <;> rfl

theorem receiveProof_refused (h : RefusesCleanly rns) {attempt : OutgoingLinkAttempt rns}
    (hattempt : self.outgoingAttempts.lookup linkId = some attempt) {body : List UInt8}
    {key : rns.VerifyKey} (hkey : rns.verifyKey attempt.remotePublicKey = .ok key)
    (hproof : (rns.validateProof attempt.link body key).1 = none) (interfaceId : Nat)
    (interfaceOwner : Option Nat) (metrics : rns.Metrics) :
    receiveProof linkId body interfaceId interfaceOwner metrics self = (.ok none, self) := by
  have hlink : rns.validateProof attempt.link body key = (none, attempt.link) :=
    Prod.ext hproof (h attempt.link body key hproof)
  rw [receiveProof, always_bind]
  simp only [Program.get, hattempt, hkey, hlink]
  show (_, { self with outgoingAttempts := self.outgoingAttempts.replace linkId attempt }) = _
  rw [Table.replace_self hattempt]

/-- **A candidate that does not validate leaves the endpoint as it is.** -/
theorem handle_refused (h : RefusesCleanly rns) {attempt : OutgoingLinkAttempt rns}
    (hattempt : self.outgoingAttempts.lookup linkId = some attempt)
    {event : DestinationEvent rns} (hrefused : Refused linkId attempt event) :
    ∃ result, handleOutgoingAttemptEvent linkId event self = (result, self) ∧
      Quiet attempt result := by
  cases event with
  | other => exact ⟨_, rfl, .inl rfl⟩
  | linkClosed closedId =>
    have hne : closedId ≠ linkId := fun hsame => hrefused.notClosed (hsame ▸ rfl)
    unfold handleOutgoingAttemptEvent
    dsimp only
    rw [if_neg hne]
    exact ⟨_, rfl, .inl rfl⟩
  | inboundPacket raw interfaceId interfaceOwner metrics =>
    rw [handle_inboundPacket]
    have hinvalid := hrefused.invalid
    cases hbody : proofBody linkId (.inboundPacket raw interfaceId interfaceOwner metrics) with
    | none => exact ⟨_, rfl, .inl rfl⟩
    | some body =>
      dsimp only
      cases hkey : rns.verifyKey attempt.remotePublicKey with
      | ok key =>
        rw [receiveProof_refused h hattempt hkey (hinvalid body key hbody hkey)]
        exact ⟨_, rfl, .inl rfl⟩
      | error text =>
        refine ⟨_, ?_, .inr ⟨text, hkey, rfl⟩⟩
        rw [receiveProof, always_bind]
        simp only [Program.get, hattempt, hkey]
        rfl

/-! ## The first that validates -/

/-- The event is a proof for the link that validates, with its reply and the link it makes. -/
structure Proven (linkId : LinkId) (attempt : OutgoingLinkAttempt rns)
    (event : DestinationEvent rns) (interfaceId : Nat) (interfaceOwner : Option Nat)
    (rttData : List UInt8) (link : rns.Link) : Prop where
  proven : ∃ raw metrics body key proved,
    event = .inboundPacket raw interfaceId interfaceOwner metrics ∧
      proofBody linkId event = some body ∧ rns.verifyKey attempt.remotePublicKey = .ok key ∧
        rns.validateProof attempt.link body key = (some rttData, proved) ∧
          link = rns.updatePhyStatsForce proved metrics

/-- The binding of a link and its reply. -/
def handshake (rns : Rns) (linkId : LinkId) (interfaceId : Nat) (interfaceOwner : Option Nat)
    (rttData : List UInt8) : List TransportMessage :=
  [.bindLinkEndpoint linkId interfaceId interfaceOwner .initiator,
    .sendLinkEndpoint linkId .initiator (rns.linkPacket linkId .lrrtt rttData)]

/-- The endpoint after a proof that could be answered. -/
def established (self : TelephonyRnsEndpoint rns) (linkId : LinkId)
    (attempt : OutgoingLinkAttempt rns) (interfaceId : Nat) (interfaceOwner : Option Nat)
    (rttData : List UInt8) (link : rns.Link) : TelephonyRnsEndpoint rns :=
  { self with
    transport := self.transport.push (handshake rns linkId interfaceId interfaceOwner rttData)
    outgoingAttempts := self.outgoingAttempts.erase linkId
    pendingControlResults := self.pendingControlResults ++ [⟨linkId, .initiator, .waiting⟩]
    outgoingLinks := self.outgoingLinks.insert linkId
      { link, eventRx := attempt.eventRx,
        endpoint := some
          { interfaceOwner, attachedInterface := interfaceId, bindResultRx := some .waiting,
            lifecycleRx := { queue := [], connected := true } } } }

/-- Both messages find a slot. -/
def Answerable (queue : TransportQueue) : Prop := queue.closed = false ∧ 2 ≤ queue.free

theorem handle_proven {attempt : OutgoingLinkAttempt rns}
    (hattempt : self.outgoingAttempts.lookup linkId = some attempt)
    {event : DestinationEvent rns} {interfaceId : Nat} {interfaceOwner : Option Nat}
    {rttData : List UInt8} {link : rns.Link}
    (h : Proven linkId attempt event interfaceId interfaceOwner rttData link)
    (hroom : Answerable self.transport) :
    handleOutgoingAttemptEvent linkId event self = (.ok (some (.linkEstablished linkId)),
      self.established linkId attempt interfaceId interfaceOwner rttData link) := by
  obtain ⟨raw, metrics, body, key, proved, rfl, hbody, hkey, hproof, rfl⟩ := h.proven
  have hne : handshake rns linkId interfaceId interfaceOwner rttData ≠ [] := List.cons_ne_nil _ _
  have hsent := BoundedQueue.trySendAll_eq self.transport hne
  rw [if_pos (by exact hroom)] at hsent
  rw [handle_inboundPacket, hbody]
  dsimp only
  rw [receiveProof, always_bind]
  simp only [Program.get, hattempt, hkey, hproof]
  rw [handshake] at hsent
  rw [hsent]
  rfl

/-- What is left of a link that has been closed on this side. -/
structure Retired (linkId : LinkId) (before after : TelephonyRnsEndpoint rns) : Prop where
  attempt : after.outgoingAttempts = before.outgoingAttempts.erase linkId
  link : after.outgoingLinks = before.outgoingLinks.erase linkId
  events : after.pendingOutgoingEvents = before.pendingOutgoingEvents
  controlResults : after.pendingControlResults =
    before.pendingControlResults.filter (·.linkId ≠ linkId)
  mediaResults : after.pendingMediaResults =
    before.pendingMediaResults.filter (·.linkId ≠ linkId)
  cleanup : ∃ sent, sent <+: [TransportMessage.unbindLinkEndpoint linkId .initiator,
    .deregisterDestination linkId] ∧ after.transport = before.transport.push sent

theorem tryAdvanceOutgoingCleanup_push (self : TelephonyRnsEndpoint rns) (linkId : LinkId) :
    ∃ sent, sent <+: [TransportMessage.unbindLinkEndpoint linkId .initiator,
        .deregisterDestination linkId] ∧
      (tryAdvanceOutgoingCleanup { linkId, unbindSent := false } self).2 =
        { self with transport := self.transport.push sent } := by
  unfold tryAdvanceOutgoingCleanup
  cases hclosed : self.transport.closed with
  | true =>
    simp only [BoundedQueue.trySend_closed hclosed]
    exact ⟨[], List.nil_prefix, by rw [BoundedQueue.push_nil]; rfl⟩
  | false =>
    by_cases hfull : self.transport.free = 0
    · simp only [BoundedQueue.trySend_full hclosed hfull]
      exact ⟨[], List.nil_prefix, by rw [BoundedQueue.push_nil]; rfl⟩
    · obtain ⟨sent, hprefix, hqueue⟩ := BoundedQueue.trySend_push
        (self.transport.push [.unbindLinkEndpoint linkId .initiator])
        (TransportMessage.deregisterDestination linkId)
      refine ⟨_ :: sent, List.cons_prefix_cons.2 ⟨rfl, hprefix⟩, ?_⟩
      rw [BoundedQueue.push] at hqueue
      simp only [BoundedQueue.trySend_free hclosed hfull, Bool.false_eq_true, if_false, hqueue]
      simp [BoundedQueue.push]

open Program in
theorem closeOutgoingLinkLocally_retired (self : TelephonyRnsEndpoint rns) (linkId : LinkId) :
    Retired linkId self (closeOutgoingLinkLocally linkId self).2 := by
  show wp (closeOutgoingLinkLocally linkId) (fun _ closed => Retired linkId self closed) self
  unfold closeOutgoingLinkLocally finishOutgoingLinkLocally
  simp only [wp_bind, wp_modify, if_true]
  obtain ⟨sent, hprefix, hcleanup⟩ := tryAdvanceOutgoingCleanup_push _ linkId
  refine wp_mono (R := fun _ advanced => advanced = _) hcleanup ?_
  rintro ⟨finished, cleanup⟩ _ rfl
  rw [wp_modify]
  split <;> exact ⟨rfl, rfl, rfl, rfl, rfl, sent, hprefix, rfl⟩

/-- A proof that cannot be answered retires its attempt, and reports its end once. -/
theorem handle_unanswered {attempt : OutgoingLinkAttempt rns}
    (hattempt : self.outgoingAttempts.lookup linkId = some attempt)
    {event : DestinationEvent rns} {interfaceId : Nat} {interfaceOwner : Option Nat}
    {rttData : List UInt8} {link : rns.Link}
    (h : Proven linkId attempt event interfaceId interfaceOwner rttData link)
    (hroom : ¬ Answerable self.transport) :
    ∃ error closed, Retired linkId self closed ∧
      handleOutgoingAttemptEvent linkId event self = (.error error,
        { closed with
          pendingOutgoingEvents := self.pendingOutgoingEvents ++ [.linkClosed linkId] }) := by
  obtain ⟨raw, metrics, body, key, proved, rfl, hbody, hkey, hproof, rfl⟩ := h.proven
  have hne : handshake rns linkId interfaceId interfaceOwner rttData ≠ [] := List.cons_ne_nil _ _
  have hsent := BoundedQueue.trySendAll_eq self.transport hne
  rw [if_neg (by exact hroom)] at hsent
  have hretired := closeOutgoingLinkLocally_retired self linkId
  refine ⟨transportError (if self.transport.closed then .closed else .full), _, hretired, ?_⟩
  rw [← hretired.events]
  rw [handle_inboundPacket, hbody]
  dsimp only
  rw [receiveProof, always_bind]
  simp only [Program.get, hattempt, hkey, hproof]
  rw [handshake] at hsent
  rw [hsent]
  rfl

/-! ## The race -/

/-- The events of an attempt, each with the transport queue that it finds. -/
def receiveAll (linkId : LinkId) : List (TransportQueue × DestinationEvent rns) →
    EndpointM rns (List (Except Error (Option TelephonyLinkEvent)))
  | [] => pure []
  | (transport, event) :: rest => do
    Program.modify fun self => { self with transport }
    let result ← (handleOutgoingAttemptEvent linkId event).run
    let results ← receiveAll linkId rest
    pure (result :: results)

theorem receiveAll_cons (transport : TransportQueue) (event : DestinationEvent rns)
    (rest : List (TransportQueue × DestinationEvent rns)) (self : TelephonyRnsEndpoint rns) :
    receiveAll linkId ((transport, event) :: rest) self =
      let handled := handleOutgoingAttemptEvent linkId event { self with transport }
      let received := receiveAll linkId rest handled.2
      (handled.1 :: received.1, received.2) := rfl

/-- The queue that the last of the candidates finds. -/
def lastQueue (queue : TransportQueue) (candidates : List (TransportQueue × DestinationEvent rns)) :
    TransportQueue :=
  (candidates.getLast?.map (·.1)).getD queue

/-- Candidates that do not validate have no effect, however many there are. -/
theorem receiveAll_refused (h : RefusesCleanly rns) {attempt : OutgoingLinkAttempt rns}
    (hattempt : self.outgoingAttempts.lookup linkId = some attempt)
    {candidates : List (TransportQueue × DestinationEvent rns)}
    (hrefused : ∀ candidate ∈ candidates, Refused linkId attempt candidate.2) :
    ∃ results, (∀ result ∈ results, Quiet attempt result) ∧ ∀ rest,
      receiveAll linkId (candidates ++ rest) self =
        let received := receiveAll linkId rest
          { self with transport := lastQueue self.transport candidates }
        (results ++ received.1, received.2) := by
  induction candidates generalizing self with
  | nil => exact ⟨[], nofun, fun _ => rfl⟩
  | cons candidate candidates ih =>
    obtain ⟨transport, event⟩ := candidate
    obtain ⟨hevent, hcandidates⟩ := List.forall_mem_cons.1 hrefused
    have hattempt : ({ self with transport } : TelephonyRnsEndpoint rns).outgoingAttempts.lookup
      linkId = some attempt := hattempt
    obtain ⟨result, hhandled, hquiet⟩ := handle_refused h hattempt hevent
    obtain ⟨results, hresults, hreceived⟩ := ih hattempt hcandidates
    have hlast : lastQueue self.transport ((transport, event) :: candidates) =
        lastQueue transport candidates := by
      rw [lastQueue, List.getLast?_cons, lastQueue]
      cases candidates.getLast? <;> rfl
    refine ⟨result :: results, List.forall_mem_cons.2 ⟨hquiet, hresults⟩, fun rest => ?_⟩
    rw [List.cons_append, receiveAll_cons, hhandled, hlast]
    dsimp only
    rw [hreceived]
    rfl

/-- An attempt that is gone has nothing more to say. -/
theorem pollAttempt_gone (h : self.outgoingAttempts.lookup linkId = none) :
    pollAttempt linkId self = (.ok none, self) := by
  rw [pollAttempt, always_bind]
  simp only [Program.get, h]
  rfl

/-- **Unauthenticated candidates cannot win the race.** -/
theorem proof_race (h : RefusesCleanly rns) {attempt : OutgoingLinkAttempt rns}
    (hattempt : self.outgoingAttempts.lookup linkId = some attempt)
    {candidates : List (TransportQueue × DestinationEvent rns)}
    (hrefused : ∀ candidate ∈ candidates, Refused linkId attempt candidate.2)
    (transport : TransportQueue) {event : DestinationEvent rns} {interfaceId : Nat}
    {interfaceOwner : Option Nat} {rttData : List UInt8} {link : rns.Link}
    (hproven : Proven linkId attempt event interfaceId interfaceOwner rttData link) :
    ∃ results, (∀ result ∈ results, Quiet attempt result) ∧
      receiveAll linkId candidates self =
        (results, { self with transport := lastQueue self.transport candidates }) ∧
      (Answerable transport → receiveAll linkId (candidates ++ [(transport, event)]) self =
        (results ++ [.ok (some (.linkEstablished linkId))],
          established { self with transport } linkId attempt interfaceId interfaceOwner rttData
            link)) ∧
      (¬ Answerable transport → ∃ error closed, Retired linkId { self with transport } closed ∧
        receiveAll linkId (candidates ++ [(transport, event)]) self =
          (results ++ [.error error],
            { closed with
              pendingOutgoingEvents := self.pendingOutgoingEvents ++ [.linkClosed linkId] })) ∧
      let ended := (receiveAll linkId (candidates ++ [(transport, event)]) self).2
      pollAttempt linkId ended = (.ok none, ended) := by
  obtain ⟨results, hquiet, hrefuses⟩ := receiveAll_refused h hattempt hrefused
  have halone := hrefuses []
  have hreceived := hrefuses [(transport, event)]
  rw [List.append_nil] at halone
  rw [receiveAll_cons] at hreceived
  refine ⟨results, hquiet, ?_, ?_⟩
  · rw [halone]
    exact congrArg (·, _) (List.append_nil results)
  have hattempt : ({ self with transport } : TelephonyRnsEndpoint rns).outgoingAttempts.lookup
    linkId = some attempt := hattempt
  by_cases hroom : Answerable transport
  · have hhandled := handle_proven hattempt hproven hroom
    rw [hhandled] at hreceived
    refine ⟨fun _ => hreceived, fun hno => absurd hroom hno, ?_⟩
    rw [hreceived]
    exact pollAttempt_gone (AList.lookup_erase _ _)
  · obtain ⟨error, closed, hretired, hhandled⟩ := handle_unanswered hattempt hproven hroom
    rw [hhandled] at hreceived
    refine ⟨fun hyes => absurd hyes hroom, fun _ => ⟨error, closed, hretired, hreceived⟩, ?_⟩
    rw [hreceived]
    refine pollAttempt_gone ?_
    show closed.outgoingAttempts.lookup linkId = none
    rw [hretired.attempt]
    exact AList.lookup_erase _ _

/-- A Reticulum whose packets are proofs for one link; the proof `[1]` is authentic. -/
def oneProof : Rns :=
  { Rns.plain with
    unpackHeader := fun _ => .ok (⟨true, .replicate 16 1, .lrrtt⟩, 0)
    validateProof := fun link body _ => (if body = [1] then some [2] else none, link) }

/-- A forged proof and the authentic one, with two free slots. -/
theorem proof_race_two_slots :
    let linkId : LinkId := .replicate 16 1
    let queue : TransportQueue := ⟨[], 2, false⟩
    let attempt : OutgoingLinkAttempt oneProof := ⟨none, linkId, .replicate 64 0, ⟨[], true⟩⟩
    let self : TelephonyRnsEndpoint oneProof :=
      { new linkId [] ⟨[], [], [], []⟩ queue with
        outgoingAttempts := AList.singleton linkId attempt }
    ∃ results after, (∀ result ∈ results, Quiet attempt result) ∧
      receiveAll linkId [(queue, .inboundPacket [9] 5 none ()),
          (queue, .inboundPacket [1] 6 none ())] self =
        (results ++ [.ok (some (.linkEstablished linkId))], after) := by
  intro linkId queue attempt self
  have hclean : RefusesCleanly oneProof := fun _ _ _ _ => rfl
  have hattempt : self.outgoingAttempts.lookup linkId = some attempt := rfl
  have hforged : ∀ candidate ∈ [(queue, DestinationEvent.inboundPacket [9] 5 none ())],
      Refused linkId attempt candidate.2 := by
    rw [List.forall_mem_singleton]
    refine ⟨nofun, fun body key hbody _ => ?_⟩
    cases hbody
    rfl
  have hproven : Proven linkId attempt (.inboundPacket [1] 6 none ()) 6 none [2] linkId :=
    ⟨⟨[1], (), [1], (), linkId, rfl, rfl, rfl, rfl, rfl⟩⟩
  obtain ⟨results, hquiet, -, hanswered, -⟩ :=
    proof_race hclean hattempt hforged queue hproven
  exact ⟨results, _, hquiet, hanswered ⟨rfl, by decide⟩⟩

end TelephonyRnsEndpoint

end Lxst.Telephony
