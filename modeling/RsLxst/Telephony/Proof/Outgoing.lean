import RsLxst.Telephony.Endpoint
import RsLxst.Telephony.Proof.Runtime

/-!
# Starting an outgoing call

`begin_outgoing_link_with_remote_pubkey` admits three messages to the transport queue and registers
the call in the core after the first. A queue that runs full after that leaves the call behind:
the core is restored on failure exactly if the line was busy, or the queue refuses the first
message, or it takes all three (`beginOutgoing_restores_iff`).
-/

set_option autoImplicit false

namespace Lxst.Telephony

/-! ## A bounded queue -/

namespace BoundedQueue

variable {α : Type} {q : BoundedQueue α}

theorem trySend_closed (h : q.closed = true) (a : α) : q.trySend a = (.error .closed, q) := by
  rw [trySend, if_pos h]

theorem trySend_full (h : q.closed = false) (hf : q.free = 0) (a : α) :
    q.trySend a = (.error .full, q) := by
  rw [trySend, if_neg (by simp [h]), if_pos hf]

theorem trySend_free (h : q.closed = false) (hf : q.free ≠ 0) (a : α) :
    q.trySend a = (.ok (), { q with queue := q.queue ++ [a] }) := by
  rw [trySend, if_neg (by simp [h]), if_neg hf]

theorem free_push (a : α) : free { q with queue := q.queue ++ [a] } = q.free - 1 := by
  simp only [free, List.length_append, List.length_singleton]
  omega

end BoundedQueue

namespace TelephonyRnsEndpoint

variable {rns : Rns} {self : TelephonyRnsEndpoint rns}

theorem trySendTransport_closed (h : self.transport.closed = true) (m : TransportMessage) :
    trySendTransport m self = (.error .transportClosed, self) := by
  show ((self.transport.trySend m).1.mapError transportError,
    { self with transport := (self.transport.trySend m).2 }) = _
  rw [BoundedQueue.trySend_closed h]
  rfl

theorem trySendTransport_full (h : self.transport.closed = false) (hf : self.transport.free = 0)
    (m : TransportMessage) : trySendTransport m self = (.error .transportFull, self) := by
  show ((self.transport.trySend m).1.mapError transportError,
    { self with transport := (self.transport.trySend m).2 }) = _
  rw [BoundedQueue.trySend_full h hf]
  rfl

/-- With a free slot the message is queued. -/
theorem trySendTransport_free (h : self.transport.closed = false) (hf : self.transport.free ≠ 0)
    (m : TransportMessage) :
    ∃ self', trySendTransport m self = (.ok (), self') ∧ self'.transport.closed = false ∧
      self'.transport.free = self.transport.free - 1 := by
  refine ⟨{ self with transport :=
    { self.transport with queue := self.transport.queue ++ [m] } }, ?_, h, ?_⟩
  · show ((self.transport.trySend m).1.mapError transportError,
      { self with transport := (self.transport.trySend m).2 }) = _
    rw [BoundedQueue.trySend_free h hf]
    rfl
  · exact BoundedQueue.free_push m

end TelephonyRnsEndpoint

/-! ## The core -/

namespace TelephonyRuntimeCore

theorem startOutgoingCall_busy {core : TelephonyRuntimeCore} (h : core.lineBusy = true)
    (linkId : LinkId) (remoteIdentity : IdentityHash) (profile : Option Profile) :
    core.startOutgoingCall linkId remoteIdentity profile = (.error .lineBusy, core) := by
  rw [startOutgoingCall, if_pos h]

theorem startOutgoingCall_idle {core : TelephonyRuntimeCore} (h : core.lineBusy = false)
    (linkId : LinkId) (remoteIdentity : IdentityHash) (profile : Option Profile) :
    core.startOutgoingCall linkId remoteIdentity profile =
      (.ok (), { core.ensureIngress linkId with
        activeCall := some { linkId, remoteIdentity, call := .outgoing profile } }) := by
  rw [startOutgoingCall, if_neg (by simp [h])]

/-- The call state is as before, and the next calls and callers get the same answers. -/
structure Restored (core core' : TelephonyRuntimeCore) : Prop where
  activeCall : core'.activeCall = core.activeCall
  pendingLinks : core'.pendingLinks = core.pendingLinks
  ingress : core'.ingress = core.ingress
  lineBusy : core'.lineBusy = core.lineBusy
  admitsCall (linkId : LinkId) (remoteIdentity : IdentityHash) (profile : Option Profile) :
    (core'.startOutgoingCall linkId remoteIdentity profile).1 =
      (core.startOutgoingCall linkId remoteIdentity profile).1
  admitsLink (linkId : LinkId) :
    (core'.incomingLinkEstablished linkId).1 = (core.incomingLinkEstablished linkId).1
  admitsCaller (linkId : LinkId) (remoteIdentity : IdentityHash) :
    (core'.callerIdentified linkId remoteIdentity).1 =
      (core.callerIdentified linkId remoteIdentity).1

theorem Restored.refl (core : TelephonyRuntimeCore) : Restored core core :=
  ⟨rfl, rfl, rfl, rfl, fun _ _ _ => rfl, fun _ => rfl, fun _ _ => rfl⟩

end TelephonyRuntimeCore

namespace TelephonyRnsEndpoint

open TelephonyRuntimeCore

section
variable {rns : Rns} (self : TelephonyRnsEndpoint rns) (core : TelephonyRuntimeCore)
  (remoteIdentity : IdentityHash) (remotePublicKey : Vector UInt8 64) (profile : Option Profile)
  (hops entropy : Nat)

/-- The path request is refused: nothing happens. -/
theorem beginOutgoing_refused (h : self.transport.closed = true ∨ self.transport.free = 0) :
    ∃ error, self.beginOutgoingLinkWithRemotePubkey core remoteIdentity remotePublicKey profile hops
      entropy = (.error error, self, core) := by
  unfold beginOutgoingLinkWithRemotePubkey requestPathToIdentity
  cases hc : self.transport.closed with
  | true =>
    rw [trySendTransport_closed hc]
    exact ⟨_, rfl⟩
  | false =>
    rw [hc] at h
    rw [trySendTransport_full hc (h.resolve_left (by simp))]
    exact ⟨_, rfl⟩

/-- The line is busy: the path request is all that happens. -/
theorem beginOutgoing_busy (hc : self.transport.closed = false) (hf : self.transport.free ≠ 0)
    (hb : core.lineBusy = true) :
    ∃ self', self.beginOutgoingLinkWithRemotePubkey core remoteIdentity remotePublicKey profile hops
      entropy = (.error .lineBusy, self', core) := by
  obtain ⟨self₁, h1, -, -⟩ := trySendTransport_free hc hf
    (.requestPath (rns.telephonyDestinationHash remoteIdentity))
  unfold beginOutgoingLinkWithRemotePubkey requestPathToIdentity
  rw [h1]
  dsimp only
  rw [startOutgoingCall_busy hb]
  exact ⟨_, rfl⟩

/-- The call is registered, whether or not its messages are admitted: they are exactly if there
is room for three. -/
theorem beginOutgoing_idle (hc : self.transport.closed = false) (hf : self.transport.free ≠ 0)
    (hb : core.lineBusy = false) :
    ∃ result self' linkId, self.beginOutgoingLinkWithRemotePubkey core remoteIdentity
        remotePublicKey profile hops entropy =
          (result, self', { core.ensureIngress linkId with
            activeCall := some { linkId, remoteIdentity, call := .outgoing profile } }) ∧
      if 3 ≤ self.transport.free then result = .ok linkId else ∃ error, result = .error error := by
  obtain ⟨self₁, h1, hc1, hf1⟩ := trySendTransport_free hc hf
    (.requestPath (rns.telephonyDestinationHash remoteIdentity))
  unfold beginOutgoingLinkWithRemotePubkey requestPathToIdentity
  rw [h1]
  dsimp only
  rw [startOutgoingCall_idle hb]
  dsimp only
  by_cases h2 : self₁.transport.free = 0
  · -- the registration of the link's destination is refused
    rw [trySendTransport_full hc1 h2]
    refine ⟨_, _, _, rfl, ?_⟩
    rw [if_neg (by omega)]
    exact ⟨_, rfl⟩
  obtain ⟨self₂, h3, hc2, hf2⟩ := trySendTransport_free hc1 h2
    (.registerDestination (rns.linkId (rns.newInitiator
      (rns.telephonyDestinationHash remoteIdentity) (max hops 1) entropy).1)
      TELEPHONY_DESTINATION_NAME)
  rw [h3]
  dsimp only
  by_cases h4 : self₂.transport.free = 0
  · -- the link request is refused
    rw [trySendTransport_full hc2 h4]
    refine ⟨_, _, _, rfl, ?_⟩
    rw [if_neg (by omega)]
    exact ⟨_, rfl⟩
  · obtain ⟨self₃, h5, -, -⟩ := trySendTransport_free hc2 h4
      (.sendLinkRequest (rns.linkRequestPacket (rns.telephonyDestinationHash remoteIdentity)
        (rns.newInitiator (rns.telephonyDestinationHash remoteIdentity) (max hops 1) entropy).2)
        (rns.telephonyDestinationHash remoteIdentity))
    rw [h5]
    refine ⟨_, _, _, rfl, ?_⟩
    rw [if_pos (by omega)]

/-- A call that fails before it is registered, or one that is registered on an idle line. -/
theorem beginOutgoing_cases :
    (core.lineBusy = true ∨ self.transport.closed = true ∨ self.transport.free = 0) ∧
        (∃ error self', self.beginOutgoingLinkWithRemotePubkey core remoteIdentity remotePublicKey
          profile hops entropy = (.error error, self', core)) ∨
      (core.activeCall = none ∧
          ¬ (core.lineBusy = true ∨ self.transport.closed = true ∨ self.transport.free = 0)) ∧
        ∃ result self' linkId, self.beginOutgoingLinkWithRemotePubkey core remoteIdentity
            remotePublicKey profile hops entropy =
              (result, self', { core.ensureIngress linkId with
                activeCall := some { linkId, remoteIdentity, call := .outgoing profile } }) ∧
          if 3 ≤ self.transport.free then result = .ok linkId
          else ∃ error, result = .error error := by
  by_cases hr : self.transport.closed = true ∨ self.transport.free = 0
  · obtain ⟨error, h⟩ := beginOutgoing_refused self core remoteIdentity remotePublicKey profile hops
      entropy hr
    exact .inl ⟨.inr hr, error, self, h⟩
  obtain ⟨hc, hf⟩ := not_or.mp hr
  rw [Bool.not_eq_true] at hc
  cases hb : core.lineBusy with
  | true =>
    obtain ⟨self', h⟩ := beginOutgoing_busy self core remoteIdentity remotePublicKey profile hops
      entropy hc hf hb
    exact .inl ⟨.inl rfl, _, self', h⟩
  | false =>
    refine .inr ⟨⟨activeCall_of_idle hb, ?_⟩, beginOutgoing_idle self core remoteIdentity
      remotePublicKey profile hops entropy hc hf hb⟩
    exact fun h => hr (h.resolve_left nofun)

end

/-- **A failed outgoing call leaves the core as before** exactly if the line was busy, or the
transport queue refuses the path request, or it has room for all three messages. -/
theorem beginOutgoing_restores_iff {rns : Rns} (self : TelephonyRnsEndpoint rns)
    (core : TelephonyRuntimeCore) (remoteIdentity : IdentityHash)
    (remotePublicKey : Vector UInt8 64) (profile : Option Profile) (hops entropy : Nat) :
    ((∃ error, (self.beginOutgoingLinkWithRemotePubkey core remoteIdentity remotePublicKey profile
          hops entropy).1 = .error error) →
        Restored core (self.beginOutgoingLinkWithRemotePubkey core remoteIdentity remotePublicKey
          profile hops entropy).2.2) ↔
      core.lineBusy = true ∨ self.transport.closed = true ∨ self.transport.free = 0 ∨
        3 ≤ self.transport.free := by
  rcases beginOutgoing_cases self core remoteIdentity remotePublicKey profile hops entropy with
    ⟨hrefused, error, self', h⟩ | ⟨⟨hnone, hroom⟩, result, self', linkId, h, hresult⟩
  · rw [h]
    exact ⟨fun _ => by tauto, fun _ _ => .refl core⟩
  rw [h]
  by_cases h3 : 3 ≤ self.transport.free
  · rw [if_pos h3] at hresult
    refine ⟨fun _ => by tauto, fun _ => ?_⟩
    rintro ⟨error, he⟩
    cases hresult.symm.trans he
  · rw [if_neg h3] at hresult
    refine ⟨fun hall => ?_, fun h => by tauto⟩
    have hactive := (hall hresult).activeCall
    rw [hnone] at hactive
    cases hactive

/-- A queue with two free slots takes the path request and the registration, and refuses the link
request: the call stays active. -/
theorem beginOutgoing_two_slots :
    ¬ ∀ (rns : Rns) (self : TelephonyRnsEndpoint rns) (core : TelephonyRuntimeCore)
      (remoteIdentity : IdentityHash) (remotePublicKey : Vector UInt8 64)
      (profile : Option Profile) (hops entropy : Nat),
      (∃ error, (self.beginOutgoingLinkWithRemotePubkey core remoteIdentity remotePublicKey profile
          hops entropy).1 = .error error) →
        Restored core (self.beginOutgoingLinkWithRemotePubkey core remoteIdentity remotePublicKey
          profile hops entropy).2.2 := fun hall => by
  have h := (hall Rns.plain (.new (.replicate 16 0) [] ⟨[], [], [], []⟩ ⟨[], 2, false⟩) .new
    (.replicate 16 7) (.replicate 64 0) none 1 9 ⟨.transportFull, rfl⟩).activeCall
  cases h

end TelephonyRnsEndpoint

end Lxst.Telephony
