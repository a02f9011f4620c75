import RsLxst.Telephony.Proof.ProofRace

/-!
# Signalling batches

A signalling batch that the endpoint refuses leaves the endpoint as it was; one that it takes
appends just its packets to the transport queue and records them (`executeSignallingBatch_cases`).
-/

set_option autoImplicit false

namespace Lxst.Telephony

open Program

variable {rns : Rns}

/-- A result that was computed from another: that one was there. -/
theorem result_bind_ok {α β : Type} {x : Except Error α} {f : α → Except Error β} {b : β}
    (h : x >>= f = .ok b) : ∃ a, x = .ok a ∧ f a = .ok b := by
  cases x with
  | error error => cases h
  | ok a => exact ⟨a, rfl, h⟩

namespace TelephonyRnsEndpoint

variable {self : TelephonyRnsEndpoint rns}

theorem updateOwnedLink_kept (linkId : LinkId) (f : rns.Link → rns.Link)
    (self : TelephonyRnsEndpoint rns) :
    (updateOwnedLink linkId f self).2.transport = self.transport ∧
      (updateOwnedLink linkId f self).2.pendingControlResults = self.pendingControlResults := by
  unfold updateOwnedLink updateOutgoingLink
  show (Program.wp _ (fun _ s => s.transport = self.transport ∧
    s.pendingControlResults = self.pendingControlResults) self)
  rw [wp_bind, wp_get]
  split
  · exact ⟨rfl, rfl⟩
  · rw [wp_modify]
    split
    · exact ⟨rfl, rfl⟩
    · exact ⟨rfl, rfl⟩

theorem recordSends_kept (prepared : List PreparedSignal) (self : TelephonyRnsEndpoint rns) :
    (recordSends prepared self).2.transport = self.transport ∧
      (recordSends prepared self).2.pendingControlResults =
        self.pendingControlResults ++
          prepared.map fun prepared => ⟨prepared.linkId, prepared.role, .waiting⟩ := by
  induction prepared generalizing self with
  | nil => exact ⟨rfl, (List.append_nil _).symm⟩
  | cons first rest ih =>
    obtain ⟨htransport, hpending⟩ :=
      updateOwnedLink_kept first.linkId (fun link => rns.recordTx link first.encryptedLen) self
    obtain ⟨htransport', hpending'⟩ := ih { (updateOwnedLink first.linkId
        (fun link => rns.recordTx link first.encryptedLen) self).2 with
      pendingControlResults := (updateOwnedLink first.linkId
        (fun link => rns.recordTx link first.encryptedLen) self).2.pendingControlResults ++
          [⟨first.linkId, first.role, .waiting⟩] }
    refine ⟨htransport'.trans htransport, hpending'.trans ?_⟩
    rw [hpending, List.append_assoc]
    rfl

/-- The queue takes all of it or none. -/
theorem trySendAll_cases (queue : TransportQueue) (messages : List TransportMessage) :
    (∃ error, queue.trySendAll messages = (.error error, queue)) ∨
      queue.trySendAll messages = (.ok (), queue.push messages) := by
  cases messages with
  | nil =>
    rw [BoundedQueue.push_nil]
    exact .inr rfl
  | cons message messages =>
    rw [BoundedQueue.trySendAll_eq queue (List.cons_ne_nil _ _)]
    split
    · exact .inr rfl
    · exact .inl ⟨_, rfl⟩

/-- A batch is refused and changes nothing, or all of it is queued and recorded. -/
theorem executeSignallingBatch_cases (commands : List TelephonyCommand)
    (self : TelephonyRnsEndpoint rns) :
    (∃ error, executeSignallingBatch commands self = (.error error, self)) ∨
      ∃ prepared, (signalCommands commands).mapM self.prepareSignal = .ok prepared ∧
        executeSignallingBatch commands self = (.ok (batchEffects commands),
          (recordSends prepared
            { self with transport := self.transport.push (prepared.map (·.message)) }).2) := by
  unfold executeSignallingBatch
  rw [get_bind]
  cases hprepared : (signalCommands commands).mapM self.prepareSignal with
  | error error => exact .inl ⟨error, ofResult_bind_error rfl _ _⟩
  | ok prepared =>
    rw [ofResult_bind_ok rfl]
    rcases trySendAll_cases self.transport (prepared.map (·.message)) with ⟨error, hsend⟩ | hsend
    · rw [hsend]
      exact .inl ⟨transportError error, rfl⟩
    · rw [hsend]
      exact .inr ⟨prepared, rfl, rfl⟩

end TelephonyRnsEndpoint

end Lxst.Telephony
