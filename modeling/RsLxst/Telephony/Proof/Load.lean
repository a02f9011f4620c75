import RsLxst.Telephony.Proof.Settled

/-!
# What is left to poll

`load` counts what a poll may still report of: events, attempts, links, and the results of earlier
sends. Without events at pending attempts a poll of the outgoing side takes something off, or it
finds nothing and has nothing more to find (`recvBeforeLinks_spends`, `pollLinks_spends`).
-/

set_option autoImplicit false

namespace Lxst.Telephony.TelephonyRnsEndpoint

open Program AList

variable {rns : Rns} {self : TelephonyRnsEndpoint rns} {linkId : LinkId} {interfaceId : Nat}
  {interfaceOwner : Option Nat}

/-- A link and the events at it. -/
def linkWeight (state : OutgoingLinkState rns) : Nat := state.eventRx.queue.length + 1

def load (self : TelephonyRnsEndpoint rns) : Nat :=
  self.pendingOutgoingEvents.length + self.outgoingAttempts.total (fun _ => 1) +
    self.outgoingLinks.total linkWeight + self.pendingControlResults.length +
      self.pendingMediaResults.length

/-! ## Closing -/

/-- An endpoint without a link. -/
def without (self : TelephonyRnsEndpoint rns) (closed : LinkId) : TelephonyRnsEndpoint rns :=
  { self with
    outgoingAttempts := self.outgoingAttempts.erase closed
    outgoingLinks := self.outgoingLinks.erase closed
    pendingControlResults := self.pendingControlResults.filter (·.linkId ≠ closed)
    pendingMediaResults := self.pendingMediaResults.filter (·.linkId ≠ closed)
    mediaDrops := self.mediaDrops.erase closed }

/-- Closing a link takes it away and tells the transport queue. -/
theorem finishOutgoingLinkLocally_frame (self : TelephonyRnsEndpoint rns) (closed : LinkId)
    (unbind : Bool) : ∃ transport pendingOutgoingCleanup,
      (finishOutgoingLinkLocally closed unbind self).2 =
        { self.without closed with transport, pendingOutgoingCleanup } := by
  cases unbind with
  | false => exact ⟨_, _, rfl⟩
  | true =>
    obtain ⟨⟨transport, hframe⟩, -⟩ := tryAdvanceOutgoingCleanup_stops (self.without closed)
      { linkId := closed, unbindSent := false }
    show ∃ _ _, (ite _ _ _ : TelephonyRnsEndpoint rns) = _
    split
    · show ∃ _ _, ({ (tryAdvanceOutgoingCleanup _ (self.without closed)).2 with
        pendingOutgoingCleanup := _ } : TelephonyRnsEndpoint rns) = _
      rw [hframe]
      exact ⟨_, _, rfl⟩
    · exact ⟨_, _, hframe⟩

/-- An event or an error uses something up. -/
def SpendsAt (self : TelephonyRnsEndpoint rns)
    (run : Except Error (Option TelephonyLinkEvent) × TelephonyRnsEndpoint rns) : Prop :=
  run.2.load ≤ self.load ∧ (run.1 ≠ .ok none → run.2.load < self.load)

theorem SpendsAt.none : SpendsAt self (.ok none, self) :=
  ⟨Nat.le_refl _, fun h => (h rfl).elim⟩

theorem outgoingClosed_run (closed : LinkId) : (outgoingClosed closed).run self =
    (.ok (some (.linkClosed closed)), (closeOutgoingLinkLocally closed self).2) := rfl

/-- Adds nothing to what is left. -/
def Saving {α : Type} (p : EndpointM rns α) : Prop := ∀ self, (p self).2.load ≤ self.load

theorem Saving.pure {α : Type} (a : α) : Saving (pure a : EndpointM rns α) :=
  fun _ => Nat.le_refl _

theorem Saving.bindE {α β : Type} {p : EndpointM rns α} {q : α → EndpointE rns β}
    (hp : Saving p) (hq : ∀ a, Saving (q a).run) : Saving (always p >>= q).run :=
  fun self => Nat.le_trans (hq (p self).1 (p self).2) (hp self)

end Lxst.Telephony.TelephonyRnsEndpoint
