import RsLxst.Lib.Amend
import RsLxst.Telephony.LinkEvents

/-!
# The mailbox of an outgoing link

`mailbox` is what waits at a link, and `requeue` puts other events in its place. `pollLinks` takes
the first link at which something waits, or whose mailbox is closed.
-/

set_option autoImplicit false

namespace Lxst.Telephony.TelephonyRnsEndpoint

open AList

variable {rns : Rns} {self : TelephonyRnsEndpoint rns} {linkId : LinkId}

/-! ## Amending links -/

def amendLink (self : TelephonyRnsEndpoint rns) (linkId : LinkId)
    (f : OutgoingLinkState rns → OutgoingLinkState rns) : TelephonyRnsEndpoint rns :=
  { self with outgoingLinks := self.outgoingLinks.amend linkId f }

/-- Other events in the mailbox of a link, if it is there. -/
def requeue (linkId : LinkId) (queue : List (DestinationEvent rns))
    (self : TelephonyRnsEndpoint rns) : TelephonyRnsEndpoint rns :=
  self.amendLink linkId fun state => { state with eventRx.queue := queue }

/-- A replacement by what becomes of the state that is there. -/
theorem replace_eq_amendLink {k : LinkId} {state : OutgoingLinkState rns}
    (h : self.outgoingLinks.lookup k = some state)
    (f : OutgoingLinkState rns → OutgoingLinkState rns) :
    { self with outgoingLinks := self.outgoingLinks.replace k (f state) } = self.amendLink k f := by
  rw [amendLink, replace_eq_amend, amend_congr]
  intro other hother
  cases h.symm.trans hother
  rfl

theorem updateOutgoingLink_eq (k : LinkId) (f : rns.Link → rns.Link) :
    updateOutgoingLink k f self =
      ((), self.amendLink k fun state => { state with link := f state.link }) := by
  unfold updateOutgoingLink Program.modify
  dsimp only
  cases h : self.outgoingLinks.lookup k with
  | none =>
    rw [amendLink, amend_none h]
  | some state =>
    exact congrArg _ (replace_eq_amendLink h fun state => { state with link := f state.link })

/-- The mailbox of a requeued link, and those of the others. -/
theorem lookup_requeue (k linkId : LinkId) (queue : List (DestinationEvent rns)) :
    (self.requeue linkId queue).outgoingLinks.lookup k =
      (self.outgoingLinks.lookup k).map fun state =>
        if k = linkId then { state with eventRx.queue := queue } else state := by
  rw [requeue, amendLink, lookup_amend]
  split
  · rfl
  · exact Option.map_id'.symm

/-! ## Mailboxes -/

/-- The events that wait at a link. -/
def mailbox (self : TelephonyRnsEndpoint rns) (linkId : LinkId) : List (DestinationEvent rns) :=
  ((self.outgoingLinks.lookup linkId).map (·.eventRx.queue)).getD []

theorem mailbox_some {state : OutgoingLinkState rns}
    (h : self.outgoingLinks.lookup linkId = some state) :
    self.mailbox linkId = state.eventRx.queue := by
  rw [mailbox, h]
  rfl

theorem requeue_mailbox (self : TelephonyRnsEndpoint rns) (linkId : LinkId) :
    self.requeue linkId (self.mailbox linkId) = self := by
  rw [requeue, amendLink, amend_congr (g := id), amend_id]
  intro state hstate
  rw [mailbox_some hstate]
  rfl

theorem mailbox_requeue {state : OutgoingLinkState rns}
    (h : self.outgoingLinks.lookup linkId = some state) (queue : List (DestinationEvent rns)) :
    (self.requeue linkId queue).mailbox linkId = queue := by
  rw [mailbox, lookup_requeue, h]
  simp

variable {first : LinkId} {rest : List LinkId} {state : OutgoingLinkState rns}
  {queue : List (DestinationEvent rns)}

end Lxst.Telephony.TelephonyRnsEndpoint
