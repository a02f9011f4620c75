import RsLxst.Lib.Commute
import RsLxst.Telephony.Proof.Mailbox

/-!
# What does not look into a mailbox

Only `pollLinks` looks into the mailbox of a link; every other method of the endpoint does the same
with the one mailbox and with another (`Blind`), as long as no event waits at a pending attempt,
which might establish the link anew.
-/

set_option autoImplicit false

namespace Lxst.Telephony.TelephonyRnsEndpoint

open Program AList

variable {rns : Rns} {self : TelephonyRnsEndpoint rns} {linkId : LinkId}

/-! ## What is kept -/

/-- The link is bound to this interface and owner, if it is there. -/
def Pinned (linkId : LinkId) (interfaceId : Nat) (interfaceOwner : Option Nat)
    (phone : TelephonyRnsEndpoint rns) : Prop :=
  ∀ state, phone.outgoingLinks.lookup linkId = some state → ∃ endpoint,
    state.endpoint = some endpoint ∧ endpoint.attachedInterface = interfaceId ∧
      endpoint.interfaceOwner = interfaceOwner

/-- No destination event waits at a pending attempt. -/
def AttemptsIdle (phone : TelephonyRnsEndpoint rns) : Prop :=
  ∀ k attempt, phone.outgoingAttempts.lookup k = some attempt → attempt.eventRx.queue = []

structure Calm (linkId : LinkId) (interfaceId : Nat) (interfaceOwner : Option Nat)
    (phone : TelephonyRnsEndpoint rns) : Prop where
  pinned : Pinned linkId interfaceId interfaceOwner phone
  idle : AttemptsIdle phone

variable {interfaceId : Nat} {interfaceOwner : Option Nat}

/-- What changes neither the links nor the attempts. -/
theorem Calm.of_same {self' : TelephonyRnsEndpoint rns}
    (h : Calm linkId interfaceId interfaceOwner self)
    (hlinks : self'.outgoingLinks = self.outgoingLinks)
    (hattempts : self'.outgoingAttempts = self.outgoingAttempts) :
    Calm linkId interfaceId interfaceOwner self' :=
  ⟨by rw [Pinned, hlinks]; exact h.pinned, by rw [AttemptsIdle, hattempts]; exact h.idle⟩

/-- What changes a link, but not what it is bound to. -/
theorem Calm.amendLink (h : Calm linkId interfaceId interfaceOwner self) (k : LinkId)
    {f : OutgoingLinkState rns → OutgoingLinkState rns}
    (hf : ∀ state endpoint, state.endpoint = some endpoint → ∃ endpoint',
      (f state).endpoint = some endpoint' ∧
        endpoint'.attachedInterface = endpoint.attachedInterface ∧
          endpoint'.interfaceOwner = endpoint.interfaceOwner) :
    Calm linkId interfaceId interfaceOwner (self.amendLink k f) := by
  refine ⟨fun state hstate => ?_, h.idle⟩
  rw [TelephonyRnsEndpoint.amendLink, lookup_amend] at hstate
  split at hstate
  · rename_i hk
    subst hk
    obtain ⟨before, hbefore, rfl⟩ := Option.map_eq_some_iff.mp hstate
    obtain ⟨endpoint, hendpoint, hinterface, howner⟩ := h.pinned before hbefore
    obtain ⟨endpoint', hendpoint', hsame⟩ := hf before endpoint hendpoint
    exact ⟨endpoint', hendpoint', hsame.1.trans hinterface, hsame.2.trans howner⟩
  · exact h.pinned state hstate

theorem Calm.requeue (h : Calm linkId interfaceId interfaceOwner self) (k : LinkId)
    (queue : List (DestinationEvent rns)) :
    Calm linkId interfaceId interfaceOwner (self.requeue k queue) :=
  h.amendLink k fun _ endpoint hendpoint => ⟨endpoint, hendpoint, rfl, rfl⟩

/-! ## Closing a link -/

variable {queue : List (DestinationEvent rns)} {k : LinkId}

/-- Commutes with other events in the mailbox of a link. -/
abbrev Blind (linkId : LinkId) (interfaceId : Nat) (interfaceOwner : Option Nat) (k : LinkId)
    (queue : List (DestinationEvent rns)) {α : Type} (p : EndpointM rns α) : Prop :=
  Commutes (Calm linkId interfaceId interfaceOwner) (requeue k queue) p

/-- A program that does not look into a mailbox leaves it alone, unless the link goes. -/
theorem Blind.mailbox {α : Type} {p : EndpointM rns α}
    (hp : ∀ queue, Blind linkId interfaceId interfaceOwner k queue p)
    (h : Calm linkId interfaceId interfaceOwner self) :
    (p self).2.mailbox k = self.mailbox k ∨ (p self).2.outgoingLinks.lookup k = none := by
  have hsame := (hp (self.mailbox k) self h).1
  rw [requeue_mailbox] at hsame
  have hstate : (p self).2 = (p self).2.requeue k (self.mailbox k) := congrArg Prod.snd hsame
  rcases hlookup : (p self).2.outgoingLinks.lookup k with _ | state
  · exact .inr rfl
  · left
    rw [hstate]
    exact mailbox_requeue hlookup _

/-- The changes that a poll makes to a binding that it leaves. -/
def polledBinding (endpoint : OutgoingEndpointState) : OutgoingEndpointState :=
  { endpoint with
    bindResultRx := (pollBindResult endpoint.bindResultRx).1
    lifecycleRx.queue := endpoint.lifecycleRx.queue.tail }

/-- The binding has ended. -/
def bindingEnds (endpoint : OutgoingEndpointState) : Bool :=
  (pollBindResult endpoint.bindResultRx).2 || !endpoint.lifecycleRx.queue.isEmpty ||
    !endpoint.lifecycleRx.connected

def polledState (state : OutgoingLinkState rns) : OutgoingLinkState rns :=
  { state with endpoint := state.endpoint.map polledBinding }

/-- `pollBindings` by the state of its first link. -/
theorem pollBindings_cons (first : LinkId) (rest : List LinkId) :
    (pollBindings (first :: rest)).run self =
      if ((self.outgoingLinks.lookup first).bind (·.endpoint)).any bindingEnds then
        (outgoingClosed first).run (self.amendLink first polledState)
      else (pollBindings rest).run (self.amendLink first polledState) := by
  have hsame (h : ∀ state, self.outgoingLinks.lookup first = some state →
      polledState state = state) : self.amendLink first polledState = self := by
    rw [TelephonyRnsEndpoint.amendLink, amend_congr (g := id) h, amend_id]
  rw [pollBindings, ExceptT.run, always_bind]
  dsimp only [Program.get]
  rcases hlookup : self.outgoingLinks.lookup first with _ | ⟨link, eventRx, _ | endpoint⟩
  · rw [hsame fun state hstate => by cases hlookup.symm.trans hstate]
    rfl
  · rw [hsame fun state hstate => by cases hlookup.symm.trans hstate; rfl]
    rfl
  · dsimp only
    rw [always_bind, ← replace_eq_amendLink hlookup polledState]
    show (if bindingEnds endpoint then outgoingClosed first else pollBindings rest) _ = _
    cases h : bindingEnds endpoint <;> simp [h] <;> rfl

end Lxst.Telephony.TelephonyRnsEndpoint
