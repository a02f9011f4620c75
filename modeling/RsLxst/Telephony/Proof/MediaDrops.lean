import RsLxst.Lib.Lifetime
import RsLxst.Telephony.Proof.EndpointRuns
import RsLxst.Telephony.Proof.Load

/-!
# The drop counters of links

The endpoint counts the media packets that were dropped on a link (`media_drops`), and a link that
is closed locally takes its counter with it. A link of the manager is closed by the manager, which
knows nothing of the counter, and its late results are still polled. `MediaStep` is what a run of
the endpoint does to the counters, and every call is such a run. The counters follow their links
throughout a run exactly if its steps are `Clean` (`drop_counts_iff`).
-/

set_option autoImplicit false

namespace Lxst.Telephony

variable {rns : Rns} {linkId : LinkId}

namespace TelephonyRnsEndpoint

variable {self : TelephonyRnsEndpoint rns}

/-! ## Links that are held -/

/-- The link manager holds the link. -/
def Managed (self : TelephonyRnsEndpoint rns) (linkId : LinkId) : Prop :=
  (rns.getLink self.manager linkId).isSome = true

/-- The endpoint holds the link: its manager does, or it is an outgoing attempt or link. -/
def Held (self : TelephonyRnsEndpoint rns) (linkId : LinkId) : Prop :=
  self.Managed linkId ∨ linkId ∈ self.outgoingAttempts ∨ linkId ∈ self.outgoingLinks

instance (self : TelephonyRnsEndpoint rns) (linkId : LinkId) : Decidable (self.Held linkId) :=
  inferInstanceAs (Decidable (_ = true ∨ _ ∨ _))

theorem Owns.held {role : LinkEndpointRole} (h : self.Owns linkId role) : self.Held linkId := by
  obtain ⟨link, howned⟩ := h
  unfold ownedLink at howned
  split at howned
  · rename_i hlink
    exact .inl (Option.isSome_of_eq_some hlink)
  · split at howned
    · rename_i hstate
      exact .inr (.inr (AList.lookup_isSome.mp (Option.isSome_of_eq_some hstate)))
    · cases howned

theorem Owns.outgoing (h : self.Owns linkId .initiator) : linkId ∈ self.outgoingLinks := by
  obtain ⟨link, howned⟩ := h
  unfold ownedLink at howned
  split at howned
  · cases howned
  · split at howned
    · rename_i hstate
      exact AList.lookup_isSome.mp (Option.isSome_of_eq_some hstate)
    · cases howned

/-! ## Counters -/

theorem mediaDropCount_of_eq {self' : TelephonyRnsEndpoint rns}
    (h : self'.mediaDrops = self.mediaDrops) (linkId : LinkId) :
    self'.mediaDropCount linkId = self.mediaDropCount linkId := by
  rw [mediaDropCount, h, mediaDropCount]

theorem mediaDropCount_countDrop (dropped linkId : LinkId) :
    (countDrop dropped self).2.mediaDropCount linkId =
      self.mediaDropCount linkId + if dropped = linkId then 1 else 0 := by
  show ((self.mediaDrops.insert dropped _).lookup linkId).getD 0 = _
  by_cases h : dropped = linkId
  · subst h
    rw [AList.lookup_insert, if_pos rfl]
    rfl
  · rw [AList.lookup_insert_ne (Ne.symm h), if_neg h]
    rfl

/-- A result of the link that says that its packet was dropped. -/
def isDrop (linkId : LinkId) (pending : PendingMediaResult) : Bool :=
  pending.linkId = linkId ∧ pending.resultRx = .ready .droppedBackpressure

theorem mediaDropCount_countDrops (pendings : List PendingMediaResult) (linkId : LinkId) :
    (countDrops pendings self).2.mediaDropCount linkId =
      self.mediaDropCount linkId + pendings.countP (isDrop linkId) := by
  induction pendings generalizing self with
  | nil => rfl
  | cons pending rest ih =>
    rw [countDrops, List.countP_cons]
    by_cases hdrop : pending.resultRx = .ready .droppedBackpressure
    · rw [if_pos hdrop]
      show (countDrops rest (countDrop pending.linkId self).2).2.mediaDropCount linkId = _
      rw [ih, mediaDropCount_countDrop]
      simp only [isDrop, hdrop, and_true, decide_eq_true_eq]
      omega
    · rw [if_neg hdrop]
      show (countDrops rest self).2.mediaDropCount linkId = _
      rw [ih]
      simp [isDrop, hdrop]

theorem mediaDropCount_observed (linkId : LinkId) :
    self.observed.mediaDropCount linkId =
      self.mediaDropCount linkId + self.pendingMediaResults.countP (isDrop linkId) :=
  mediaDropCount_countDrops self.pendingMediaResults linkId

/-! ## Closing a link -/

theorem mediaDropCount_finish (closed linkId : LinkId) (unbind : Bool) :
    (finishOutgoingLinkLocally closed unbind self).2.mediaDropCount linkId =
      if closed = linkId then 0 else self.mediaDropCount linkId := by
  obtain ⟨transport, cleanup, hframe⟩ := self.finishOutgoingLinkLocally_frame closed unbind
  rw [hframe]
  show ((self.mediaDrops.erase closed).lookup linkId).getD 0 = _
  by_cases h : closed = linkId
  · subst h
    rw [AList.lookup_erase, if_pos rfl]
    rfl
  · rw [AList.lookup_erase_ne (Ne.symm h), if_neg h]
    rfl

/-- The manager's end of a link stays. -/
theorem held_finish_iff (closed linkId : LinkId) (unbind : Bool) :
    (finishOutgoingLinkLocally closed unbind self).2.Held linkId ↔
      self.Managed linkId ∨ linkId ≠ closed ∧ self.Held linkId := by
  obtain ⟨transport, cleanup, hframe⟩ := self.finishOutgoingLinkLocally_frame closed unbind
  rw [hframe]
  show self.Managed linkId ∨ linkId ∈ self.outgoingAttempts.erase closed ∨
    linkId ∈ self.outgoingLinks.erase closed ↔ _
  rw [AList.mem_erase, AList.mem_erase, Held]
  tauto

end TelephonyRnsEndpoint

/-! ## Steps -/

open TelephonyRnsEndpoint

inductive MediaInput (rns : Rns)
  | finish (linkId : LinkId)
  /-- The link manager becomes another. -/
  | manage (manager : rns.Manager)
  | refuse (linkId : LinkId)
  | observe
  | enqueue
  | other

/-- A media result as long as it is waited for. -/
def PendingMediaResult.owed (self : PendingMediaResult) : LinkId × LinkEndpointRole :=
  (self.linkId, self.role)

/-- What a step leaves alone that neither drops media nor closes a link: calls are dialled, links
established and results arrive. -/
structure Lasts (before after : TelephonyRnsEndpoint rns) : Prop where
  drops : after.mediaDrops = before.mediaDrops
  owed : after.pendingMediaResults.map (·.owed) = before.pendingMediaResults.map (·.owed)
  held : ∀ linkId, before.Held linkId → after.Held linkId
  links : ∀ linkId ∈ before.outgoingLinks, linkId ∈ after.outgoingLinks

/-- What a run of the endpoint does to the drop counters; `other` is whatever else the endpoint and
its surroundings do. -/
inductive MediaStep : TelephonyRnsEndpoint rns → MediaInput rns → TelephonyRnsEndpoint rns → Prop
  | finish (self : TelephonyRnsEndpoint rns) (linkId : LinkId) (unbind : Bool) :
    MediaStep self (.finish linkId) (self.finishOutgoingLinkLocally linkId unbind).2
  | manage (self : TelephonyRnsEndpoint rns) (manager : rns.Manager) (transport : TransportQueue)
    (inbox : Inbox) : MediaStep self (.manage manager) { self with manager, transport, inbox }
  | refuse (self : TelephonyRnsEndpoint rns) {linkId : LinkId} {role : LinkEndpointRole}
    (howns : self.Owns linkId role) {message : TransportMessage}
    (hfull : (self.transport.trySend message).1 = .error .full) :
    MediaStep self (.refuse linkId) (countDrop linkId self).2
  | observe (self : TelephonyRnsEndpoint rns) : MediaStep self .observe self.observed
  | enqueue (self : TelephonyRnsEndpoint rns) {linkId : LinkId} {role : LinkEndpointRole}
    (howns : self.Owns linkId role) (encryptedLen : Nat) (transport : TransportQueue) :
    MediaStep self .enqueue { self with
      transport
      pendingMediaResults :=
        self.pendingMediaResults ++ [⟨linkId, role, encryptedLen, .waiting⟩] }
  | other {before after : TelephonyRnsEndpoint rns} (hlasts : Lasts before after) :
    MediaStep before .other after

theorem Lasts.of_tables {before after : TelephonyRnsEndpoint rns}
    (h : after.tables = before.tables) : Lasts before after where
  drops := congrArg Tables.drops h
  owed := congrArg (fun tables => tables.media.map (·.owed)) h
  held linkId hheld := by
    have hmanager : after.manager = before.manager := congrArg Tables.manager h
    have hattempts : after.outgoingAttempts.keys = before.outgoingAttempts.keys :=
      congrArg Tables.attempts h
    have hlinks : after.outgoingLinks.keys = before.outgoingLinks.keys := congrArg Tables.links h
    unfold Held Managed at hheld ⊢
    rw [hmanager, AList.mem_keys, AList.mem_keys, hattempts, hlinks]
    exact hheld
  links linkId hlink := by
    have hlinks : after.outgoingLinks.keys = before.outgoingLinks.keys := congrArg Tables.links h
    rw [AList.mem_keys, hlinks]
    exact hlink

theorem media_primitives : Primitives (@MediaStep rns) where
  keep h := ⟨_, .other (.of_tables h)⟩
  flush self := by
    obtain ⟨transport, cleanup, hflush, -⟩ := self.flushOutgoingCleanup_flushes
    rw [hflush]
    exact ⟨_, .other ⟨rfl, rfl, fun _ => id, fun _ => id⟩⟩
  finish self linkId unbind := ⟨_, .finish self linkId unbind⟩
  manage self manager transport inbox := ⟨_, .manage self manager transport inbox⟩
  dial self linkId attempt := by
    refine ⟨_, .other ⟨rfl, rfl, fun held hheld => ?_, fun _ => id⟩⟩
    rcases hheld with hmanaged | hattempt | hlink
    · exact .inl hmanaged
    · exact .inr (.inl (AList.mem_insert _ |>.mpr (.inr hattempt)))
    · exact .inr (.inr hlink)
  establish self linkId hattempt state transport pendingControlResults := by
    have hlinks : ∀ held ∈ self.outgoingLinks, held ∈ self.outgoingLinks.insert linkId state :=
      fun held hlink => AList.mem_insert _ |>.mpr (.inr hlink)
    refine ⟨_, .other ⟨rfl, rfl, fun held hheld => ?_, hlinks⟩⟩
    rcases hheld with hmanaged | hattempt | hlink
    · exact .inl hmanaged
    · by_cases h : held = linkId
      · exact .inr (.inr (AList.mem_insert _ |>.mpr (.inl h)))
      · exact .inr (.inl (AList.mem_erase.mpr ⟨h, hattempt⟩))
    · exact .inr (.inr (hlinks held hlink))
  enqueue self _ _ howns encryptedLen transport := ⟨_, .enqueue self howns encryptedLen transport⟩
  refuse self _ _ howns _ hfull := ⟨_, .refuse self howns hfull⟩
  observe self := ⟨_, .observe self⟩

/-! ## What the step keeps -/

/-- There are no empty counters, and results of outgoing links go with their link. -/
structure Owed (endpoint : TelephonyRnsEndpoint rns) : Prop where
  counted : ∀ linkId ∈ endpoint.mediaDrops, 0 < endpoint.mediaDropCount linkId
  outgoing : ∀ linkId, (linkId, .initiator) ∈ endpoint.pendingMediaResults.map (·.owed) →
    linkId ∈ endpoint.outgoingLinks

variable {before after : TelephonyRnsEndpoint rns} {input : MediaInput rns}

theorem Owed.mediaDropCount_eq_zero_iff (h : Owed before) :
    before.mediaDropCount linkId = 0 ↔ linkId ∉ before.mediaDrops := by
  constructor
  · intro hzero hmem
    have hpos := h.counted linkId hmem
    omega
  · intro hmem
    rw [mediaDropCount, AList.lookup_eq_none.mpr hmem]
    rfl

theorem Owed.lasts (h : Owed before) (hlasts : Lasts before after) : Owed after where
  counted linkId hmem := by
    rw [mediaDropCount_of_eq hlasts.drops]
    rw [hlasts.drops] at hmem
    exact h.counted linkId hmem
  outgoing linkId hmem := by
    rw [hlasts.owed] at hmem
    exact hlasts.links linkId (h.outgoing linkId hmem)

theorem countDrop_counted (h : ∀ linkId ∈ before.mediaDrops, 0 < before.mediaDropCount linkId)
    (dropped : LinkId) :
    ∀ linkId ∈ (countDrop dropped before).2.mediaDrops,
      0 < (countDrop dropped before).2.mediaDropCount linkId := by
  intro linkId hmem
  rw [mediaDropCount_countDrop]
  rcases (AList.mem_insert _).mp hmem with rfl | hmem
  · simp
  · have hpos := h linkId hmem
    omega

theorem countDrops_pos (pendings : List PendingMediaResult)
    (h : ∀ linkId ∈ before.mediaDrops, 0 < before.mediaDropCount linkId) :
    ∀ linkId ∈ (countDrops pendings before).2.mediaDrops,
      0 < (countDrops pendings before).2.mediaDropCount linkId := by
  induction pendings generalizing before with
  | nil => exact h
  | cons pending rest ih =>
    rw [countDrops]
    split
    · exact ih (countDrop_counted h pending.linkId)
    · exact ih h

theorem MediaStep.owed (h : MediaStep before input after) (howed : Owed before) : Owed after := by
  cases h with
  | other hlasts => exact howed.lasts hlasts
  | manage => exact ⟨howed.counted, howed.outgoing⟩
  | refuse => exact ⟨countDrop_counted howed.counted _, howed.outgoing⟩
  | finish closed unbind =>
    obtain ⟨transport, cleanup, hframe⟩ := before.finishOutgoingLinkLocally_frame closed unbind
    rw [hframe]
    refine ⟨fun linkId hmem => ?_, fun linkId hmem => ?_⟩
    · obtain ⟨hne, hmem⟩ := AList.mem_erase.mp hmem
      rw [← hframe, mediaDropCount_finish, if_neg (Ne.symm hne)]
      exact howed.counted linkId hmem
    · obtain ⟨pending, hpending, heq⟩ := List.mem_map.mp hmem
      obtain ⟨hpending, hne⟩ := List.mem_filter.mp hpending
      obtain ⟨hlink, -⟩ := Prod.mk.inj heq
      refine AList.mem_erase.mpr ⟨?_, howed.outgoing linkId ?_⟩
      · rw [← hlink]
        exact of_decide_eq_true hne
      · rw [← heq]
        exact List.mem_map_of_mem hpending
  | observe =>
    obtain ⟨mediaDrops, hdrops⟩ := countDrops_eq before.pendingMediaResults before
    refine ⟨countDrops_pos before.pendingMediaResults howed.counted, fun linkId hmem => ?_⟩
    obtain ⟨pending, hpending, heq⟩ := List.mem_map.mp hmem
    have hlink := howed.outgoing linkId
      (List.mem_map.mpr ⟨pending, (List.mem_filter.mp hpending).1, heq⟩)
    rw [observed, hdrops]
    exact hlink
  | enqueue howns encryptedLen transport =>
    refine ⟨howed.counted, fun linkId hmem => ?_⟩
    rw [List.map_append] at hmem
    rcases List.mem_append.mp hmem with hmem | hmem
    · exact howed.outgoing linkId hmem
    · cases List.mem_singleton.mp hmem
      exact howns.outgoing

/-! ## Drops of a run -/

abbrev MediaTransition (rns : Rns) := Machine.Transition (TelephonyRnsEndpoint rns) (MediaInput rns)

/-- The packets of the link that the transport queue refused or that a result reports as dropped. -/
def dropped (t : MediaTransition rns) (linkId : LinkId) : Nat :=
  match t.input with
  | .refuse refused => if refused = linkId then 1 else 0
  | .observe => t.before.pendingMediaResults.countP (isDrop linkId)
  | _ => 0

/-- After this run the counters are those of the links that the endpoint holds, each with the drops
since the link was established. -/
abbrev DropsKept (ts : List (MediaTransition rns)) (self : TelephonyRnsEndpoint rns) : Prop :=
  Lifetime.Kept Held dropped mediaDropCount ts self

/-- Steps under which the counters follow their links: the manager lets go only of links without a
counter, no result reports a drop on a link that the manager let go of, and where the manager holds
a link too its outgoing end is closed without a counter. -/
def Clean (self : TelephonyRnsEndpoint rns) : MediaInput rns → Prop
  | .finish linkId => self.Managed linkId → linkId ∉ self.mediaDrops
  | .manage manager => ∀ linkId, self.Held linkId → ¬ { self with manager }.Held linkId →
      linkId ∉ self.mediaDrops
  | .observe => ∀ pending ∈ self.pendingMediaResults, pending.role = .responder →
      pending.resultRx = .ready .droppedBackpressure → self.Held pending.linkId
  | .refuse _ | .enqueue | .other => True

variable {ts : List (MediaTransition rns)}

theorem finish_kept_iff (howed : Owed before) (hkept : DropsKept ts before) (closed : LinkId)
    (unbind : Bool) :
    DropsKept (ts ++ [⟨before, .finish closed,
        (before.finishOutgoingLinkLocally closed unbind).2⟩])
      (before.finishOutgoingLinkLocally closed unbind).2 ↔ Clean before (.finish closed) := by
  refine (Lifetime.kept_concat_iff hkept).trans ?_
  dsimp only
  constructor
  · intro hall hmanaged
    have hclosed := hall closed
    rw [mediaDropCount_finish, if_pos rfl,
      if_pos ⟨.inl hmanaged, (held_finish_iff _ _ _).mpr (.inl hmanaged)⟩] at hclosed
    exact howed.mediaDropCount_eq_zero_iff.mp hclosed.symm
  · intro hclean linkId
    rw [mediaDropCount_finish]
    by_cases hlink : closed = linkId
    · subst hlink
      rw [if_pos rfl]
      split
      · rename_i hboth
        have hmanaged : before.Managed closed := by
          rcases (held_finish_iff _ _ _).mp hboth.2 with hmanaged | ⟨hne, -⟩
          · exact hmanaged
          · exact absurd rfl hne
        exact (howed.mediaDropCount_eq_zero_iff.mpr (hclean hmanaged)).symm
      · rfl
    · rw [if_neg hlink]
      by_cases hbefore : before.Held linkId
      · have hafter := (held_finish_iff closed linkId unbind).mpr (.inr ⟨Ne.symm hlink, hbefore⟩)
        rw [if_pos ⟨hbefore, hafter⟩]
        rfl
      · rw [if_neg fun hboth => hbefore hboth.1]
        exact hkept.gone linkId hbefore

theorem observe_kept_iff (howed : Owed before) (hkept : DropsKept ts before) :
    DropsKept (ts ++ [⟨before, .observe, before.observed⟩]) before.observed ↔
      Clean before .observe := by
  have hheld (linkId : LinkId) : before.observed.Held linkId ↔ before.Held linkId := by
    obtain ⟨mediaDrops, hdrops⟩ := countDrops_eq before.pendingMediaResults before
    rw [observed, hdrops]
    exact Iff.rfl
  constructor
  · intro hafter pending hpending _ hdrop
    by_contra hgone
    have hzero := hafter.gone pending.linkId (fun h => hgone ((hheld _).mp h))
    rw [mediaDropCount_observed] at hzero
    have hnone := List.countP_eq_zero.mp (Nat.eq_zero_of_add_eq_zero_left hzero) pending hpending
    exact hnone (decide_eq_true ⟨rfl, hdrop⟩)
  · intro hclean
    refine hkept.lasts (fun linkId => (hheld linkId).mpr) mediaDropCount_observed ?_
    intro linkId hgone
    refine List.countP_eq_zero.mpr fun pending hpending hdrop => hgone ?_
    obtain ⟨rfl, hresult⟩ := of_decide_eq_true hdrop
    -- the results of an outgoing link went with it
    cases hrole : pending.role with
    | responder => exact hclean pending hpending hrole hresult
    | initiator =>
      apply Or.inr ∘ Or.inr
      apply howed.outgoing
      rw [← hrole]
      exact List.mem_map_of_mem hpending

theorem manage_kept_iff (howed : Owed before) (hkept : DropsKept ts before)
    (manager : rns.Manager) (transport : TransportQueue) (inbox : Inbox) :
    DropsKept (ts ++ [⟨before, .manage manager, { before with manager, transport, inbox }⟩])
      { before with manager, transport, inbox } ↔ Clean before (.manage manager) := by
  refine (Lifetime.kept_concat_iff hkept).trans ?_
  constructor
  · intro hall linkId hheld hgone
    have hcount := hall linkId
    rw [if_neg fun hboth => hgone hboth.2] at hcount
    exact howed.mediaDropCount_eq_zero_iff.mp hcount
  · intro hclean linkId
    show before.mediaDropCount linkId = _
    by_cases hbefore : before.Held linkId
    · by_cases hafter : TelephonyRnsEndpoint.Held { before with manager, transport, inbox } linkId
      · rw [if_pos ⟨hbefore, hafter⟩]
        rfl
      · rw [if_neg fun hboth => hafter hboth.2]
        exact howed.mediaDropCount_eq_zero_iff.mpr (hclean linkId hbefore hafter)
    · rw [if_neg fun hboth => hbefore hboth.1]
      exact hkept.gone linkId hbefore

/-- A step keeps the counters exactly if it is clean. -/
theorem MediaStep.kept_iff (h : MediaStep before input after) (howed : Owed before)
    (hkept : DropsKept ts before) :
    DropsKept (ts ++ [⟨before, input, after⟩]) after ↔ Clean before input := by
  cases h with
  | finish closed unbind => exact finish_kept_iff howed hkept closed unbind
  | manage manager transport inbox => exact manage_kept_iff howed hkept manager transport inbox
  | observe => exact observe_kept_iff howed hkept
  | refuse howns hfull =>
    refine iff_of_true (hkept.lasts (fun _ => id) (fun _ => mediaDropCount_countDrop _ _) ?_)
      trivial
    intro linkId hgone
    refine if_neg ?_
    rintro rfl
    exact hgone howns.held
  | enqueue howns encryptedLen transport =>
    exact iff_of_true (hkept.lasts (fun _ => id) (fun _ => rfl) fun _ _ => rfl) trivial
  | other hlasts =>
    refine iff_of_true (hkept.lasts hlasts.held (fun linkId => ?_) fun _ _ => rfl) trivial
    exact mediaDropCount_of_eq hlasts.drops linkId

/-! ## Runs -/

theorem dropsKept_new (destinationHash : Hash) (manager : rns.Manager) (inbox : Inbox)
    (transport : TransportQueue) :
    DropsKept [] (TelephonyRnsEndpoint.new destinationHash manager inbox transport) :=
  ⟨fun _ _ => rfl, fun _ _ => rfl⟩

/-- **The drop counters of links.** Every call on an endpoint is a run of steps. Throughout a run of
a new endpoint the counter of a link that it holds is the number of drops since the link was
established, and the other counters are zero, exactly if the steps of the run are clean. -/
theorem drop_counts_iff (rns : Rns) :
    (∀ (call : EndpointCall) (self : TelephonyRnsEndpoint rns),
      ∃ ts, Machine.Trace MediaStep self ts (call.after self)) ∧
    ∀ (start self : TelephonyRnsEndpoint rns) (ts : List (MediaTransition rns)),
      (∃ destinationHash manager inbox transport,
        start = .new destinationHash manager inbox transport) →
      Machine.Trace MediaStep start ts self →
      ((∀ us reached, us <+: ts → Machine.Trace MediaStep start us reached →
        DropsKept us reached) ↔ ∀ t ∈ ts, Clean t.before t.input) := by
  refine ⟨fun call self => call.moves media_primitives self, ?_⟩
  rintro start self ts ⟨destinationHash, manager, inbox, transport, rfl⟩ hrun
  refine Lifetime.kept_iff
    (fun before input after (hstep : MediaStep before input after) => hstep.owed)
    (fun _ _ _ _ howed hstep hkept => hstep.kept_iff howed hkept) hrun ?_ (dropsKept_new ..)
  exact ⟨nofun, nofun⟩

/-- A Reticulum whose link manager has a link, and after its next step none. -/
def visited : Rns :=
  { Rns.plain with
    writeValue := fun _ => .ok []
    tryStep := fun m =>
      (false, if List.isEmpty m.1 then [Vector.replicate 16 7] else [], m.2) }

/-- An endpoint with a full transport queue. -/
def stuck (rns : Rns) (manager : rns.Manager) : TelephonyRnsEndpoint rns :=
  .new (.replicate 16 0) manager ⟨[], [], [], []⟩ ⟨[.requestPath (.replicate 16 1)], 1, false⟩

theorem drop_counts_iff_refused :
    let start := stuck Rns.plain [Vector.replicate 16 7]
    let refused := (countDrop (.replicate 16 7) start).2
    refused.mediaDropCount (.replicate 16 7) = 1 ∧
      DropsKept [⟨start, .refuse (.replicate 16 7), refused⟩, ⟨refused, .observe, refused.observed⟩]
        refused.observed := by
  intro start refused
  have howns : start.Owns (.replicate 16 7) .responder := ⟨.replicate 16 7, rfl⟩
  have hfull : (start.transport.trySend (.requestPath (.replicate 16 1))).1 = .error .full := rfl
  have hrun : Machine.Trace MediaStep start
      [⟨start, .refuse (.replicate 16 7), refused⟩, ⟨refused, .observe, refused.observed⟩]
      refused.observed := .cons (.refuse start howns hfull) (.cons (.observe refused) (.nil _))
  refine ⟨by decide, ?_⟩
  refine ((drop_counts_iff Rns.plain).2 start _ _ ⟨_, _, _, _, rfl⟩ hrun).mpr ?_ _ _
    List.prefix_rfl hrun
  simp only [List.forall_mem_cons]
  exact ⟨trivial, nofun, nofun⟩

/-- A caller's link is closed by its peer after a packet was dropped: its counter stays. -/
theorem closed_link_counts :
    let calls : List EndpointCall :=
      [.tryPumpReticulum, .queueFrames (.replicate 16 7) [⟨.opus, []⟩], .tryPumpReticulum]
    let last := calls.foldl EndpointCall.after (stuck visited [])
    ¬ last.Held (.replicate 16 7) ∧ last.mediaDropCount (.replicate 16 7) = 1 := by
  decide +kernel

end Lxst.Telephony
