import RsLxst.Telephony.Proof.Blind
import RsLxst.Telephony.Proof.Outgoing

/-!
# Settled endpoints

Before it comes to the links' mailboxes, a poll of the outgoing side flushes cleanups and takes up
the results of earlier sends (`recvBeforeLinks`). If that finds nothing, another poll finds nothing
there either and changes nothing (`settled_of_recvBeforeLinks`, `Settled.recvBeforeLinks`).
-/

set_option autoImplicit false

namespace Lxst.Telephony

namespace BoundedQueue

variable {α : Type} {q : BoundedQueue α}

/-- A sender is told to wait. -/
def Full (q : BoundedQueue α) : Prop := q.closed = false ∧ q.free = 0

/-- A send changes nothing, unless it queues. -/
theorem trySend_cases (q : BoundedQueue α) (a : α) :
    (q.trySend a = (.error .closed, q)) ∨ (q.Full ∧ q.trySend a = (.error .full, q)) ∨
      q.trySend a = (.ok (), { q with queue := q.queue ++ [a] }) := by
  by_cases hclosed : q.closed = true
  · exact .inl (trySend_closed hclosed a)
  have hopen : q.closed = false := by simpa using hclosed
  by_cases hfree : q.free = 0
  · exact .inr (.inl ⟨⟨hopen, hfree⟩, trySend_full hopen hfree a⟩)
  · exact .inr (.inr (trySend_free hopen hfree a))

end BoundedQueue

namespace TelephonyRnsEndpoint

open Program AList

variable {rns : Rns} {self self' : TelephonyRnsEndpoint rns}

/-! ## Cleanups -/

/-- A full queue stops a cleanup. -/
theorem tryAdvanceOutgoingCleanup_full (h : self.transport.Full)
    (cleanup : PendingOutgoingCleanup) :
    tryAdvanceOutgoingCleanup cleanup self = ((false, cleanup), self) := by
  obtain ⟨linkId, unbindSent⟩ := cleanup
  have hsend (message : TransportMessage) :
      self.transport.trySend message = (.error .full, self.transport) :=
    BoundedQueue.trySend_full h.1 h.2 message
  cases unbindSent <;> simp [tryAdvanceOutgoingCleanup, hsend]

variable (self) in
/-- Only a full queue stops a cleanup, and only the queue changes. -/
theorem tryAdvanceOutgoingCleanup_stops (cleanup : PendingOutgoingCleanup) :
    (∃ transport, (tryAdvanceOutgoingCleanup cleanup self).2 = { self with transport }) ∧
      ((tryAdvanceOutgoingCleanup cleanup self).1.1 = false →
        (tryAdvanceOutgoingCleanup cleanup self).2.transport.Full) := by
  obtain ⟨linkId, unbindSent⟩ := cleanup
  have hderegister (queue : TransportQueue) :=
    queue.trySend_cases (.deregisterDestination linkId)
  cases unbindSent with
  | true =>
    rcases hderegister self.transport with h | ⟨hfull, h⟩ | h
    · simp only [tryAdvanceOutgoingCleanup, h, if_true]
      exact ⟨⟨_, rfl⟩, nofun⟩
    · simp only [tryAdvanceOutgoingCleanup, h, if_true]
      exact ⟨⟨_, rfl⟩, fun _ => hfull⟩
    · simp only [tryAdvanceOutgoingCleanup, h, if_true]
      exact ⟨⟨_, rfl⟩, nofun⟩
  | false =>
    rcases self.transport.trySend_cases (.unbindLinkEndpoint linkId .initiator) with
      h | ⟨hfull, h⟩ | h
    · simp only [tryAdvanceOutgoingCleanup, h, Bool.false_eq_true, if_false]
      exact ⟨⟨_, rfl⟩, nofun⟩
    · simp only [tryAdvanceOutgoingCleanup, h, Bool.false_eq_true, if_false]
      exact ⟨⟨_, rfl⟩, fun _ => hfull⟩
    · generalize BoundedQueue.mk (self.transport.queue ++ _) _ _ = queue at h
      rcases hderegister queue with h' | ⟨hfull, h'⟩ | h'
      · simp only [tryAdvanceOutgoingCleanup, h, h', Bool.false_eq_true, if_false]
        exact ⟨⟨_, rfl⟩, nofun⟩
      · simp only [tryAdvanceOutgoingCleanup, h, h', Bool.false_eq_true, if_false]
        exact ⟨⟨_, rfl⟩, fun _ => hfull⟩
      · simp only [tryAdvanceOutgoingCleanup, h, h', Bool.false_eq_true, if_false]
        exact ⟨⟨_, rfl⟩, nofun⟩

variable (self) in
theorem flushCleanups_stops (cleanups : List PendingOutgoingCleanup) :
    (∃ transport, (flushCleanups cleanups self).2 = { self with transport }) ∧
      ((flushCleanups cleanups self).1 = [] ∨ (flushCleanups cleanups self).2.transport.Full) := by
  induction cleanups generalizing self with
  | nil => exact ⟨⟨self.transport, rfl⟩, .inl rfl⟩
  | cons cleanup cleanups ih =>
    obtain ⟨⟨transport, hframe⟩, hstop⟩ := tryAdvanceOutgoingCleanup_stops self cleanup
    rw [flushCleanups_cons]
    split
    · rw [hframe]
      exact ih _
    · rename_i hunfinished
      exact ⟨⟨transport, hframe⟩, .inr (hstop (by simpa using hunfinished))⟩

/-- Cleanups are flushed: there are none, or the queue is full. -/
def Flushed (self : TelephonyRnsEndpoint rns) : Prop :=
  self.pendingOutgoingCleanup = [] ∨ self.transport.Full

variable (self) in
theorem flushOutgoingCleanup_flushes : ∃ transport pendingOutgoingCleanup,
    flushOutgoingCleanup self = ((), { self with transport, pendingOutgoingCleanup }) ∧
      Flushed { self with transport, pendingOutgoingCleanup } := by
  obtain ⟨⟨transport, hframe⟩, hstop⟩ :=
    flushCleanups_stops self self.pendingOutgoingCleanup
  refine ⟨transport, (flushCleanups self.pendingOutgoingCleanup self).1, ?_, ?_⟩
  · show ((), { (flushCleanups self.pendingOutgoingCleanup self).2 with
      pendingOutgoingCleanup := (flushCleanups self.pendingOutgoingCleanup self).1 }) = _
    rw [hframe]
  · rwa [hframe] at hstop

theorem Flushed.flushOutgoingCleanup (h : Flushed self) :
    flushOutgoingCleanup self = ((), self) := by
  have hnone : flushCleanups self.pendingOutgoingCleanup self =
      (self.pendingOutgoingCleanup, self) := by
    rcases h with hempty | hfull
    · rw [hempty]
      rfl
    · cases self.pendingOutgoingCleanup with
      | nil => rfl
      | cons cleanup cleanups =>
        rw [flushCleanups_cons, tryAdvanceOutgoingCleanup_full hfull, if_neg Bool.false_ne_true]
  show ((), { (flushCleanups self.pendingOutgoingCleanup self).2 with
    pendingOutgoingCleanup := (flushCleanups self.pendingOutgoingCleanup self).1 }) = _
  rw [hnone]

/-! ## Bindings -/

/-- What a link is bound to. -/
def bindingOf (self : TelephonyRnsEndpoint rns) (linkId : LinkId) : Option OutgoingEndpointState :=
  (self.outgoingLinks.lookup linkId).bind (·.endpoint)

/-- Nothing new is known of the binding of a link. -/
def AttachedAt (self : TelephonyRnsEndpoint rns) (linkId : LinkId) : Prop :=
  ∀ endpoint, self.bindingOf linkId = some endpoint →
    polledBinding endpoint = endpoint ∧ bindingEnds endpoint = false

theorem pollBindResult_fst (result : Option (Oneshot LinkEndpointBindResult))
    (h : (pollBindResult result).2 = false) :
    pollBindResult (pollBindResult result).1 = ((pollBindResult result).1, false) := by
  rcases result with _ | _ | (_ | _ | _) | _
  · rfl
  · rfl
  · rfl
  · rfl
  · cases h
  · cases h

/-- A binding that has not ended is polled once. -/
theorem polledBinding_settles {endpoint : OutgoingEndpointState}
    (h : bindingEnds endpoint = false) :
    polledBinding (polledBinding endpoint) = polledBinding endpoint ∧
      bindingEnds (polledBinding endpoint) = false := by
  simp only [bindingEnds, Bool.or_eq_false_iff, Bool.not_eq_false', List.isEmpty_iff] at h
  obtain ⟨⟨hresult, hqueue⟩, hconnected⟩ := h
  have hpolled := pollBindResult_fst endpoint.bindResultRx hresult
  simp [polledBinding, bindingEnds, hpolled, hqueue, hconnected]

theorem bindingOf_polled (first linkId : LinkId) :
    (self.amendLink first polledState).bindingOf linkId =
      if linkId = first then (self.bindingOf linkId).map polledBinding
      else self.bindingOf linkId := by
  rw [bindingOf, amendLink, lookup_amend]
  split
  · rw [Option.bind_map, bindingOf, Option.map_bind]
    rfl
  · rfl

theorem pollBindings_of_attached (h : ∀ linkId, self.AttachedAt linkId) (linkIds : List LinkId) :
    (pollBindings linkIds).run self = (.ok none, self) := by
  induction linkIds with
  | nil => rfl
  | cons first rest ih =>
    have hsame : self.amendLink first polledState = self := by
      rw [amendLink, amend_congr (g := id), amend_id]
      intro state hstate
      rcases hendpoint : state.endpoint with _ | endpoint
      · rw [polledState, hendpoint, Option.map_none, ← hendpoint]
        rfl
      · have hbinding : self.bindingOf first = some endpoint := by
          rw [bindingOf, hstate, Option.bind_some, hendpoint]
        rw [polledState, hendpoint, Option.map_some, (h first endpoint hbinding).1, ← hendpoint]
        rfl
    rw [pollBindings_cons, hsame, if_neg, ih]
    intro hends
    rw [← bindingOf, Option.any_eq_true] at hends
    obtain ⟨endpoint, hbinding, hend⟩ := hends
    rw [(h first endpoint hbinding).2] at hend
    cases hend

/-! ## Results of earlier sends -/

/-- A control send that ends its link: a failure, or a channel that has closed. -/
def controlFailed (result : Oneshot LinkEndpointSendResult) : Bool :=
  !isWaiting result && !sendSucceeded result

variable (self) in
/-- The control results that have arrived are taken up. -/
def takeControls : TelephonyRnsEndpoint rns :=
  { self with
    pendingControlResults := self.pendingControlResults.filter (isWaiting ·.resultRx) }

variable (self) in
theorem pollControlResults_failed {pending : PendingControlResult}
    (h : self.pendingControlResults.find? (controlFailed ·.resultRx) = some pending) :
    pollControlResults.run self = (.ok (some (.linkClosed pending.linkId)),
      (closeLinkOwner pending.linkId pending.role self.takeControls).2) := by
  rw [pollControlResults, ExceptT.run, always_bind]
  simp only [controlFailed] at h
  simp only [Program.get, h]
  rfl

variable (self) in
theorem pollControlResults_none
    (h : self.pendingControlResults.find? (controlFailed ·.resultRx) = none) :
    pollControlResults.run self = (.ok none, self.takeControls) := by
  rw [pollControlResults, ExceptT.run, always_bind]
  simp only [controlFailed] at h
  simp only [Program.get, h]
  rfl

theorem pollControlResults_of_waiting
    (h : ∀ pending ∈ self.pendingControlResults, isWaiting pending.resultRx = true) :
    pollControlResults.run self = (.ok none, self) := by
  have hfailed : self.pendingControlResults.find? (controlFailed ·.resultRx) = none :=
    List.find?_eq_none.mpr fun pending hpending => by simp [controlFailed, h pending hpending]
  rw [pollControlResults_none self hfailed, takeControls, List.filter_eq_self.mpr h]

/-- Only counters have changed. -/
structure Counted (before after : TelephonyRnsEndpoint rns) : Prop where
  transport : after.transport = before.transport
  cleanup : after.pendingOutgoingCleanup = before.pendingOutgoingCleanup
  events : after.pendingOutgoingEvents = before.pendingOutgoingEvents
  controls : after.pendingControlResults = before.pendingControlResults
  media : after.pendingMediaResults = before.pendingMediaResults
  attempts : after.outgoingAttempts = before.outgoingAttempts
  bindings (linkId : LinkId) : after.bindingOf linkId = before.bindingOf linkId

theorem Counted.refl (self : TelephonyRnsEndpoint rns) : Counted self self :=
  ⟨rfl, rfl, rfl, rfl, rfl, rfl, fun _ => rfl⟩

theorem Counted.trans {self'' : TelephonyRnsEndpoint rns} (h : Counted self self')
    (h' : Counted self' self'') : Counted self self'' where
  transport := h'.transport.trans h.transport
  cleanup := h'.cleanup.trans h.cleanup
  events := h'.events.trans h.events
  controls := h'.controls.trans h.controls
  media := h'.media.trans h.media
  attempts := h'.attempts.trans h.attempts
  bindings linkId := (h'.bindings linkId).trans (h.bindings linkId)

variable (self) in
theorem countDrops_counted (pendings : List PendingMediaResult) :
    Counted self (countDrops pendings self).2 := by
  induction pendings generalizing self with
  | nil => exact .refl self
  | cons pending rest ih =>
    have hdrop : Counted self (countDrop pending.linkId self).2 :=
      ⟨rfl, rfl, rfl, rfl, rfl, rfl, fun _ => rfl⟩
    rw [countDrops]
    split
    · exact hdrop.trans (ih _)
    · exact ih self

theorem recordMediaSent_counted (pending : PendingMediaResult) :
    Counted self (recordMediaSent pending self).2 := by
  rw [recordMediaSent]
  cases pending.role with
  | initiator =>
    dsimp only
    rw [updateOutgoingLink_eq]
    refine ⟨rfl, rfl, rfl, rfl, rfl, rfl, fun linkId => ?_⟩
    rw [bindingOf, amendLink, lookup_amend]
    split
    · rw [Option.bind_map, bindingOf]
      rfl
    · rfl
  | responder =>
    simp only [Program.get, bind]
    rcases rns.getLink self.manager pending.linkId with _ | link
    · exact .refl self
    · exact ⟨rfl, rfl, rfl, rfl, rfl, rfl, fun _ => rfl⟩

theorem recordMediaSents_counted (pendings : List PendingMediaResult) :
    Counted self (recordMediaSents pendings self).2 := by
  induction pendings generalizing self with
  | nil => exact .refl self
  | cons pending rest ih =>
    rw [recordMediaSents]
    split
    · exact (recordMediaSent_counted pending).trans ih
    · exact ih

/-- A media send that ends its link; media may be dropped. -/
def mediaFailed (result : Oneshot LinkEndpointSendResult) : Bool :=
  controlFailed result && result ≠ .ready .droppedBackpressure

variable (self) in
/-- The media results that have arrived are counted and taken up. -/
def takeMedia : TelephonyRnsEndpoint rns :=
  (recordMediaSents self.pendingMediaResults
    { (countDrops self.pendingMediaResults self).2 with
      pendingMediaResults := self.pendingMediaResults.filter (isWaiting ·.resultRx) }).2

variable (self) in
theorem takeMedia_counted : Counted { self with
    pendingMediaResults := self.pendingMediaResults.filter (isWaiting ·.resultRx) }
    self.takeMedia := by
  obtain ⟨htransport, hcleanup, hevents, hcontrols, -, hattempts, hbindings⟩ :=
    countDrops_counted self self.pendingMediaResults
  have hset : Counted
      { self with
        pendingMediaResults := self.pendingMediaResults.filter (isWaiting ·.resultRx) }
      { (countDrops self.pendingMediaResults self).2 with
        pendingMediaResults := self.pendingMediaResults.filter (isWaiting ·.resultRx) } :=
    ⟨htransport, hcleanup, hevents, hcontrols, rfl, hattempts, hbindings⟩
  exact hset.trans (recordMediaSents_counted _)

variable (self) in
theorem pollMediaResults_failed {pending : PendingMediaResult}
    (h : self.pendingMediaResults.find? (mediaFailed ·.resultRx) = some pending) :
    pollMediaResults.run self = (.ok (some (.linkClosed pending.linkId)),
      (closeLinkOwner pending.linkId pending.role self.takeMedia).2) := by
  rw [pollMediaResults, ExceptT.run, always_bind]
  simp only [mediaFailed, controlFailed] at h
  simp only [Program.get, h]
  rfl

variable (self) in
theorem pollMediaResults_none
    (h : self.pendingMediaResults.find? (mediaFailed ·.resultRx) = none) :
    pollMediaResults.run self = (.ok none, self.takeMedia) := by
  rw [pollMediaResults, ExceptT.run, always_bind]
  simp only [mediaFailed, controlFailed] at h
  simp only [Program.get, h]
  rfl

theorem countDrops_of_waiting {pendings : List PendingMediaResult}
    (h : ∀ pending ∈ pendings, isWaiting pending.resultRx = true) :
    countDrops pendings self = ((), self) := by
  induction pendings with
  | nil => rfl
  | cons pending rest ih =>
    have hwaiting := h pending List.mem_cons_self
    rw [countDrops, if_neg]
    · exact ih fun pending hpending => h pending (List.mem_cons_of_mem _ hpending)
    · intro hdropped
      rw [hdropped] at hwaiting
      cases hwaiting

theorem recordMediaSents_of_waiting {pendings : List PendingMediaResult}
    (h : ∀ pending ∈ pendings, isWaiting pending.resultRx = true) :
    recordMediaSents pendings self = ((), self) := by
  induction pendings with
  | nil => rfl
  | cons pending rest ih =>
    have hwaiting := h pending List.mem_cons_self
    rw [recordMediaSents, if_neg]
    · exact ih fun pending hpending => h pending (List.mem_cons_of_mem _ hpending)
    · intro hsent
      rcases hresult : pending.resultRx with _ | _ | _
      · rw [hresult] at hsent
        cases hsent
      · rw [hresult] at hwaiting
        cases hwaiting
      · rw [hresult] at hsent
        cases hsent

theorem pollMediaResults_of_waiting
    (h : ∀ pending ∈ self.pendingMediaResults, isWaiting pending.resultRx = true) :
    pollMediaResults.run self = (.ok none, self) := by
  have hfailed : self.pendingMediaResults.find? (mediaFailed ·.resultRx) = none :=
    List.find?_eq_none.mpr fun pending hpending => by
      simp [mediaFailed, controlFailed, h pending hpending]
  rw [pollMediaResults_none self hfailed, takeMedia, countDrops_of_waiting h,
    List.filter_eq_self.mpr h, recordMediaSents_of_waiting h]

/-! ## Attempts -/

section OrElse

variable {first second : EndpointE rns (Option TelephonyLinkEvent)}

theorem orElseEvent_of_none (h : first.run self = (.ok none, self')) :
    (orElseEvent first second).run self = second.run self' := by
  show (ExceptT.bindCont _ (first.run self).1 : EndpointM rns _) (first.run self).2 = _
  rw [h]
  rfl

/-- An event or an error of the first source ends the poll. -/
theorem orElseEvent_of_ne (h : (first.run self).1 ≠ .ok none) :
    (orElseEvent first second).run self = first.run self := by
  show (ExceptT.bindCont _ (first.run self).1 : EndpointM rns _) (first.run self).2 = _
  rcases hfirst : first.run self with ⟨error | _ | event, self'⟩
  · rfl
  · rw [hfirst] at h
    cases h rfl
  · rfl

end OrElse

/-- An attempt of which nothing new is known, apart from the events at its mailbox. -/
def Unanswered (attempt : OutgoingLinkAttempt rns) : Prop :=
  attempt.dispatchResult = some .waiting ∨
    attempt.dispatchResult = none ∧ attempt.eventRx.connected = true

def UnansweredAt (self : TelephonyRnsEndpoint rns) (linkId : LinkId) : Prop :=
  ∀ attempt, self.outgoingAttempts.lookup linkId = some attempt → Unanswered attempt

/-- A poll of an attempt without events. -/
theorem pollAttempt_run {attempted : LinkId} {attempt : OutgoingLinkAttempt rns}
    (hlookup : self.outgoingAttempts.lookup attempted = some attempt)
    (hidle : attempt.eventRx.queue = []) :
    (pollAttempt attempted).run self =
      if attempt.dispatchResult = some .waiting then (.ok none, self)
      else if attempt.dispatchResult = some (.ready false) ∨
          attempt.dispatchResult = some .closed then (outgoingClosed attempted).run self
      else
        (if attempt.eventRx.connected then pure none else outgoingClosed attempted :
          EndpointE rns (Option TelephonyLinkEvent)).run { self with
            outgoingAttempts := self.outgoingAttempts.replace attempted
              { attempt with dispatchResult := none } } := by
  obtain ⟨dispatchResult, link, remotePublicKey, events, connected⟩ := attempt
  subst hidle
  rw [pollAttempt, ExceptT.run, always_bind]
  simp only [Program.get, hlookup]
  rcases dispatchResult with _ | _ | (_ | _) | _ <;> rfl

theorem pollAttempts_of_unanswered (hidle : AttemptsIdle self)
    (h : ∀ linkId, self.UnansweredAt linkId) (attempted : List LinkId) :
    (pollAttempts attempted).run self = (.ok none, self) := by
  induction attempted with
  | nil => rfl
  | cons first rest ih =>
    rw [pollAttempts, orElseEvent_of_none, ih]
    rcases hlookup : self.outgoingAttempts.lookup first with _ | attempt
    · rw [pollAttempt, ExceptT.run, always_bind]
      simp only [Program.get, hlookup]
      rfl
    rw [pollAttempt_run hlookup (hidle first attempt hlookup)]
    rcases h first attempt hlookup with hwaiting | ⟨hnone, hconnected⟩
    · rw [if_pos hwaiting]
    · have hsame : self.outgoingAttempts.replace first { attempt with dispatchResult := none } =
          self.outgoingAttempts := by
        rw [replace_eq_amend, amend_congr (g := id), amend_id]
        intro attempt' hattempt'
        cases hlookup.symm.trans hattempt'
        rw [← hnone]
        rfl
      rw [hnone, if_neg (by simp), if_neg (by simp), hsame, if_pos hconnected]
      rfl

/-! ## Before the links -/

def recvAttempts : EndpointE rns (Option TelephonyLinkEvent) := do
  let self ← always Program.get
  pollAttempts self.outgoingAttempts.keys

/-- The part of `tryRecvOutgoingEvent` before it comes to the links' mailboxes. -/
def recvBeforeLinks : EndpointE rns (Option TelephonyLinkEvent) := do
  always flushOutgoingCleanup
  let self ← always Program.get
  match self.pendingOutgoingEvents with
  | event :: rest => do
    always (Program.set { self with pendingOutgoingEvents := rest })
    pure (some event)
  | [] =>
    orElseEvent pollOutgoingEndpointState recvAttempts

theorem recvBeforeLinks_empty (h : (flushOutgoingCleanup self).2.pendingOutgoingEvents = []) :
    recvBeforeLinks.run self =
      (orElseEvent pollOutgoingEndpointState recvAttempts).run (flushOutgoingCleanup self).2 := by
  rw [recvBeforeLinks, ExceptT.run, always_bind, always_bind]
  simp only [Program.get, h]
  rfl

/-- Everything that has arrived has been taken up, apart from destination events. -/
structure Settled (phone : TelephonyRnsEndpoint rns) : Prop where
  flushed : Flushed phone
  events : phone.pendingOutgoingEvents = []
  attached (linkId : LinkId) : phone.AttachedAt linkId
  controls : ∀ pending ∈ phone.pendingControlResults, isWaiting pending.resultRx = true
  media : ∀ pending ∈ phone.pendingMediaResults, isWaiting pending.resultRx = true
  unanswered (linkId : LinkId) : phone.UnansweredAt linkId

theorem pollOutgoingEndpointState_run :
    pollOutgoingEndpointState.run self =
      (orElseEvent (pollBindings self.outgoingLinks.keys)
        (orElseEvent pollControlResults pollMediaResults)).run self := rfl

/-- In a settled endpoint nothing is found before the links, and nothing changes. -/
theorem Settled.recvBeforeLinks (h : Settled self) (hidle : AttemptsIdle self) :
    recvBeforeLinks.run self = (.ok none, self) := by
  have hflush : (TelephonyRnsEndpoint.flushOutgoingCleanup self).2 = self := by
    rw [h.flushed.flushOutgoingCleanup]
  rw [recvBeforeLinks_empty (by rw [hflush]; exact h.events), hflush, orElseEvent_of_none]
  · exact pollAttempts_of_unanswered hidle h.unanswered _
  · rw [pollOutgoingEndpointState_run,
      orElseEvent_of_none (pollBindings_of_attached h.attached _),
      orElseEvent_of_none (pollControlResults_of_waiting h.controls)]
    exact pollMediaResults_of_waiting h.media

end TelephonyRnsEndpoint

end Lxst.Telephony
