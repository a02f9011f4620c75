import RsLxst.Lib.Machine
import RsLxst.Telephony.Proof.Load

/-!
# Results that failed

A poll takes up every control result that has arrived, then every media result, but it closes and
reports only the link whose result was the first to fail. What other failed results said is lost:
a run reports every link of which a poll drops a failed result exactly if no poll takes up failed
results of two links (`failures_reported_iff`).
-/

set_option autoImplicit false

namespace Lxst.Telephony

open Program AList

namespace TelephonyRnsEndpoint

variable {rns : Rns} (self : TelephonyRnsEndpoint rns)

/-- The links of the control results that failed, in the order of the results. -/
def failedControls : List LinkId :=
  (self.pendingControlResults.filter (controlFailed ·.resultRx)).map (·.linkId)

def failedMedia : List LinkId :=
  (self.pendingMediaResults.filter (mediaFailed ·.resultRx)).map (·.linkId)

/-- A failed result of the link is no longer pending. -/
def Drops (before after : TelephonyRnsEndpoint rns) (linkId : LinkId) : Prop :=
  after.failedControls.count linkId < before.failedControls.count linkId ∨
    after.failedMedia.count linkId < before.failedMedia.count linkId

/-- The poll calls `close_link_owner` for the link and returns its end. -/
def Reports (linkId : LinkId) : Prop :=
  (pollOutgoingEndpointState.run self).1 = .ok (some (.linkClosed linkId)) ∧
    ∃ role middle, middle.transport = self.transport ∧
      middle.outgoingAttempts = self.outgoingAttempts ∧
      (pollOutgoingEndpointState.run self).2 = (closeLinkOwner linkId role middle).2

/-- The binding of an outgoing link has ended. -/
def endsBinding : Bool :=
  self.outgoingLinks.keys.any fun linkId => (self.bindingOf linkId).any bindingEnds

/-- The failed results that a poll takes up, if no binding has ended. -/
def nextFailures : List LinkId :=
  if self.failedControls = [] then self.failedMedia else self.failedControls

/-- A poll that takes up failed results takes up those of one link. -/
def OneLinkFails : Prop :=
  self.endsBinding = true ∨ ∀ linkId ∈ self.nextFailures, self.nextFailures.head? = some linkId

/-! ## Closing a link -/

theorem closeOutgoingLinkLocally_pending (closed : LinkId) :
    (closeOutgoingLinkLocally closed self).2.pendingControlResults =
        self.pendingControlResults.filter (·.linkId ≠ closed) ∧
      (closeOutgoingLinkLocally closed self).2.pendingMediaResults =
        self.pendingMediaResults.filter (·.linkId ≠ closed) := by
  obtain ⟨transport, cleanup, hframe⟩ := self.finishOutgoingLinkLocally_frame closed true
  rw [closeOutgoingLinkLocally, hframe]
  exact ⟨rfl, rfl⟩

/-- Closing a link leaves the failed results of the other links. -/
theorem closeLinkOwner_failures (closed : LinkId) (role : LinkEndpointRole) :
    ∃ keep : LinkId → Bool, (∀ linkId, linkId ≠ closed → keep linkId = true) ∧
      (closeLinkOwner closed role self).2.failedControls = self.failedControls.filter keep ∧
      (closeLinkOwner closed role self).2.failedMedia = self.failedMedia.filter keep := by
  cases role with
  | initiator =>
    obtain ⟨hcontrols, hmedia⟩ := self.closeOutgoingLinkLocally_pending closed
    refine ⟨fun linkId => linkId ≠ closed, by simp, ?_, ?_⟩
    · show ((closeOutgoingLinkLocally closed self).2.pendingControlResults.filter _).map _ = _
      rw [hcontrols, List.filter_comm, failedControls, List.filter_map]
      rfl
    · show ((closeOutgoingLinkLocally closed self).2.pendingMediaResults.filter _).map _ = _
      rw [hmedia, List.filter_comm, failedMedia, List.filter_map]
      rfl
  | responder => exact ⟨fun _ => true, fun _ _ => rfl, by simp; rfl, by simp; rfl⟩

variable {self} {middle : TelephonyRnsEndpoint rns} {closed : LinkId} {role : LinkEndpointRole}

theorem Drops.of_close_ne {linkId : LinkId} (hne : linkId ≠ closed)
    (h : Drops self (closeLinkOwner closed role middle).2 linkId) : Drops self middle linkId := by
  obtain ⟨keep, hkeep, hcontrols, hmedia⟩ := middle.closeLinkOwner_failures closed role
  rwa [Drops, hcontrols, hmedia, List.count_filter (hkeep linkId hne),
    List.count_filter (hkeep linkId hne)] at h

theorem Drops.close {linkId : LinkId} (h : Drops self middle linkId) :
    Drops self (closeLinkOwner closed role middle).2 linkId := by
  obtain ⟨keep, -, hcontrols, hmedia⟩ := middle.closeLinkOwner_failures closed role
  have hcontrols' : (middle.failedControls.filter keep).count linkId ≤
      middle.failedControls.count linkId := List.filter_sublist.count_le linkId
  have hmedia' : (middle.failedMedia.filter keep).count linkId ≤
      middle.failedMedia.count linkId := List.filter_sublist.count_le linkId
  rw [Drops, hcontrols, hmedia]
  exact h.imp (Nat.lt_of_le_of_lt hcontrols') (Nat.lt_of_le_of_lt hmedia')

/-! ## One poll -/

/-- The poll takes up the failed results of these links, then closes a link and reports it. -/
structure ClosesAfter (before middle : TelephonyRnsEndpoint rns) (closed : LinkId)
    (role : LinkEndpointRole) (taken : List LinkId) : Prop where
  transport : middle.transport = before.transport
  attempts : middle.outgoingAttempts = before.outgoingAttempts
  drops (linkId : LinkId) : Drops before middle linkId ↔ linkId ∈ taken
  polled : pollOutgoingEndpointState.run before =
    (.ok (some (.linkClosed closed)), (closeLinkOwner closed role middle).2)

/-- Every link of which the poll drops a failed result is reported by it. -/
def ReportsDropped (self : TelephonyRnsEndpoint rns) : Prop :=
  ∀ linkId, Drops self (pollOutgoingEndpointState.run self).2 linkId → Reports self linkId

theorem ClosesAfter.reportsDropped_iff {taken : List LinkId}
    (h : ClosesAfter self middle closed role taken) :
    ReportsDropped self ↔ ∀ linkId ∈ taken, linkId = closed := by
  constructor
  · intro hreported linkId htaken
    have hdrops : Drops self (pollOutgoingEndpointState.run self).2 linkId := by
      rw [h.polled]
      exact ((h.drops linkId).2 htaken).close
    have hreport := (hreported linkId hdrops).1
    rw [h.polled] at hreport
    cases hreport
    rfl
  · intro hone linkId hdrops
    rw [h.polled] at hdrops
    have hclosed : linkId = closed := by
      by_contra hne
      exact hne (hone linkId ((h.drops linkId).1 (hdrops.of_close_ne hne)))
    subst hclosed
    refine ⟨?_, role, middle, h.transport, h.attempts, ?_⟩
    · rw [h.polled]
    · rw [h.polled]

/-! ## Bindings -/

/-- Polling a binding that has not ended ends none. -/
theorem any_bindingEnds_amend {first : LinkId}
    (h : (self.bindingOf first).any bindingEnds = false) (linkId : LinkId) :
    ((self.amendLink first polledState).bindingOf linkId).any bindingEnds =
      (self.bindingOf linkId).any bindingEnds := by
  rw [bindingOf_polled]
  split
  · rename_i hfirst
    subst hfirst
    rw [h]
    cases hendpoint : self.bindingOf linkId with
    | none => rfl
    | some endpoint =>
      rw [hendpoint] at h
      exact (polledBinding_settles h).2
  · rfl

theorem pollBindings_ends {linkIds : List LinkId}
    (h : (linkIds.any fun linkId => (self.bindingOf linkId).any bindingEnds) = true) :
    ∃ closed outgoingLinks, (pollBindings linkIds).run self =
      (outgoingClosed closed).run { self with outgoingLinks } := by
  induction linkIds generalizing self with
  | nil => cases h
  | cons first rest ih =>
    rw [pollBindings_cons]
    split
    · exact ⟨first, _, rfl⟩
    · rename_i hfirst
      replace hfirst : (self.bindingOf first).any bindingEnds = false := by
        simpa [bindingOf] using hfirst
      rw [List.any_cons, hfirst, Bool.false_or] at h
      simp only [← any_bindingEnds_amend hfirst] at h
      obtain ⟨closed, outgoingLinks, hrun⟩ := ih h
      exact ⟨closed, outgoingLinks, hrun⟩

theorem pollBindings_stay {linkIds : List LinkId}
    (h : (linkIds.any fun linkId => (self.bindingOf linkId).any bindingEnds) = false) :
    ∃ outgoingLinks, (pollBindings linkIds).run self =
      (.ok none, { self with outgoingLinks }) := by
  induction linkIds generalizing self with
  | nil => exact ⟨_, rfl⟩
  | cons first rest ih =>
    rw [List.any_cons, Bool.or_eq_false_iff] at h
    obtain ⟨hfirst, hrest⟩ := h
    rw [pollBindings_cons, ← bindingOf, hfirst, if_neg Bool.false_ne_true]
    simp only [← any_bindingEnds_amend hfirst] at hrest
    obtain ⟨outgoingLinks, hrun⟩ := ih hrest
    exact ⟨outgoingLinks, hrun⟩

/-! ## Results that are taken up -/

theorem takeControls_failedControls : self.takeControls.failedControls = [] := by
  have hnone : (self.pendingControlResults.filter (isWaiting ·.resultRx)).filter
      (controlFailed ·.resultRx) = [] := by
    rw [List.filter_eq_nil_iff]
    intro pending hpending
    have hwaiting := (List.mem_filter.1 hpending).2
    simp [controlFailed, hwaiting]
  show List.map _ ((self.pendingControlResults.filter (isWaiting ·.resultRx)).filter
    (controlFailed ·.resultRx)) = _
  rw [hnone, List.map_nil]

theorem takeMedia_failedMedia : self.takeMedia.failedMedia = [] := by
  have hnone : (self.pendingMediaResults.filter (isWaiting ·.resultRx)).filter
      (mediaFailed ·.resultRx) = [] := by
    rw [List.filter_eq_nil_iff]
    intro pending hpending
    have hwaiting := (List.mem_filter.1 hpending).2
    simp [mediaFailed, controlFailed, hwaiting]
  show List.map _ (self.takeMedia.pendingMediaResults.filter (mediaFailed ·.resultRx)) = _
  rw [self.takeMedia_counted.media]
  show List.map _ ((self.pendingMediaResults.filter (isWaiting ·.resultRx)).filter
    (mediaFailed ·.resultRx)) = _
  rw [hnone, List.map_nil]

/-! ## The cases of a poll -/

theorem failedControls_head : self.failedControls.head? =
    (self.pendingControlResults.find? (controlFailed ·.resultRx)).map (·.linkId) := by
  rw [failedControls, List.head?_map, List.head?_filter]

theorem failedMedia_head : self.failedMedia.head? =
    (self.pendingMediaResults.find? (mediaFailed ·.resultRx)).map (·.linkId) := by
  rw [failedMedia, List.head?_map, List.head?_filter]

theorem closesAfter_binding (h : self.endsBinding = true) :
    ∃ middle closed, ClosesAfter self middle closed .initiator [] := by
  obtain ⟨closed, outgoingLinks, hrun⟩ := pollBindings_ends h
  rw [outgoingClosed_run] at hrun
  refine ⟨{ self with outgoingLinks }, closed, rfl, rfl, fun linkId => ?_, ?_⟩
  · simp [Drops, failedControls, failedMedia]
  · rw [pollOutgoingEndpointState_run, orElseEvent_of_ne, hrun]
    · rfl
    · rw [hrun]
      simp

/-- Without an ended binding a poll comes to the results. -/
theorem pollOutgoingEndpointState_stay (h : self.endsBinding = false) :
    ∃ outgoingLinks, pollOutgoingEndpointState.run self =
      (orElseEvent pollControlResults pollMediaResults).run { self with outgoingLinks } := by
  obtain ⟨outgoingLinks, hrun⟩ := pollBindings_stay h
  exact ⟨outgoingLinks, by rw [pollOutgoingEndpointState_run, orElseEvent_of_none hrun]⟩

theorem closesAfter_control (h : self.endsBinding = false) {pending : PendingControlResult}
    (hfailed : self.pendingControlResults.find? (controlFailed ·.resultRx) = some pending) :
    ∃ middle, ClosesAfter self middle pending.linkId pending.role self.failedControls := by
  obtain ⟨outgoingLinks, hpoll⟩ := pollOutgoingEndpointState_stay h
  have hrun := pollControlResults_failed { self with outgoingLinks } hfailed
  refine ⟨takeControls { self with outgoingLinks }, rfl, rfl, fun linkId => ?_, ?_⟩
  · rw [Drops, takeControls_failedControls, List.count_nil, List.count_pos_iff]
    apply or_iff_left
    exact Nat.lt_irrefl _
  · rw [hpoll, orElseEvent_of_ne, hrun]
    rw [hrun]
    simp

theorem pollOutgoingEndpointState_media (h : self.endsBinding = false)
    (hnone : self.failedControls = []) :
    ∃ outgoingLinks, pollOutgoingEndpointState.run self =
      pollMediaResults.run (takeControls { self with outgoingLinks }) := by
  obtain ⟨outgoingLinks, hpoll⟩ := pollOutgoingEndpointState_stay h
  have hfind : self.pendingControlResults.find? (controlFailed ·.resultRx) = none := by
    have hhead := self.failedControls_head
    rw [hnone, List.head?_nil, eq_comm, Option.map_eq_none_iff] at hhead
    exact hhead
  have hrun := pollControlResults_none { self with outgoingLinks } hfind
  exact ⟨outgoingLinks, by rw [hpoll, orElseEvent_of_none hrun]⟩

theorem closesAfter_media (h : self.endsBinding = false) (hnone : self.failedControls = [])
    {pending : PendingMediaResult}
    (hfailed : self.pendingMediaResults.find? (mediaFailed ·.resultRx) = some pending) :
    ∃ middle, ClosesAfter self middle pending.linkId pending.role self.failedMedia := by
  obtain ⟨outgoingLinks, hpoll⟩ := pollOutgoingEndpointState_media h hnone
  generalize htaken : takeControls { self with outgoingLinks } = taken at hpoll
  have hrun := pollMediaResults_failed taken (by rw [← htaken]; exact hfailed)
  have hcounted := taken.takeMedia_counted
  refine ⟨taken.takeMedia, ?_, ?_, fun linkId => ?_, ?_⟩
  · rw [hcounted.transport, ← htaken]
    rfl
  · rw [hcounted.attempts, ← htaken]
    rfl
  · rw [Drops, takeMedia_failedMedia, hnone, List.count_nil, List.count_pos_iff]
    apply or_iff_right
    exact Nat.not_lt_zero _
  · rw [hpoll, hrun]

/-- Where no result has failed, none is dropped. -/
theorem reportsDropped_of_none (hcontrols : self.failedControls = [])
    (hmedia : self.failedMedia = []) : ReportsDropped self := by
  intro linkId hdrops
  rw [Drops, hcontrols, hmedia] at hdrops
  simp at hdrops

/-- The links of a poll are the link that it closes, if that is the first of them. -/
theorem ClosesAfter.reportsDropped_iff_head {taken : List LinkId}
    (h : ClosesAfter self middle closed role taken) (hhead : taken.head? = some closed) :
    ReportsDropped self ↔ ∀ linkId ∈ taken, taken.head? = some linkId := by
  simp only [h.reportsDropped_iff, hhead, Option.some.injEq, eq_comm]

/-- **A poll reports every link of which it drops a failed result** exactly if the failed results
that it takes up are of one link. -/
theorem reportsDropped_iff : ReportsDropped self ↔ OneLinkFails self := by
  rw [OneLinkFails]
  cases hends : self.endsBinding with
  | true =>
    obtain ⟨middle, closed, hcloses⟩ := closesAfter_binding hends
    simp [hcloses.reportsDropped_iff]
  | false =>
    simp only [Bool.false_eq_true, false_or]
    have hcontrol := self.failedControls_head
    have hmedia := self.failedMedia_head
    cases hfailed : self.pendingControlResults.find? (controlFailed ·.resultRx) with
    | some pending =>
      rw [hfailed, Option.map_some] at hcontrol
      have hnext : self.nextFailures = self.failedControls := by
        rw [nextFailures, if_neg]
        intro hnil
        rw [hnil] at hcontrol
        cases hcontrol
      obtain ⟨middle, hcloses⟩ := closesAfter_control hends hfailed
      rw [hnext]
      exact hcloses.reportsDropped_iff_head hcontrol
    | none =>
      rw [hfailed, Option.map_none, List.head?_eq_none_iff] at hcontrol
      have hnext : self.nextFailures = self.failedMedia := by rw [nextFailures, if_pos hcontrol]
      rw [hnext]
      cases hfailed' : self.pendingMediaResults.find? (mediaFailed ·.resultRx) with
      | some pending =>
        rw [hfailed', Option.map_some] at hmedia
        obtain ⟨middle, hcloses⟩ := closesAfter_media hends hcontrol hfailed'
        exact hcloses.reportsDropped_iff_head hmedia
      | none =>
        rw [hfailed', Option.map_none, List.head?_eq_none_iff] at hmedia
        simp [hmedia, reportsDropped_of_none hcontrol hmedia]

/-! ## Runs -/

/-- The endpoint before the `n`-th poll of a run. Between polls results arrive and other methods
run; `between` is what they make of the endpoint. -/
def pollRun (between : Nat → TelephonyRnsEndpoint rns → TelephonyRnsEndpoint rns)
    (start : TelephonyRnsEndpoint rns) : Nat → TelephonyRnsEndpoint rns
  | 0 => start
  | n + 1 => between n (pollOutgoingEndpointState.run (pollRun between start n)).2

/-- This poll or a later one reports the link, whatever happens between the polls: other failed
results of the link may go with the call before a poll takes them up. -/
def Reported (self : TelephonyRnsEndpoint rns) (linkId : LinkId) : Prop :=
  ∀ future, ∃ n, Reports (pollRun future self n) linkId

/-- An endpoint without links and pending results has nothing to report. -/
theorem not_reports_new {destinationHash : Hash} {manager : rns.Manager} {inbox : Inbox}
    {transport : TransportQueue} (linkId : LinkId) :
    ¬ Reports (new destinationHash manager inbox transport) linkId := by
  intro h
  cases h.1

theorem reported_iff {linkId : LinkId} : Reported self linkId ↔ Reports self linkId := by
  constructor
  · intro hreported
    obtain ⟨n, hreports⟩ := hreported fun _ after =>
      new after.destinationHash after.manager after.inbox after.transport
    cases n with
    | zero => exact hreports
    | succ n => exact absurd hreports (not_reports_new linkId)
  · intro hreports future
    exact ⟨0, hreports⟩

/-- **Every failed result that a poll of a run drops is reported by that or a later poll** exactly
if no poll of the run takes up failed results of two links. -/
theorem failures_reported_iff
    (between : Nat → TelephonyRnsEndpoint rns → TelephonyRnsEndpoint rns)
    (start : TelephonyRnsEndpoint rns) :
    (∀ n linkId, Drops (pollRun between start n)
        (pollOutgoingEndpointState.run (pollRun between start n)).2 linkId →
      Reported (pollRun between start n) linkId) ↔
      ∀ n, OneLinkFails (pollRun between start n) := by
  apply forall_congr'
  intro n
  rw [← reportsDropped_iff]
  simp only [reported_iff]
  rfl

/-- A call over an outgoing link while another caller's link is open; the channels of both links'
last sends have closed. -/
def bothFailed : TelephonyRnsEndpoint Rns.plain :=
  { TelephonyRnsEndpoint.new (.replicate 16 0) [.replicate 16 8] ⟨[], [], [], []⟩
      ⟨[], 8, false⟩ with
    outgoingLinks := AList.insert (.replicate 16 7)
      { link := (.replicate 16 7 : Vector UInt8 16), eventRx := ⟨[], true⟩, endpoint := none } ∅
    pendingControlResults :=
      [⟨.replicate 16 7, .initiator, .closed⟩, ⟨.replicate 16 8, .responder, .closed⟩] }

/-- The first link is closed and reported, and nothing is ever said of the other. -/
theorem failures_reported_both :
    ¬ ∀ (rns : Rns) (between : Nat → TelephonyRnsEndpoint rns → TelephonyRnsEndpoint rns)
      (start : TelephonyRnsEndpoint rns) (n : Nat) (linkId : LinkId),
      Drops (pollRun between start n)
          (pollOutgoingEndpointState.run (pollRun between start n)).2 linkId →
        ∃ m, n ≤ m ∧ Reports (pollRun between start m) linkId := by
  intro hall
  have hdrops : Drops bothFailed (pollOutgoingEndpointState.run bothFailed).2
      (.replicate 16 8) := Or.inl (by decide)
  obtain ⟨m, -, hreports, -⟩ :=
    hall Rns.plain (fun _ self => self) bothFailed 0 (.replicate 16 8) hdrops
  have hrest (n : Nat) : pollRun (fun _ self => self) bothFailed (n + 1) =
      (pollOutgoingEndpointState.run bothFailed).2 := by
    induction n with
    | zero => rfl
    | succ n ih =>
      rw [pollRun, ih]
      rfl
  cases m with
  | zero => exact absurd hreports (by decide)
  | succ m =>
    rw [hrest] at hreports
    cases hreports

end TelephonyRnsEndpoint

end Lxst.Telephony
