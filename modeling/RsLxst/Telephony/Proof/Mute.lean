import RsLxst.Telephony.Proof.Steady

/-!
# What tells nothing of outgoing calls

`Mute s s'`: between `s` and `s'` no event that an outgoing call pends or is resolved was emitted,
and the pending discovery is the same. There is one lemma for each program that handles streams or
media; most handlers are covered by `Mute.steady`. `Call`, `Hangup` and the report of a discovery
are not mute.
-/

set_option autoImplicit false

namespace Lxst.Telephony

open Program

variable {rns : Rns} {audio : Audio}

/-! ## Marks -/

/-- What an event says of an outgoing call. -/
inductive OutgoingMark
  | pending
  | resolved
  deriving DecidableEq

def TelephonyServiceEvent.mark : TelephonyServiceEvent audio → Option OutgoingMark
  | .outgoingCallPending _ => some .pending
  | .outgoingCallStarted .. | .outgoingCallFailed .. => some .resolved
  | _ => none

def marks (events : List (TelephonyServiceEvent audio)) : List OutgoingMark :=
  events.filterMap (·.mark)

@[simp] theorem marks_nil : marks ([] : List (TelephonyServiceEvent audio)) = [] := rfl

@[simp] theorem marks_append (events more : List (TelephonyServiceEvent audio)) :
    marks (events ++ more) = marks events ++ marks more := List.filterMap_append

theorem TelephonyServiceEvent.published_mark (event : TelephonyServiceEvent audio) :
    event.published.mark = event.mark := by
  cases event <;> simp only [published] <;> first | rfl | (split <;> rfl)

theorem marks_serviceEvents (audio : Audio) (commands : List TelephonyCommand) :
    marks (serviceEventsFromCommands commands : List (TelephonyServiceEvent audio)) = [] := by
  unfold marks serviceEventsFromCommands
  rw [List.filterMap_filterMap, List.filterMap_eq_nil_iff]
  intro command _
  cases command <;> rfl

theorem marks_mediaReceived (audio : Audio) (step : TelephonyStep) :
    marks (mediaReceivedEvent step : Option (TelephonyServiceEvent audio)).toList = [] := by
  obtain hnone | ⟨linkId, frames, hsome⟩ := mediaReceivedEvent_cases audio step
  · rw [hnone]
    rfl
  · rw [hsome]
    rfl

theorem marks_ofOption {α : Type} {event : α → TelephonyServiceEvent audio}
    (h : ∀ a, (event a).mark = none) (a : Option α) : marks (a.map event).toList = [] := by
  cases a with
  | none => rfl
  | some a => simp [marks, h]

theorem clearUnlessEstablished_marks (media : TelephonyServiceMedia audio)
    (active : Option ActiveCallSnapshot) : marks (media.clearUnlessEstablished active).1 = [] := by
  unfold TelephonyServiceMedia.clearUnlessEstablished
  split <;>
  · rw [marks_append, marks_ofOption (fun _ => rfl), marks_ofOption (fun _ => rfl)]
    rfl

namespace TelephonyService

variable {s s' s'' : TelephonyService rns audio}

/-! ## Mute programs -/

/-- The marks of the events emitted between `s` and `s'`. -/
def Marked (said : List OutgoingMark) (s s' : TelephonyService rns audio) : Prop :=
  ∃ new, s'.events = s.events ++ new ∧ marks new = said

structure Mute (s s' : TelephonyService rns audio) : Prop where
  discovery : s'.outgoingDiscovery = s.outgoingDiscovery
  marked : Marked [] s s'

theorem Marked.of_events (h : s'.events = s.events) : Marked [] s s' :=
  ⟨[], by rw [h, List.append_nil], rfl⟩

theorem Marked.trans {said more : List OutgoingMark} (h : Marked said s s')
    (h' : Marked more s' s'') : Marked (said ++ more) s s'' := by
  obtain ⟨new, hnew, rfl⟩ := h
  obtain ⟨new', hnew', rfl⟩ := h'
  exact ⟨new ++ new', by rw [hnew', hnew, List.append_assoc], marks_append new new'⟩

theorem Mute.refl (s : TelephonyService rns audio) : Mute s s := ⟨rfl, .of_events rfl⟩

theorem Mute.trans (h : Mute s s') (h' : Mute s' s'') : Mute s s'' :=
  ⟨h'.discovery.trans h.discovery, h.marked.trans h'.marked⟩

/-- What neither emits nor touches the discovery. -/
theorem Mute.keep (h : Mute s s') (hdiscovery : s''.outgoingDiscovery = s'.outgoingDiscovery)
    (hevents : s''.events = s'.events) : Mute s s'' :=
  h.trans ⟨hdiscovery, .of_events hevents⟩

/-- An event is sent, or nothing happens. -/
theorem emitServiceEvent_marked (event : TelephonyServiceEvent audio)
    (s : TelephonyService rns audio) :
    wp (emitServiceEvent event) (fun sent s' => s'.outgoingDiscovery = s.outgoingDiscovery ∧
      if sent then Marked event.mark.toList s s' else s' = s) s := by
  have hmark : marks [event.published] = event.mark.toList := by
    cases hmark : event.mark <;> simp [marks, event.published_mark, hmark]
  unfold wp emitServiceEvent
  rcases s.eventsLeft with _ | _ | left
  · exact ⟨rfl, [event.published], rfl, hmark⟩
  · exact ⟨rfl, rfl⟩
  · exact ⟨rfl, [event.published], rfl, hmark⟩

theorem Mute.emit (h : Mute s s') {event : TelephonyServiceEvent audio}
    (hmark : event.mark = none) : wp (emitServiceEvent event) (fun _ => Mute s) s' := by
  refine wp_mono (emitServiceEvent_marked event s') fun sent s₁ h₁ => ?_
  rw [hmark] at h₁
  cases sent with
  | true => exact h.trans ⟨h₁.1, h₁.2⟩
  | false =>
    cases h₁.2
    exact h

theorem Mute.emits (h : Mute s s') {events : List (TelephonyServiceEvent audio)}
    (hmarks : marks events = []) : wp (emitServiceEvents events) (fun _ => Mute s) s' := by
  induction events generalizing s' with
  | nil => exact h
  | cons event events ih =>
    obtain ⟨hmark, hrest⟩ := List.forall_mem_cons.mp (List.filterMap_eq_nil_iff.mp hmarks)
    have hrest : marks events = [] := List.filterMap_eq_nil_iff.mpr hrest
    unfold emitServiceEvents
    rw [wp_bind]
    refine wp_mono (h.emit hmark) fun sent s₁ h₁ => ?_
    cases sent with
    | true => exact ih h₁ hrest
    | false => exact h₁

theorem Mute.error (h : Mute s s') (error : Error) :
    wp (emitServiceError error) (fun _ => Mute s) s' := h.emit rfl

theorem Mute.onEndpoint (h : Mute s s') (endpoint : TelephonyRnsEndpoint rns) :
    Mute s { s' with endpoint } := h.keep rfl rfl

theorem Mute.media (h : Mute s s') (media : TelephonyServiceMedia audio) :
    Mute s { s' with media } := h.keep rfl rfl

/-- A mute program, and then one of two mute programs. -/
theorem Mute.ifSent {α : Type} {p : ServiceM rns audio Bool} {q r : ServiceM rns audio α}
    (hp : wp p (fun _ => Mute s) s')
    (hq : ∀ s'', Mute s s'' → wp q (fun _ => Mute s) s'')
    (hr : ∀ s'', Mute s s'' → wp r (fun _ => Mute s) s'') :
    wp (do if ← p then q else r) (fun _ => Mute s) s' := by
  rw [wp_bind]
  refine wp_mono hp fun sent s₁ h₁ => ?_
  cases sent with
  | true => exact hq s₁ h₁
  | false => exact hr s₁ h₁

/-! ## Publishing -/

theorem refreshAndEmit_mute (now : Instant) (h : Mute s s') :
    wp (refreshAndEmit now) (fun _ => Mute s) s' := by
  have hrefreshed : Mute s (refreshed now s') := h.keep rfl rfl
  exact hrefreshed.emits (clearUnlessEstablished_marks s'.media s'.core.snapshot.activeCall)

theorem refreshThen_mute {q : ServiceM rns audio Bool} (now : Instant) (h : Mute s s')
    (hq : ∀ s'', Mute s s'' → wp q (fun _ => Mute s) s'') :
    wp (do if ← refreshAndEmit now then q else pure false) (fun _ => Mute s) s' :=
  .ifSent (refreshAndEmit_mute now h) hq fun _ h₁ => h₁

theorem emitSnapshot_mute (h : Mute s s') : wp emitSnapshot (fun _ => Mute s) s' := h.emit rfl

theorem publishCommands_mute (commands : List TelephonyCommand)
    (effects : List TelephonyCommandEffect) (now : Instant) (h : Mute s s') :
    wp (publishCommands commands effects now) (fun _ => Mute s) s' := by
  have hrefreshed : Mute s (refreshed now s') := h.keep rfl rfl
  unfold publishCommands
  rw [wp_bind]
  refine .ifSent (hrefreshed.emit rfl) (fun s₁ h₁ => ?_) fun _ h₁ => h₁
  refine .ifSent (h₁.emits (marks_serviceEvents audio commands)) (fun s₂ h₂ => ?_) fun _ h₂ => h₂
  refine .ifSent (h₂.emits ?_) (fun s₃ h₃ => ?_) fun _ h₃ => h₃
  · exact clearUnlessEstablished_marks s'.media s'.core.snapshot.activeCall
  · exact .ifSent (emitSnapshot_mute h₃) (fun _ h₄ => h₄) fun _ h₄ => h₄

theorem Mute.steady (s : TelephonyService rns audio) : Steady (Mute s) where
  keep h _ hevents _ hdiscovery := h.keep hdiscovery hevents
  emit {_ event} h hroutine := h.emit (by cases event <;> first | rfl | cases hroutine)
  publish commands effects now h := publishCommands_mute commands effects now h
  refresh now h := refreshAndEmit_mute now h

/-! ## Streams and media -/

theorem stopOpusStream_mute (reason : OpusTransmitStreamStopReason) (h : Mute s s') :
    wp (stopOpusStream reason) (fun _ => Mute s) s' := by
  unfold stopOpusStream
  rw [wp_bind, wp_get]
  split
  · exact h
  · rw [wp_bind, wp_set]
    exact (h.media _).emit rfl

theorem stopOpusReceiveStream_mute (reason : OpusReceiveStreamStopReason) (h : Mute s s') :
    wp (stopOpusReceiveStream reason) (fun _ => Mute s) s' := by
  unfold stopOpusReceiveStream
  rw [wp_bind, wp_get]
  split
  · exact h
  · rw [wp_bind, wp_set]
    exact (h.media _).emit rfl

theorem startOpusReceiveStream_mute (framesTx : BoundedQueue audio.Pcm) (h : Mute s s') :
    wp (startOpusReceiveStream framesTx) (fun _ => Mute s) s' := by
  unfold startOpusReceiveStream
  rw [wp_bind, wp_get]
  split
  · exact h
  · rw [wp_bind]
    refine wp_mono (stopOpusReceiveStream_mute _ h) fun _ s₁ h₁ => ?_
    rw [wp_bind, wp_modify, wp_bind]
    exact wp_mono ((h₁.media _).emit rfl) fun _ _ h₂ => h₂

theorem startOpusStream_mute (profile : Profile) (framesRx : Mailbox audio.Pcm) (h : Mute s s') :
    wp (startOpusStream profile framesRx) (fun _ => Mute s) s' := by
  unfold startOpusStream
  rw [wp_bind, wp_get]
  split
  · exact h
  · rw [wp_bind]
    refine wp_mono (stopOpusStream_mute _ h) fun _ s₁ h₁ => ?_
    rw [wp_bind, wp_modify, wp_bind]
    exact wp_mono ((h₁.media _).emit rfl) fun _ _ h₂ => h₂

theorem startAudioStream_mute (linkId : LinkId) (gate : Option AudioTransmitGate)
    (profile : Profile) (framesRx : Mailbox audio.Pcm) (h : Mute s s') :
    wp (startAudioStream linkId gate profile framesRx) (fun _ => Mute s) s' := by
  unfold startAudioStream
  rw [wp_bind, wp_get]
  split
  · rw [wp_bind]
    refine wp_mono (startOpusStream_mute profile framesRx h) fun result s₁ h₁ => ?_
    dsimp only
    split
    · exact h₁.media _
    · exact h₁
  · exact h

theorem emitMediaSent_mute (linkId : LinkId) (frames : Nat) (queued : Except Error Nat)
    (h : Mute s s') : wp (emitMediaSent linkId frames queued) (fun _ => Mute s) s' := by
  cases queued with
  | error error => exact h
  | ok packets => exact h.emit rfl

theorem sendRawFrames_mute (bitDepth : RawBitDepth) (frames : List audio.Pcm) (h : Mute s s') :
    wp (sendRawFrames bitDepth frames) (fun _ => Mute s) s' := by
  unfold sendRawFrames
  rw [wp_bind, wp_get]
  split
  · exact h
  · rw [wp_bind, wp_onEndpoint]
    exact emitMediaSent_mute _ _ _ (h.onEndpoint _)

theorem gateAllows_mute (now : Instant) (h : Mute s s') :
    wp (gateAllows now) (fun _ => Mute s) s' := by
  unfold gateAllows
  rw [wp_bind, wp_get]
  split
  · split
    · exact h.media _
    · exact h
  · exact h

theorem sendOpusFrames_mute (profile : Profile) (frames : List audio.Pcm) (now : Instant)
    (h : Mute s s') : wp (sendOpusFrames profile frames now) (fun _ => Mute s) s' := by
  unfold sendOpusFrames
  rw [wp_bind, wp_get]
  split
  · exact h
  split
  · exact h
  · rw [wp_bind, wp_set]
    split
    · exact h.media _
    · refine .ifSent (gateAllows_mute now (h.media _)) (fun s₁ h₁ => ?_) fun _ h₁ => h₁
      rw [wp_bind, wp_onEndpoint]
      exact emitMediaSent_mute _ _ _ (h₁.onEndpoint _)

theorem drainOpusStreamFrames_mute (now : Instant) (h : Mute s s') :
    wp (drainOpusStreamFrames now) (fun _ => Mute s) s' := by
  unfold drainOpusStreamFrames
  rw [wp_bind, wp_get]
  split
  · exact h
  · rw [wp_bind, wp_set]
    split <;> exact h.media _

theorem pumpOpusStream_mute (now : Instant) (h : Mute s s') :
    wp (pumpOpusStream now) (fun _ => Mute s) s' := by
  unfold pumpOpusStream
  rw [wp_bind]
  refine wp_mono (drainOpusStreamFrames_mute now h) fun drained s₁ h₁ => ?_
  split
  · exact h₁
  · rename_i profile frames sourceClosed
    have hstop (s₂ : TelephonyService rns audio) (h₂ : Mute s s₂) :
        wp (if sourceClosed then stopOpusStream .sourceClosed else pure true)
          (fun _ => Mute s) s₂ := by
      split
      · exact stopOpusStream_mute _ h₂
      · exact h₂
    dsimp only
    split
    · exact hstop s₁ h₁
    · rw [wp_bind]
      refine wp_mono (sendOpusFrames_mute profile frames now h₁) fun sent s₂ h₂ => ?_
      split
      · rw [wp_bind, wp_modify]
        exact (h₂.media _).error _
      · exact hstop s₂ h₂

/-! ## Link events -/

theorem deliverOpusReceiveStream_mute (linkId : LinkId) (profile : Profile)
    (frames : List audio.Pcm) (h : Mute s s') :
    wp (deliverOpusReceiveStream linkId profile frames)
      (fun events s'' => Mute s s'' ∧ marks events = []) s' := by
  unfold deliverOpusReceiveStream
  rw [wp_bind, wp_get]
  split
  · exact ⟨h, rfl⟩
  split
  · exact ⟨h.media _, rfl⟩
  · rw [wp_bind, wp_set, wp_pure, marks_append]
    exact ⟨h.media _, by split <;> split <;> rfl⟩

theorem opusReceivedEvents_mute (step : TelephonyStep) (h : Mute s s') :
    wp (opusReceivedEvents step)
      (fun result s'' => Mute s s'' ∧ ∀ events, result = .ok events → marks events = []) s' := by
  unfold opusReceivedEvents
  have hnone : ∀ events, (.ok [] : Except Error (List (TelephonyServiceEvent audio))) = .ok events →
      marks events = [] := by
    rintro _ ⟨⟩
    rfl
  rw [wp_bind, wp_get]
  split
  · exact ⟨h, hnone⟩
  dsimp only
  split
  · exact ⟨h, hnone⟩
  split
  · exact ⟨h, nofun⟩
  split
  · exact ⟨h, nofun⟩
  split
  · exact ⟨h, hnone⟩
  split
  · exact ⟨h, nofun⟩
  rw [wp_bind, wp_set]
  split
  · exact ⟨h.media _, nofun⟩
  · rw [wp_bind]
    refine wp_mono (deliverOpusReceiveStream_mute _ _ _ (h.media _)) fun events s₁ h₁ => ?_
    refine ⟨h₁.1, ?_⟩
    rintro _ ⟨⟩
    exact h₁.2

theorem stepMediaEvents_mute (step : TelephonyStep) (h : Mute s s') :
    wp (stepMediaEvents step) (fun events s'' => Mute s s'' ∧ ∀ sent ∈ events, marks sent = [])
      s' := by
  unfold stepMediaEvents
  rw [wp_bind]
  refine wp_mono (opusReceivedEvents_mute step h) fun result s₁ h₁ => ?_
  cases result with
  | ok events => exact ⟨h₁.1, by rintro _ ⟨⟩; exact h₁.2 events rfl⟩
  | error error =>
    dsimp only
    rw [wp_bind]
    refine wp_mono (h₁.1.error error) fun sent s₂ h₂ => ?_
    cases sent with
    | true => exact ⟨h₂, by rintro _ ⟨⟩; rfl⟩
    | false => exact ⟨h₂, nofun⟩

theorem publishDriveStep_mute (step : TelephonyRnsEndpoint.TelephonyDriveStep) (h : Mute s s') :
    wp (publishDriveStep step) (fun _ => Mute s) s' := by
  unfold publishDriveStep
  rw [wp_bind]
  refine wp_mono (stepMediaEvents_mute step.step h) fun events s₁ ⟨h₁, hevents⟩ => ?_
  cases events with
  | none => exact h₁
  | some events =>
    refine .ifSent (h₁.emit rfl) (fun s₂ h₂ => ?_) fun _ h₂ => h₂
    refine .ifSent (h₂.emits (marks_serviceEvents audio _)) (fun s₃ h₃ => ?_) fun _ h₃ => h₃
    refine .ifSent (h₃.emits (marks_mediaReceived audio _)) (fun s₄ h₄ => ?_) fun _ h₄ => h₄
    exact h₄.emits (hevents events rfl)

theorem publishDriveSteps_mute (steps : List TelephonyRnsEndpoint.TelephonyDriveStep)
    (h : Mute s s') : wp (publishDriveSteps steps) (fun _ => Mute s) s' := by
  induction steps generalizing s' with
  | nil => exact h
  | cons step steps ih =>
    exact .ifSent (publishDriveStep_mute step h) (fun _ h₁ => ih h₁) fun _ h₁ => h₁

theorem publishDriven_mute (result : Except Error (List TelephonyRnsEndpoint.TelephonyDriveStep))
    (now : Instant) (h : Mute s s') : wp (publishDriven result now) (fun _ => Mute s) s' := by
  unfold publishDriven
  cases result with
  | error error => exact h.error error
  | ok steps =>
    dsimp only
    refine .ifSent (publishDriveSteps_mute steps h) (fun s₁ h₁ => ?_) fun _ h₁ => h₁
    split
    · exact h₁
    · exact refreshThen_mute now h₁ fun _ h₂ => emitSnapshot_mute h₂

/-! ## Handlers -/

/-- The controls that neither begin nor cancel a discovery. -/
def keepsDiscovery : TelephonyControl audio → Bool
  | .call .. | .hangup _ => false
  | _ => true

theorem handleControl_mute {control : TelephonyControl audio} (hkeeps : keepsDiscovery control)
    (now : Instant) (entropy : Nat) (h : Mute s s') :
    wp (handleControl control now entropy) (fun _ => Mute s) s' := by
  have hreport {p : ServiceM rns audio (Except Error Unit)} (hp : wp p (fun _ => Mute s) s') :
      wp (do reportError (← p)) (fun _ => Mute s) s' := by
    rw [wp_bind]
    exact wp_mono hp fun result _ h₁ => reportError_steady (Mute.steady s) result h₁
  cases control with
  | announce => exact handleAnnounce_steady (Mute.steady s) now entropy h
  | answer linkId => exact handleAnswer_steady (Mute.steady s) linkId now h
  | sendRawFrames bitDepth frames => exact hreport (sendRawFrames_mute bitDepth frames h)
  | sendAudioFrames profile frames => exact hreport (sendOpusFrames_mute profile frames now h)
  | sendOpusFrames profile frames => exact hreport (sendOpusFrames_mute profile frames now h)
  | startAudioStream linkId gate profile frames =>
    exact hreport (startAudioStream_mute linkId gate profile frames h)
  | startOpusStream profile frames => exact hreport (startOpusStream_mute profile frames h)
  | stopAudioStream | stopOpusStream => exact stopOpusStream_mute _ h
  | startAudioReceiveStream frames | startOpusReceiveStream frames =>
    exact hreport (startOpusReceiveStream_mute frames h)
  | stopAudioReceiveStream | stopOpusReceiveStream => exact stopOpusReceiveStream_mute _ h
  | switchProfile profile => exact handleSwitchProfile_steady (Mute.steady s) profile now h
  | setExternalBusy busy => exact handleSetExternalBusy_steady (Mute.steady s) busy now h
  | setAccessPolicy access => exact h.keep rfl rfl
  | shutdown => exact h
  | call | hangup => cases hkeeps

/-- The end of the loop drops the discovery and tells nothing of it. -/
theorem stop_marked (now : Instant) (s : TelephonyService rns audio) :
    wp (stop now) (fun _ => Marked [] s) s := by
  have hclear {s₁ : TelephonyService rns audio} (h : Marked [] s s₁) :
      wp (emitServiceEvents (s₁.media.clearUnlessEstablished none).1) (fun _ => Marked [] s)
        { s₁ with media := (s₁.media.clearUnlessEstablished none).2 } :=
    wp_mono ((Mute.refl _).emits (clearUnlessEstablished_marks _ _)) fun _ _ h' => h.trans h'.marked
  have hshutdown : wp (shutdown now) (fun _ => Marked [] s) s := by
    unfold shutdown
    rw [wp_bind, wp_modify, wp_bind, wp_get]
    dsimp only
    rw [wp_bind, wp_set]
    split
    · rw [wp_bind]
      refine wp_mono (controlCommands_steady (Mute.steady _) _ now (.refl _)) fun _ s₁ h₁ => ?_
      rw [wp_bind, wp_get, wp_bind, wp_set, wp_bind]
      have hmarked : Marked [] s s₁ := h₁.marked
      exact wp_mono (hclear hmarked) fun _ _ h₂ => h₂
    · rw [wp_bind, wp_get, wp_bind, wp_set, wp_bind]
      exact wp_mono (hclear (.of_events rfl)) fun _ _ h₂ => h₂
  unfold stop
  rw [wp_bind]
  refine wp_mono hshutdown fun _ s₁ h₁ => ?_
  unfold deregisterDestinations
  rw [wp_bind, wp_bind, wp_get]
  refine wp_mono (onEndpointAll_steady (Mute.steady s₁) _ (.refl s₁)) fun _ s₂ h₂ => ?_
  rw [wp_bind]
  exact wp_mono (h₂.emit rfl) fun _ _ h₃ => h₁.trans h₃.marked

end TelephonyService

end Lxst.Telephony
