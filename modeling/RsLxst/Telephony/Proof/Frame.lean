import RsLxst.Telephony.Proof.Runtime
import RsLxst.Telephony.Run

/-!
# What the parts of a handler leave unchanged

Emitting events, the endpoint's methods and the media streams neither touch the core nor the
timers. `Frame links s s'` says so of a program that takes `s` to `s'`, and that the terminations
among the events that it emits are of `links`, if the event channel is open; `Sends` adds that its
events were all sent. There is one lemma for each program, and the handlers' proofs cite it.
-/

set_option autoImplicit false

namespace Lxst.Telephony

open Program

variable {rns : Rns} {audio : Audio}

/-! ## Terminations -/

/-- The link whose termination the event reports. -/
def TelephonyServiceEvent.terminated : TelephonyServiceEvent audio → List LinkId
  | .callTerminated linkId _ => [linkId]
  | _ => []

def terminations (events : List (TelephonyServiceEvent audio)) : List LinkId :=
  events.flatMap (·.terminated)

@[simp] theorem terminations_nil :
    terminations ([] : List (TelephonyServiceEvent audio)) = [] := rfl

@[simp] theorem terminations_cons (event : TelephonyServiceEvent audio)
    (events : List (TelephonyServiceEvent audio)) :
    terminations (event :: events) = event.terminated ++ terminations events := rfl

@[simp] theorem terminations_append (events more : List (TelephonyServiceEvent audio)) :
    terminations (events ++ more) = terminations events ++ terminations more :=
  List.flatMap_append

theorem TelephonyServiceEvent.published_terminated (event : TelephonyServiceEvent audio) :
    event.published.terminated = event.terminated := by
  cases event <;> simp only [published] <;> first | rfl | (split <;> rfl)

theorem terminations_serviceEvents (audio : Audio) (commands : List TelephonyCommand) :
    terminations (serviceEventsFromCommands commands : List (TelephonyServiceEvent audio)) =
      terminatedBy commands := by
  induction commands with
  | nil => rfl
  | cons command commands ih =>
    cases command <;>
      simpa [serviceEventsFromCommands, terminatedBy, TelephonyServiceEvent.terminated] using ih

theorem mediaReceivedEvent_cases (audio : Audio) (step : TelephonyStep) :
    (mediaReceivedEvent step : Option (TelephonyServiceEvent audio)) = none ∨
      ∃ linkId frames, (mediaReceivedEvent step : Option (TelephonyServiceEvent audio)) =
        some (.mediaReceived linkId frames) := by
  unfold mediaReceivedEvent
  cases step.inbound with
  | none => exact .inl rfl
  | some inbound =>
    dsimp only [Option.bind_some]
    split
    · exact .inr ⟨_, _, rfl⟩
    · exact .inl rfl

namespace TelephonyService

/-! ## Frames -/

/-- The terminations among the events emitted between `s` and `s'` are of `links`. -/
def Tells (links : List LinkId) (s s' : TelephonyService rns audio) : Prop :=
  s.eventsLeft = none → s'.eventsLeft = none ∧
    ∃ new, s'.events = s.events ++ new ∧ terminations new = links

structure Frame (links : List LinkId) (s s' : TelephonyService rns audio) : Prop where
  core : s'.core = s.core
  config : s'.config = s.config
  activeTimeout : s'.activeTimeout = s.activeTimeout
  answering : s'.answering = s.answering
  tells : Tells links s s'

structure Sends (links : List LinkId) (s : TelephonyService rns audio) (sent : Bool)
    (s' : TelephonyService rns audio) : Prop extends Frame links s s' where
  all : s.eventsLeft = none → sent = true

variable {s s' s'' : TelephonyService rns audio} {a b : List LinkId}

theorem Tells.of_events (he : s'.events = s.events) (hl : s'.eventsLeft = s.eventsLeft) :
    Tells [] s s' := fun h => ⟨hl.trans h, [], by rw [he, List.append_nil], rfl⟩

theorem Tells.trans (h : Tells a s s') (h' : Tells b s' s'') : Tells (a ++ b) s s'' := by
  intro hopen
  obtain ⟨hopen', new, hnew, ha⟩ := h hopen
  obtain ⟨hopen'', more, hmore, hb⟩ := h' hopen'
  refine ⟨hopen'', new ++ more, ?_, ?_⟩
  · rw [hmore, hnew, List.append_assoc]
  · rw [terminations_append, ha, hb]

theorem Frame.refl (s : TelephonyService rns audio) : Frame [] s s :=
  ⟨rfl, rfl, rfl, rfl, .of_events rfl rfl⟩

theorem Frame.trans (h : Frame a s s') (h' : Frame b s' s'') : Frame (a ++ b) s s'' :=
  ⟨h'.core.trans h.core, h'.config.trans h.config, h'.activeTimeout.trans h.activeTimeout,
    h'.answering.trans h.answering, h.tells.trans h'.tells⟩

/-- A program that reports nothing, followed by another. -/
theorem Frame.then (h : Frame [] s s') (h' : Frame b s' s'') : Frame b s s'' := h.trans h'

theorem Frame.quiet (h : Frame a s s') (h' : Frame [] s' s'') : Frame a s s'' :=
  List.append_nil a ▸ h.trans h'

theorem Frame.media (s : TelephonyService rns audio) (media : TelephonyServiceMedia audio) :
    Frame [] s { s with media } := ⟨rfl, rfl, rfl, rfl, .of_events rfl rfl⟩

theorem Frame.endpoint (s : TelephonyService rns audio) (endpoint : TelephonyRnsEndpoint rns) :
    Frame [] s { s with endpoint } := ⟨rfl, rfl, rfl, rfl, .of_events rfl rfl⟩

theorem Frame.outgoingDiscovery (s : TelephonyService rns audio)
    (outgoingDiscovery : Option OutgoingDiscoveryState) :
    Frame [] s { s with outgoingDiscovery } := ⟨rfl, rfl, rfl, rfl, .of_events rfl rfl⟩

/-- Whatever comes after events that could not be sent. -/
theorem Sends.failed (h : Sends a s false s') (h' : Frame b s' s'') (links : List LinkId) :
    Frame links s s'' :=
  ⟨h'.core.trans h.core, h'.config.trans h.config, h'.activeTimeout.trans h.activeTimeout,
    h'.answering.trans h.answering, fun hopen => by cases h.all hopen⟩

/-- Sending, and then a program that runs only if all was sent. -/
theorem Frame.ifSent {α : Type} {p : ServiceM rns audio Bool} {q r : ServiceM rns audio α}
    (hp : wp p (Sends a s) s) (hq : ∀ s', wp q (fun _ => Frame b s') s')
    (hr : ∀ s', wp r (fun _ => Frame [] s') s') :
    wp (do if ← p then q else r) (fun _ => Frame (a ++ b) s) s := by
  rw [wp_bind]
  refine wp_mono hp fun sent s' h => ?_
  cases sent with
  | true => exact wp_mono (hq s') fun _ _ h' => h.toFrame.trans h'
  | false => exact wp_mono (hr s') fun _ _ h' => h.failed h' _

theorem Sends.andThen {p q : ServiceM rns audio Bool} (hp : wp p (Sends a s) s)
    (hq : ∀ s', wp q (Sends b s') s') :
    wp (do if ← p then q else pure false) (Sends (a ++ b) s) s := by
  rw [wp_bind]
  refine wp_mono hp fun sent s' h => ?_
  cases sent with
  | true =>
    refine wp_mono (hq s') fun _ _ h' => ⟨h.toFrame.trans h'.toFrame, fun hopen => ?_⟩
    exact h'.all (h.tells hopen).1
  | false => exact ⟨h.failed (.refl s') _, fun hopen => by cases h.all hopen⟩

/-- With the event channel open everything is sent, so the program goes on. -/
theorem Sends.goesOn {α : Type} {t : TelephonyService rns audio} {p : ServiceM rns audio Bool}
    {q r : ServiceM rns audio α} {Q : α → TelephonyService rns audio → Prop}
    (hp : wp p (Sends a t) s) (hopen : t.eventsLeft = none)
    (hq : ∀ s', Frame a t s' → s'.eventsLeft = none → wp q Q s') :
    wp (do if ← p then q else r) Q s := by
  rw [wp_bind]
  refine wp_mono hp fun sent s' h => ?_
  rw [h.all hopen]
  exact hq s' h.toFrame (h.tells hopen).1

/-- What a finished activity's program guarantees. -/
theorem of_performed {p : ServiceM rns audio Bool} {Q : Bool → TelephonyService rns audio → Prop}
    {continues : Bool} (h : some (p s) = some (continues, s')) (hp : wp p Q s) :
    Q continues s' := by
  have hresult := Option.some.inj h
  rwa [wp, hresult] at hp

/-! ## Emitting -/

theorem emitServiceEvent_sends (event : TelephonyServiceEvent audio)
    (s : TelephonyService rns audio) : wp (emitServiceEvent event) (Sends event.terminated s) s := by
  have hnew : terminations [event.published] = event.terminated := by
    rw [terminations_cons, event.published_terminated]
    exact List.append_nil _
  unfold wp emitServiceEvent
  cases h : s.eventsLeft with
  | none => exact ⟨⟨rfl, rfl, rfl, rfl, fun _ => ⟨rfl, _, rfl, hnew⟩⟩, fun _ => rfl⟩
  | some left =>
    have hclosed : s.eventsLeft ≠ none := by simp [h]
    cases left with
    | zero => exact ⟨⟨rfl, rfl, rfl, rfl, fun hopen => absurd hopen hclosed⟩,
        fun hopen => absurd hopen hclosed⟩
    | succ left => exact ⟨⟨rfl, rfl, rfl, rfl, fun hopen => absurd hopen hclosed⟩, fun _ => rfl⟩

theorem emitServiceEvents_sends (events : List (TelephonyServiceEvent audio))
    (s : TelephonyService rns audio) :
    wp (emitServiceEvents events) (Sends (terminations events) s) s := by
  induction events generalizing s with
  | nil => exact ⟨.refl s, fun _ => rfl⟩
  | cons event events ih => exact .andThen (emitServiceEvent_sends event s) ih

theorem emitServiceError_sends (error : Error) (s : TelephonyService rns audio) :
    wp (emitServiceError error) (Sends [] s) s := emitServiceEvent_sends _ s

theorem emitSnapshot_sends (s : TelephonyService rns audio) : wp emitSnapshot (Sends [] s) s :=
  emitServiceEvent_sends (.snapshot s.core.snapshot) s

/-- An event that terminates nothing. -/
theorem emitServiceEvent_frame {event : TelephonyServiceEvent audio} (h : event.terminated = [])
    (s : TelephonyService rns audio) : wp (emitServiceEvent event) (fun _ => Frame [] s) s :=
  wp_mono (emitServiceEvent_sends event s) fun _ _ hs => h ▸ hs.toFrame

theorem reportError_frame (result : Except Error Unit) (s : TelephonyService rns audio) :
    wp (reportError result) (fun _ => Frame [] s) s := by
  cases result with
  | ok => exact .refl s
  | error error => exact emitServiceEvent_frame rfl s

theorem wp_onEndpoint {α : Type} {method : EndpointE rns α}
    {Q : Except Error α → TelephonyService rns audio → Prop} :
    wp (onEndpoint method) Q s ↔
      Q (method s.endpoint).1 { s with endpoint := (method s.endpoint).2 } := Iff.rfl

/-! ## Refreshing the timers -/

/-- The service after `refresh_active_timeout`. -/
def refreshed (now : Instant) (s : TelephonyService rns audio) : TelephonyService rns audio :=
  (refreshActiveTimeout now s).2

theorem wp_refresh {α : Type} {now : Instant}
    {f : List (TelephonyServiceEvent audio) → ServiceM rns audio α}
    {Q : α → TelephonyService rns audio → Prop} :
    wp (refreshActiveTimeout now >>= f) Q s ↔
      wp (f (refreshActiveTimeout now s).1) Q (refreshed now s) := Iff.rfl

theorem terminations_ofOption {α : Type} {event : α → TelephonyServiceEvent audio}
    (h : ∀ a, (event a).terminated = []) (a : Option α) :
    terminations (a.map event).toList = [] := by
  cases a with
  | none => rfl
  | some a => exact (List.append_nil _).trans (h a)

theorem clearUnlessEstablished_terminations (media : TelephonyServiceMedia audio)
    (active : Option ActiveCallSnapshot) :
    terminations (media.clearUnlessEstablished active).1 = [] := by
  unfold TelephonyServiceMedia.clearUnlessEstablished
  split <;>
  · rw [terminations_append, terminations_ofOption (fun _ => rfl),
      terminations_ofOption (fun _ => rfl)]
    rfl

theorem refreshActiveTimeout_terminations (now : Instant) (s : TelephonyService rns audio) :
    terminations (refreshActiveTimeout now s).1 = [] :=
  clearUnlessEstablished_terminations s.media s.core.snapshot.activeCall

/-- The stream events of a refresh, sent in any state. -/
theorem streamEvents_sends (now : Instant) (s s' : TelephonyService rns audio) :
    wp (emitServiceEvents (refreshActiveTimeout now s).1) (Sends [] s') s' := by
  have h := emitServiceEvents_sends (refreshActiveTimeout now s).1 s'
  rwa [refreshActiveTimeout_terminations] at h

theorem refreshAndEmit_sends (now : Instant) (s : TelephonyService rns audio) :
    wp (refreshAndEmit now) (Sends [] (refreshed now s)) s :=
  streamEvents_sends now s (refreshed now s)

/-- A refresh, and then a program that keeps a frame if the stream events were sent. -/
theorem refreshThen_frame {q : ServiceM rns audio Bool} (now : Instant)
    (s : TelephonyService rns audio) (hq : ∀ s', wp q (fun _ => Frame [] s') s') :
    wp (do if ← refreshAndEmit now then q else pure false)
      (fun _ => Frame [] (refreshed now s)) s :=
  .ifSent (a := []) (b := []) (streamEvents_sends now s (refreshed now s)) hq fun s' => .refl s'

theorem emitSnapshot_frame (s : TelephonyService rns audio) :
    wp emitSnapshot (fun _ => Frame [] s) s :=
  wp_mono (emitSnapshot_sends s) fun _ _ h => h.toFrame

theorem publishCommands_frame (commands : List TelephonyCommand)
    (effects : List TelephonyCommandEffect) (now : Instant) (s : TelephonyService rns audio) :
    wp (publishCommands commands effects now)
      (fun _ => Frame (terminatedBy commands) (refreshed now s)) s := by
  have hclosed (s' : TelephonyService rns audio) :
      wp (pure (.error .serviceEventClosed) : ServiceM rns audio (Except Error Unit))
        (fun _ => Frame [] s') s' := .refl s'
  unfold publishCommands
  rw [wp_bind, ← List.append_nil (terminatedBy commands),
    ← terminations_serviceEvents audio]
  refine .ifSent (a := []) (emitServiceEvent_sends _ _) (fun s' => ?_) hclosed
  refine .ifSent (emitServiceEvents_sends _ s') (fun s' => ?_) hclosed
  refine .ifSent (b := []) (streamEvents_sends now s s') (fun s' => ?_) hclosed
  exact .ifSent (emitSnapshot_sends s') (fun s' => .refl s') hclosed

/-! ## Streams -/

theorem stopOpusStream_frame (reason : OpusTransmitStreamStopReason)
    (s : TelephonyService rns audio) :
    wp (stopOpusStream reason) (fun _ => Frame [] s) s := by
  unfold stopOpusStream
  rw [wp_bind, wp_get]
  split
  · exact .refl s
  · rw [wp_bind, wp_set]
    exact wp_mono (emitServiceEvent_frame rfl _) fun _ _ h => (Frame.media s _).then h

theorem stopOpusReceiveStream_frame (reason : OpusReceiveStreamStopReason)
    (s : TelephonyService rns audio) :
    wp (stopOpusReceiveStream reason) (fun _ => Frame [] s) s := by
  unfold stopOpusReceiveStream
  rw [wp_bind, wp_get]
  split
  · exact .refl s
  · rw [wp_bind, wp_set]
    exact wp_mono (emitServiceEvent_frame rfl _) fun _ _ h => (Frame.media s _).then h

theorem startOpusReceiveStream_frame (framesTx : BoundedQueue audio.Pcm)
    (s : TelephonyService rns audio) :
    wp (startOpusReceiveStream framesTx) (fun _ => Frame [] s) s := by
  unfold startOpusReceiveStream
  rw [wp_bind, wp_get]
  split
  · exact .refl s
  · rw [wp_bind]
    refine wp_mono (stopOpusReceiveStream_frame _ s) fun _ s₁ h₁ => ?_
    rw [wp_bind, wp_modify, wp_bind]
    refine wp_mono (emitServiceEvent_frame rfl _) fun _ _ h₂ => ?_
    exact (h₁.then (Frame.media s₁ _)).then h₂

theorem startOpusStream_frame (profile : Profile) (framesRx : Mailbox audio.Pcm)
    (s : TelephonyService rns audio) :
    wp (startOpusStream profile framesRx) (fun _ => Frame [] s) s := by
  unfold startOpusStream
  rw [wp_bind, wp_get]
  split
  · exact .refl s
  · rw [wp_bind]
    refine wp_mono (stopOpusStream_frame _ s) fun _ s₁ h₁ => ?_
    rw [wp_bind, wp_modify, wp_bind]
    refine wp_mono (emitServiceEvent_frame rfl _) fun _ _ h₂ => ?_
    exact (h₁.then (Frame.media s₁ _)).then h₂

theorem startAudioStream_frame (linkId : LinkId) (gate : Option AudioTransmitGate)
    (profile : Profile) (framesRx : Mailbox audio.Pcm) (s : TelephonyService rns audio) :
    wp (startAudioStream linkId gate profile framesRx) (fun _ => Frame [] s) s := by
  unfold startAudioStream
  rw [wp_bind, wp_get]
  split
  · rw [wp_bind]
    refine wp_mono (startOpusStream_frame profile framesRx s) fun result s₁ h₁ => ?_
    dsimp only
    split
    · exact h₁.then (Frame.media s₁ _)
    · exact h₁
  · exact .refl s

/-! ## Media -/

theorem emitMediaSent_frame (linkId : LinkId) (frames : Nat) (queued : Except Error Nat)
    (s : TelephonyService rns audio) :
    wp (emitMediaSent linkId frames queued) (fun _ => Frame [] s) s := by
  cases queued with
  | error error => exact .refl s
  | ok packets => exact emitServiceEvent_frame rfl s

theorem sendRawFrames_frame (bitDepth : RawBitDepth) (frames : List audio.Pcm)
    (s : TelephonyService rns audio) :
    wp (sendRawFrames bitDepth frames) (fun _ => Frame [] s) s := by
  unfold sendRawFrames
  rw [wp_bind, wp_get]
  split
  · exact .refl s
  · rw [wp_bind, wp_onEndpoint]
    exact wp_mono (emitMediaSent_frame _ _ _ _) fun _ _ h => (Frame.endpoint s _).then h

theorem gateAllows_frame (now : Instant) (s : TelephonyService rns audio) :
    wp (gateAllows now) (fun _ => Frame [] s) s := by
  unfold gateAllows
  rw [wp_bind, wp_get]
  split
  · split
    · exact Frame.media s _
    · exact .refl s
  · exact .refl s

theorem sendOpusFrames_frame (profile : Profile) (frames : List audio.Pcm) (now : Instant)
    (s : TelephonyService rns audio) :
    wp (sendOpusFrames profile frames now) (fun _ => Frame [] s) s := by
  unfold sendOpusFrames
  rw [wp_bind, wp_get]
  split
  · exact .refl s
  split
  · exact .refl s
  · rw [wp_bind, wp_set]
    split
    · exact Frame.media s _
    · rw [wp_bind]
      refine wp_mono (gateAllows_frame now _) fun allowed s₁ h₁ => ?_
      have h₁ := (Frame.media s _).then h₁
      cases allowed with
      | false => exact h₁
      | true =>
        rw [if_pos rfl, wp_bind, wp_onEndpoint]
        refine wp_mono (emitMediaSent_frame _ _ _ _) fun _ _ h₂ => ?_
        exact (h₁.then (Frame.endpoint s₁ _)).then h₂

theorem drainOpusStreamFrames_frame (now : Instant) (s : TelephonyService rns audio) :
    wp (drainOpusStreamFrames now) (fun _ => Frame [] s) s := by
  unfold drainOpusStreamFrames
  rw [wp_bind, wp_get]
  split
  · exact .refl s
  · rw [wp_bind, wp_set]
    split
    · exact Frame.media s _
    · exact Frame.media s _

theorem pumpOpusStream_frame (now : Instant) (s : TelephonyService rns audio) :
    wp (pumpOpusStream now) (fun _ => Frame [] s) s := by
  unfold pumpOpusStream
  rw [wp_bind]
  refine wp_mono (drainOpusStreamFrames_frame now s) fun drained s₁ h₁ => ?_
  split
  · exact h₁
  · rename_i profile frames sourceClosed
    have hstop (s₂ : TelephonyService rns audio) (h₂ : Frame [] s s₂) :
        wp (if sourceClosed then stopOpusStream .sourceClosed else pure true)
          (fun _ => Frame [] s) s₂ := by
      split
      · exact wp_mono (stopOpusStream_frame _ s₂) fun _ _ h₃ => h₂.then h₃
      · exact h₂
    dsimp only
    split
    · exact hstop s₁ h₁
    · rw [wp_bind]
      refine wp_mono (sendOpusFrames_frame profile frames now s₁) fun sent s₂ h₂ => ?_
      split
      · rw [wp_bind, wp_modify]
        refine wp_mono (emitServiceError_sends _ _) fun _ _ h₃ => ?_
        exact ((h₁.then h₂).then (Frame.media s₂ _)).then h₃.toFrame
      · exact hstop s₂ (h₁.then h₂)

/-! ## Driven steps -/

theorem deliverOpusReceiveStream_frame (linkId : LinkId) (profile : Profile)
    (frames : List audio.Pcm) (s : TelephonyService rns audio) :
    wp (deliverOpusReceiveStream linkId profile frames)
      (fun events s' => Frame [] s s' ∧ terminations events = []) s := by
  unfold deliverOpusReceiveStream
  rw [wp_bind, wp_get]
  split
  · exact ⟨.refl s, rfl⟩
  split
  · exact ⟨Frame.media s _, rfl⟩
  · rw [wp_bind, wp_set, wp_pure, terminations_append]
    exact ⟨Frame.media s _, by split <;> split <;> rfl⟩

theorem opusReceivedEvents_frame (step : TelephonyStep) (s : TelephonyService rns audio) :
    wp (opusReceivedEvents step)
      (fun result s' => Frame [] s s' ∧ ∀ events, result = .ok events → terminations events = [])
      s := by
  unfold opusReceivedEvents
  have hnone : ∀ events, (.ok [] : Except Error (List (TelephonyServiceEvent audio))) = .ok events →
      terminations events = [] := by
    rintro _ ⟨⟩
    rfl
  rw [wp_bind, wp_get]
  split
  · exact ⟨.refl s, hnone⟩
  dsimp only
  split
  · exact ⟨.refl s, hnone⟩
  split
  · exact ⟨.refl s, nofun⟩
  split
  · exact ⟨.refl s, nofun⟩
  split
  · exact ⟨.refl s, hnone⟩
  split
  · exact ⟨.refl s, nofun⟩
  rw [wp_bind, wp_set]
  split
  · exact ⟨Frame.media s _, nofun⟩
  · rw [wp_bind]
    refine wp_mono (deliverOpusReceiveStream_frame _ _ _ _) fun events s₁ h₁ => ?_
    refine ⟨(Frame.media s _).then h₁.1, ?_⟩
    rintro _ ⟨⟩
    exact h₁.2

theorem stepMediaEvents_frame (step : TelephonyStep) (s : TelephonyService rns audio) :
    wp (stepMediaEvents step)
      (fun events s' => Sends [] s events.isSome s' ∧ ∀ sent ∈ events, terminations sent = [])
      s := by
  unfold stepMediaEvents
  rw [wp_bind]
  refine wp_mono (opusReceivedEvents_frame step s) fun result s₁ h₁ => ?_
  cases result with
  | ok events => exact ⟨⟨h₁.1, fun _ => rfl⟩, by rintro _ ⟨⟩; exact h₁.2 events rfl⟩
  | error error =>
    dsimp only
    rw [wp_bind]
    refine wp_mono (emitServiceError_sends error s₁) fun sent s₂ h₂ => ?_
    have hframe := h₁.1.then h₂.toFrame
    cases sent with
    | true => exact ⟨⟨hframe, fun _ => rfl⟩, by rintro _ ⟨⟩; rfl⟩
    | false =>
      refine ⟨⟨hframe, fun hopen => ?_⟩, nofun⟩
      cases h₂.all (h₁.1.tells hopen).1

theorem mediaReceivedEvent_terminations (audio : Audio) (step : TelephonyStep) :
    terminations (mediaReceivedEvent step : Option (TelephonyServiceEvent audio)).toList = [] := by
  obtain hnone | ⟨linkId, frames, hsome⟩ := mediaReceivedEvent_cases audio step
  · rw [hnone]
    rfl
  · rw [hsome]
    rfl

theorem publishDriveStep_sends (step : TelephonyRnsEndpoint.TelephonyDriveStep)
    (s : TelephonyService rns audio) :
    wp (publishDriveStep step) (Sends (terminatedBy step.step.commands) s) s := by
  unfold publishDriveStep
  rw [wp_bind]
  refine wp_mono (stepMediaEvents_frame step.step s) fun events s₁ h₁ => ?_
  cases events with
  | none => exact ⟨h₁.1.failed (.refl s₁) _, h₁.1.all⟩
  | some events =>
    have hmedia (s' : TelephonyService rns audio) :=
      emitServiceEvents_sends (mediaReceivedEvent step.step).toList s'
    have hreceived (s' : TelephonyService rns audio) := emitServiceEvents_sends events s'
    rw [mediaReceivedEvent_terminations] at hmedia
    rw [h₁.2 events rfl] at hreceived
    have h : wp _ (Sends ([] ++ (terminatedBy step.step.commands ++ ([] ++ []))) s₁) s₁ :=
      .andThen (emitServiceEvent_sends (.drive step) s₁) fun s' =>
        .andThen (terminations_serviceEvents audio step.step.commands ▸
            emitServiceEvents_sends _ s') fun s' =>
          .andThen (hmedia s') hreceived
    rw [List.append_nil, List.append_nil, List.nil_append] at h
    refine wp_mono h fun sent s₂ h₂ => ⟨h₁.1.toFrame.then h₂.toFrame, fun hopen => ?_⟩
    exact h₂.all (h₁.1.tells hopen).1

theorem publishDriveSteps_sends (steps : List TelephonyRnsEndpoint.TelephonyDriveStep)
    (s : TelephonyService rns audio) :
    wp (publishDriveSteps steps)
      (Sends (steps.flatMap fun step => terminatedBy step.step.commands) s) s := by
  induction steps generalizing s with
  | nil => exact ⟨.refl s, fun _ => rfl⟩
  | cons step steps ih => exact .andThen (publishDriveStep_sends step s) ih

end TelephonyService

end Lxst.Telephony
