import RsLxst.Telephony.Proof.Streams

/-!
# Batches of link events

`drive_ready` applies all link events of a batch to the core before it decodes the media of the
first, so that media, stream and error events depend on how link events are batched. `Abreast`
relates a service that is driven call by call to one that is driven in one call: their media and
what they have reported of it are the same. It is kept up to a split point that is `Harmless`, that
is, where the media packets driven so far are seen as at the end, and the refresh changes nothing
for the packets that follow (`media_events_of_batches`).
-/

set_option autoImplicit false

namespace Lxst.Telephony

open Program

variable {rns : Rns} {audio : Audio}

/-! ## Link events -/

namespace TelephonyRuntimeCore

/-- The steps that link events are turned into, and the core after them. -/
def takeAll (readValue : List UInt8 → Except String MsgPack.Value) :
    TelephonyRuntimeCore → List TelephonyLinkEvent → List TelephonyStep × TelephonyRuntimeCore
  | core, [] => ([], core)
  | core, event :: events =>
    let (accepted, core) := core.acceptLinkEvent readValue event
    let (steps, core) := takeAll readValue core events
    (accepted.toOption.toList ++ steps, core)

variable {readValue : List UInt8 → Except String MsgPack.Value}

theorem takeAll_append (core : TelephonyRuntimeCore) (events more : List TelephonyLinkEvent) :
    core.takeAll readValue (events ++ more) =
      ((core.takeAll readValue events).1 ++
          ((core.takeAll readValue events).2.takeAll readValue more).1,
        ((core.takeAll readValue events).2.takeAll readValue more).2) := by
  induction events generalizing core with
  | nil => rfl
  | cons event events ih =>
    rw [List.cons_append, takeAll, takeAll]
    dsimp only
    rw [ih, List.append_assoc]

end TelephonyRuntimeCore

namespace TelephonyRnsEndpoint

/-- The link event that a turn starts with. -/
def receivedEvent (line : Line rns) : Option TelephonyLinkEvent :=
  (tryRecvLinkEvent line.endpoint).1.toOption.join

def receivedEvents (turns : List (Line rns)) : List TelephonyLinkEvent :=
  turns.filterMap receivedEvent

/-- A turn without an error takes the event that it receives. -/
theorem tryDriveOnce_takes {line : Line rns} (h : turnError line = none) :
    ((completedStep line).toList.map (·.step), (tryDriveOnce line).2.core) =
      line.core.takeAll rns.readValue (receivedEvent line).toList := by
  revert h
  unfold completedStep receivedEvent turnError tryDriveOnce tryStep
  rcases tryRecvLinkEvent line.endpoint with ⟨error | _ | event, endpoint⟩
  · exact nofun
  · exact fun _ => rfl
  dsimp only
  rcases haccepted : line.core.acceptLinkEvent rns.readValue event with ⟨error | step, core⟩
  · exact nofun
  dsimp only [Except.map]
  rcases executeCommands step.commands endpoint with ⟨error | effects, endpoint⟩
  · exact nofun
  · intro _
    simp [Except.toOption, TelephonyRuntimeCore.takeAll, haccepted]

/-- A turn without an error completes a step exactly if it receives an event. -/
theorem completedStep_eq_none_iff {line : Line rns} (h : turnError line = none) :
    completedStep line = none ↔ receivedEvent line = none := by
  unfold receivedEvent
  obtain ⟨-, hstep, hidle⟩ | ⟨event, hevent, -, hstep⟩ := tryDriveOnce_core line
  · rw [hstep, eq_self_iff_true, true_iff]
    rcases h : (tryRecvLinkEvent line.endpoint).1 with error | _ | event
    · rfl
    · rfl
    · exact absurd h (hidle event)
  · rw [hevent]
    exact ⟨fun hnone => absurd hnone (hstep h), fun hnone => by cases hnone⟩

theorem driveTurns_takes {fuel : Nat} {line last : Line rns} {turns : List (Line rns)}
    (h : driveTurns fuel line = some (turns, last)) (hok : firstError turns = none) :
    ((completed turns).map (·.step), last.core) =
      line.core.takeAll rns.readValue (receivedEvents turns) := by
  refine driveTurns_induction (P := fun core turns core' => firstError turns = none →
    ((completed turns).map (·.step), core') =
      core.takeAll rns.readValue (receivedEvents turns))
    (fun _ _ => rfl) (fun line turns core ih hok => ?_) h hok
  rw [firstError_eq_none_iff, List.forall_mem_cons, ← firstError_eq_none_iff] at hok
  have hturn := tryDriveOnce_takes hok.1
  have hsteps : completed (line :: turns) = (completedStep line).toList ++ completed turns := by
    rw [completed, List.filterMap_cons]
    cases completedStep line <;> rfl
  have hevents : receivedEvents (line :: turns) =
      (receivedEvent line).toList ++ receivedEvents turns := by
    rw [receivedEvents, List.filterMap_cons]
    cases receivedEvent line <;> rfl
  rw [hsteps, hevents, TelephonyRuntimeCore.takeAll_append, ← hturn, List.map_append, ← ih hok.2]

end TelephonyRnsEndpoint

/-! ## Media events -/

/-- Media, stream and error events. -/
def TelephonyServiceEvent.isMedia : TelephonyServiceEvent audio → Bool
  | .mediaSent .. | .mediaReceived .. | .opusFramesReceived .. | .audioFramesReceived .. => true
  | .opusTransmitStreamStarted .. | .opusTransmitStreamStopped .. => true
  | .opusReceiveStreamStarted .. | .opusReceiveStreamStopped .. => true
  | .opusReceiveStreamFrames .. | .audioReceiveStreamFrames .. => true
  | .audioTransmitStreamStarted .. | .audioTransmitStreamStopped .. => true
  | .audioReceiveStreamStarted .. | .audioReceiveStreamStopped .. => true
  | .error _ => true
  | _ => false

/-- The media, stream and error events that these are sent as. -/
def mediaEvents (events : List (TelephonyServiceEvent audio)) :
    List (TelephonyServiceEvent audio) :=
  (events.map (·.published)).filter (·.isMedia)

theorem TelephonyServiceEvent.isMedia_published (event : TelephonyServiceEvent audio) :
    event.published.isMedia = event.isMedia := by
  cases event <;> simp only [published] <;> first | rfl | (split <;> rfl)

theorem mediaEvents_append (events more : List (TelephonyServiceEvent audio)) :
    mediaEvents (events ++ more) = mediaEvents events ++ mediaEvents more := by
  rw [mediaEvents, List.map_append, List.filter_append]
  rfl

theorem mediaEvents_eq_nil {events : List (TelephonyServiceEvent audio)}
    (h : ∀ event ∈ events, event.isMedia = false) : mediaEvents events = [] := by
  rw [mediaEvents, List.filter_eq_nil_iff]
  intro sent hsent
  obtain ⟨event, hevent, rfl⟩ := List.mem_map.mp hsent
  rw [event.isMedia_published, h event hevent]
  exact Bool.false_ne_true

theorem mediaEvents_serviceEvents (commands : List TelephonyCommand) :
    mediaEvents (serviceEventsFromCommands commands : List (TelephonyServiceEvent audio)) = [] := by
  refine mediaEvents_eq_nil fun event hevent => ?_
  obtain ⟨command, -, hcommand⟩ := List.mem_filterMap.mp hevent
  cases command <;> cases hcommand <;> rfl

/-- How a core sees the media packets of a link: the error that they meet, or the profile that they
are decoded with, none before the call is established. -/
def TelephonyRuntimeCore.sees (core : TelephonyRuntimeCore) (linkId : LinkId) :
    Except Error (Option Profile) :=
  match core.activeCall with
  | none => .error .noActiveCall
  | some active =>
    if active.linkId ≠ linkId then .error .wrongActiveLink
    else if active.call.status ≠ .established then .ok none
    else .ok (some (active.call.profile.getD Profile.DEFAULT))

namespace TelephonyService

variable {s s' s'' : TelephonyService rns audio}

/-- The media of a service that `drive_ready` looks at, and what was reported of it, are the same;
a decoder may differ unless `decodes` asks for it. -/
structure Abreast (decodes : LinkId → Profile → Prop) (s s' : TelephonyService rns audio) :
    Prop where
  decoder : ∀ linkId profile, decodes linkId profile →
    s'.media.opusDecoderFor linkId profile = s.media.opusDecoderFor linkId profile
  transmit : s'.media.opusTransmitStream = s.media.opusTransmitStream
  receive : s'.media.opusReceiveStream = s.media.opusReceiveStream
  events : s'.events.filter (·.isMedia) = s.events.filter (·.isMedia)
  stillOpen : s.eventsLeft = none
  stillOpen' : s'.eventsLeft = none

variable {decodes fewer : LinkId → Profile → Prop}

theorem Abreast.refl (hopen : s.eventsLeft = none) : Abreast decodes s s :=
  ⟨fun _ _ _ => rfl, rfl, rfl, rfl, hopen, hopen⟩

theorem Abreast.mono (h : Abreast decodes s s')
    (hfewer : ∀ linkId profile, fewer linkId profile → decodes linkId profile) :
    Abreast fewer s s' :=
  ⟨fun linkId profile hp => h.decoder linkId profile (hfewer linkId profile hp),
    h.transmit, h.receive, h.events, h.stillOpen, h.stillOpen'⟩

theorem Abreast.tell (h : Abreast decodes s s')
    {events events' : List (TelephonyServiceEvent audio)}
    (hevents : mediaEvents events' = mediaEvents events) :
    Abreast decodes (s.tell events) (s'.tell events') := by
  refine ⟨h.decoder, h.transmit, h.receive, ?_, h.stillOpen, h.stillOpen'⟩
  show (s'.events ++ events'.map (·.published)).filter _ =
    (s.events ++ events.map (·.published)).filter _
  rw [List.filter_append, List.filter_append, h.events]
  exact congrArg _ hevents

/-- What `opus_received_events` does with frames of the established call. -/
def decodeFrames (linkId : LinkId) (profile : Profile) (frames : List Lxst.Frame) :
    ServiceM rns audio (Except Error (List (TelephonyServiceEvent audio))) := do
  let self ← Program.get
  match self.media.opusDecoderFor linkId profile with
  | .error error => pure (.error error)
  | .ok decoder => do
    let (decoded, decoder) := codeAll audio.decodeFrame decoder frames
    Program.set { self with media.opusDecoder := some { linkId, profile, decoder } }
    match decoded with
    | .error error => pure (.error error)
    | .ok decoded => do
      let events ← deliverOpusReceiveStream linkId profile decoded
      pure (.ok (.opusFramesReceived linkId profile decoded :: events))

/-- What it does with frames that are seen like this. -/
def receiveSeen (linkId : LinkId) (frames : List Lxst.Frame) : Except Error (Option Profile) →
    ServiceM rns audio (Except Error (List (TelephonyServiceEvent audio)))
  | .error error => pure (.error error)
  | .ok none => pure (.ok [])
  | .ok (some profile) => decodeFrames linkId profile frames

theorem opusReceivedEvents_quiet {step : TelephonyStep}
    (h : ∀ inbound, step.inbound = some inbound → opusFrames inbound = []) :
    opusReceivedEvents step s = (.ok [], s) := by
  unfold opusReceivedEvents
  rcases hinbound : step.inbound with _ | inbound
  · rfl
  · show (ite _ _ _ : ServiceM rns audio _) s = _
    rw [if_pos (List.isEmpty_iff.mpr (h inbound hinbound))]
    rfl

theorem opusReceivedEvents_seen {step : TelephonyStep} {inbound : InboundLxstPacket}
    (hinbound : step.inbound = some inbound) (hframes : opusFrames inbound ≠ []) :
    opusReceivedEvents step s =
      receiveSeen inbound.linkId (opusFrames inbound) (s.core.sees inbound.linkId) s := by
  unfold opusReceivedEvents TelephonyRuntimeCore.sees
  rw [hinbound]
  show (ite _ _ _ : ServiceM rns audio _) s = _
  rw [if_neg (by rwa [List.isEmpty_iff])]
  dsimp only [Program.get]
  rcases s.core.activeCall with _ | active
  · rfl
  dsimp only
  by_cases hlink : active.linkId = inbound.linkId
  · rw [if_neg (not_not_intro hlink), if_neg (not_not_intro hlink)]
    by_cases hstatus : active.call.status = .established
    · rw [if_neg (not_not_intro hstatus), if_neg (not_not_intro hstatus), hlink]
      rfl
    · rw [if_pos hstatus, if_pos hstatus]
      rfl
  · rw [if_pos hlink, if_pos hlink]
    rfl

/-- Does the same in services that are abreast, and leaves them so. -/
def InStep {α : Type} (decodes : LinkId → Profile → Prop) (p : ServiceM rns audio α) : Prop :=
  ∀ s s', Abreast decodes s s' → (p s').1 = (p s).1 ∧ Abreast decodes (p s).2 (p s').2 ∧
    (p s).2.core = s.core ∧ (p s').2.core = s'.core

theorem InStep.pure {α : Type} (a : α) : InStep decodes (pure a : ServiceM rns audio α) :=
  fun _ _ h => ⟨rfl, h, rfl, rfl⟩

theorem InStep.bind {α β : Type} {p : ServiceM rns audio α} {q : α → ServiceM rns audio β}
    (hp : InStep decodes p) (hq : ∀ a, InStep decodes (q a)) : InStep decodes (p >>= q) := by
  intro s s' h
  obtain ⟨hsame, habreast, hcore, hcore'⟩ := hp s s' h
  obtain ⟨hsame', habreast', hkept, hkept'⟩ := hq (p s).1 _ _ habreast
  have hrun : (p >>= q) s' = q (p s).1 (p s').2 := by
    show q (p s').1 (p s').2 = _
    rw [hsame]
  rw [hrun]
  exact ⟨hsame', habreast', hkept.trans hcore, hkept'.trans hcore'⟩

/-- A program that reads the service. -/
theorem InStep.read {α : Type} {p : TelephonyService rns audio → ServiceM rns audio α}
    (h : ∀ s s', Abreast decodes s s' → (p s' s').1 = (p s s).1 ∧
      Abreast decodes (p s s).2 (p s' s').2 ∧ (p s s).2.core = s.core ∧
        (p s' s').2.core = s'.core) : InStep decodes (Program.get >>= p) := h

theorem deliverOpusReceiveStream_inStep (linkId : LinkId) (profile : Profile)
    (frames : List audio.Pcm) :
    InStep decodes (deliverOpusReceiveStream linkId profile frames : ServiceM rns audio _) := by
  refine .read fun s s' h => ?_
  have hset (stream : Option (ActiveOpusReceiveStream audio)) :
      Abreast decodes { s with media.opusReceiveStream := stream }
        { s' with media.opusReceiveStream := stream } :=
    ⟨h.decoder, h.transmit, rfl, h.events, h.stillOpen, h.stillOpen'⟩
  rw [h.receive]
  rcases s.media.opusReceiveStream with _ | stream
  · exact ⟨rfl, h, rfl, rfl⟩
  dsimp only
  by_cases hother : stream.linkId ≠ linkId ∨ stream.profile ≠ profile
  · rw [if_pos hother, if_pos hother]
    exact ⟨rfl, hset none, rfl, rfl⟩
  · rw [if_neg hother, if_neg hother]
    exact ⟨rfl, hset _, rfl, rfl⟩

theorem decodeFrames_inStep {linkId : LinkId} {profile : Profile} (frames : List Lxst.Frame)
    (hdecodes : decodes linkId profile) :
    InStep decodes (decodeFrames linkId profile frames : ServiceM rns audio _) := by
  refine .read fun s s' h => ?_
  have hset (decoder : audio.Decoder) :
      Abreast decodes { s with media.opusDecoder := some { linkId, profile, decoder } }
        { s' with media.opusDecoder := some { linkId, profile, decoder } } :=
    ⟨fun _ _ _ => rfl, h.transmit, h.receive, h.events, h.stillOpen, h.stillOpen'⟩
  rw [h.decoder linkId profile hdecodes]
  rcases s.media.opusDecoderFor linkId profile with error | decoder
  · exact ⟨rfl, h, rfl, rfl⟩
  dsimp only
  generalize codeAll audio.decodeFrame decoder frames = coded
  obtain ⟨error | decoded, decoder⟩ := coded
  · exact ⟨rfl, hset decoder, rfl, rfl⟩
  · have hdeliver : InStep decodes (do
        let events ← deliverOpusReceiveStream linkId profile decoded
        pure (.ok (.opusFramesReceived linkId profile decoded :: events)) :
          ServiceM rns audio (Except Error (List (TelephonyServiceEvent audio)))) :=
      .bind (deliverOpusReceiveStream_inStep linkId profile decoded) fun _ => .pure _
    exact hdeliver _ _ (hset decoder)

theorem receiveSeen_inStep {linkId : LinkId} (frames : List Lxst.Frame)
    {seen : Except Error (Option Profile)}
    (hdecodes : ∀ profile, seen = .ok (some profile) → decodes linkId profile) :
    InStep decodes (receiveSeen linkId frames seen : ServiceM rns audio _) := by
  rcases seen with error | _ | profile
  · exact .pure _
  · exact .pure _
  · exact decodeFrames_inStep frames (hdecodes profile rfl)

/-- The link and profile that the core decodes a packet of these steps with. -/
def DecodedBy (core : TelephonyRuntimeCore) (steps : List TelephonyStep) (linkId : LinkId)
    (profile : Profile) : Prop :=
  ∃ step ∈ steps, ∃ inbound, step.inbound = some inbound ∧ opusFrames inbound ≠ [] ∧
    inbound.linkId = linkId ∧ core.sees linkId = .ok (some profile)

theorem DecodedBy.mono {core : TelephonyRuntimeCore} {steps more : List TelephonyStep}
    {linkId : LinkId} {profile : Profile} (h : DecodedBy core steps linkId profile)
    (hmore : ∀ step ∈ steps, step ∈ more) : DecodedBy core more linkId profile := by
  obtain ⟨step, hstep, hseen⟩ := h
  exact ⟨step, hmore step hstep, hseen⟩

/-- The cores see the step's media packet alike. -/
def SeesAlike (core core' : TelephonyRuntimeCore) (step : TelephonyStep) : Prop :=
  ∀ inbound, step.inbound = some inbound → opusFrames inbound ≠ [] →
    core.sees inbound.linkId = core'.sees inbound.linkId

theorem opusReceivedEvents_abreast {step : TelephonyStep} (h : Abreast decodes s s')
    (hdecodes : ∀ linkId profile, DecodedBy s'.core [step] linkId profile → decodes linkId profile)
    (hseen : SeesAlike s.core s'.core step) :
    (opusReceivedEvents step s').1 = (opusReceivedEvents step s).1 ∧
      Abreast decodes (opusReceivedEvents step s).2 (opusReceivedEvents step s').2 ∧
        (opusReceivedEvents step s).2.core = s.core ∧
          (opusReceivedEvents step s').2.core = s'.core := by
  by_cases hquiet : ∀ inbound, step.inbound = some inbound → opusFrames inbound = []
  · rw [opusReceivedEvents_quiet hquiet, opusReceivedEvents_quiet hquiet]
    exact ⟨rfl, h, rfl, rfl⟩
  · simp only [not_forall] at hquiet
    obtain ⟨inbound, hinbound, hframes⟩ := hquiet
    rw [opusReceivedEvents_seen hinbound hframes, opusReceivedEvents_seen hinbound hframes,
      hseen inbound hinbound hframes]
    refine receiveSeen_inStep _ (fun profile hprofile => hdecodes _ _ ?_) s s' h
    exact ⟨step, List.mem_singleton_self step, inbound, hinbound, hframes, rfl, hprofile⟩

theorem opusReceivedEvents_open (step : TelephonyStep) (hopen : s.eventsLeft = none) :
    (opusReceivedEvents step s).2.eventsLeft = none :=
  (opusReceivedEvents_abreast (.refl hopen) (fun _ _ h => h) fun _ _ _ => rfl).2.1.stillOpen

/-! ## Driven steps -/

/-- The error that a step's media packet met. -/
def receivedErrors : Except Error (List (TelephonyServiceEvent audio)) →
    List (TelephonyServiceEvent audio)
  | .ok _ => []
  | .error error => [.error error.toText]

def receivedMedia : Except Error (List (TelephonyServiceEvent audio)) →
    List (TelephonyServiceEvent audio)
  | .ok events => events
  | .error _ => []

/-- What a step is reported as, with the media events that its packet led to. -/
def stepReport (step : TelephonyRnsEndpoint.TelephonyDriveStep)
    (result : Except Error (List (TelephonyServiceEvent audio))) :
    List (TelephonyServiceEvent audio) :=
  receivedErrors result ++ ([.drive step] ++ (serviceEventsFromCommands step.step.commands ++
    ((mediaReceivedEvent step.step).toList ++ receivedMedia result)))

/-- The service that has reported a step. -/
def reported (s : TelephonyService rns audio) (step : TelephonyRnsEndpoint.TelephonyDriveStep) :
    TelephonyService rns audio :=
  (opusReceivedEvents step.step s).2.tell (stepReport step (opusReceivedEvents step.step s).1)

theorem emitServiceEvent_tells (event : TelephonyServiceEvent audio)
    (hopen : s.eventsLeft = none) :
    wp (emitServiceEvent event) (fun sent s' => sent = true ∧ s' = s.tell [event]) s := by
  unfold wp
  rw [emitServiceEvent_open event hopen]
  exact ⟨rfl, rfl⟩

theorem emitServiceEvents_tells (events : List (TelephonyServiceEvent audio))
    (hopen : s.eventsLeft = none) :
    wp (emitServiceEvents events) (fun sent s' => sent = true ∧ s' = s.tell events) s := by
  unfold wp
  rw [emitServiceEvents_open events hopen]
  exact ⟨rfl, rfl⟩

theorem stepMediaEvents_tells {step : TelephonyStep} (hopen : s.eventsLeft = none) :
    wp (stepMediaEvents step) (fun events s' =>
      events = some (receivedMedia (opusReceivedEvents step s).1) ∧
        s' = (opusReceivedEvents step s).2.tell (receivedErrors (opusReceivedEvents step s).1))
      s := by
  have hleft := opusReceivedEvents_open step hopen
  unfold stepMediaEvents
  rw [wp_bind]
  unfold wp
  generalize opusReceivedEvents step s = received at hleft ⊢
  obtain ⟨error | events, s₁⟩ := received
  · have hsent : wp (do
        if ← emitServiceError error then pure (some []) else pure none :
          ServiceM rns audio (Option (List (TelephonyServiceEvent audio))))
        (fun events s' => events = some [] ∧ s' = s₁.tell [.error error.toText]) s₁ :=
      wp_sent (emitServiceEvent_tells (.error error.toText) hleft) fun _ h₂ => ⟨rfl, h₂⟩
    exact hsent
  · unfold tell receivedErrors
    rw [List.map_nil, List.append_nil]
    exact ⟨rfl, rfl⟩

theorem publishDriveStep_tells (step : TelephonyRnsEndpoint.TelephonyDriveStep)
    (hopen : s.eventsLeft = none) :
    wp (publishDriveStep step) (fun sent s' => sent = true ∧ s' = reported s step) s := by
  have hleft := opusReceivedEvents_open step.step hopen
  unfold publishDriveStep
  rw [wp_bind]
  refine wp_mono (stepMediaEvents_tells hopen) fun events s₁ h₁ => ?_
  obtain ⟨rfl, rfl⟩ := h₁
  refine wp_sent (emitServiceEvent_tells _ hleft) fun _ h₂ => ?_
  subst h₂
  refine wp_sent (emitServiceEvents_tells _ hleft) fun _ h₃ => ?_
  subst h₃
  refine wp_sent (emitServiceEvents_tells _ hleft) fun _ h₄ => ?_
  subst h₄
  refine wp_mono (emitServiceEvents_tells _ hleft) fun sent s' h₅ => ?_
  rw [tell_tell, tell_tell, tell_tell, tell_tell] at h₅
  exact h₅

theorem reported_open (step : TelephonyRnsEndpoint.TelephonyDriveStep)
    (hopen : s.eventsLeft = none) : (reported s step).eventsLeft = none :=
  opusReceivedEvents_open step.step hopen

theorem publishDriveSteps_tells (steps : List TelephonyRnsEndpoint.TelephonyDriveStep)
    (hopen : s.eventsLeft = none) :
    wp (publishDriveSteps steps) (fun sent s' => sent = true ∧ s' = steps.foldl reported s) s := by
  induction steps generalizing s with
  | nil => exact ⟨rfl, rfl⟩
  | cons step steps ih =>
    refine wp_sent (publishDriveStep_tells step hopen) fun s₁ h₁ => ?_
    subst h₁
    exact ih (reported_open step hopen)

theorem reported_abreast {step step' : TelephonyRnsEndpoint.TelephonyDriveStep}
    (h : Abreast decodes s s') (hsame : step.step = step'.step)
    (hdecodes : ∀ linkId profile, DecodedBy s'.core [step.step] linkId profile →
      decodes linkId profile)
    (hseen : SeesAlike s.core s'.core step.step) :
    Abreast decodes (reported s step) (reported s' step') ∧
      (reported s step).core = s.core ∧ (reported s' step').core = s'.core := by
  obtain ⟨hresult, habreast, hcore, hcore'⟩ := opusReceivedEvents_abreast h hdecodes hseen
  refine ⟨?_, hcore, ?_⟩
  · unfold reported
    rw [← hsame, hresult]
    refine habreast.tell ?_
    simp only [stepReport, mediaEvents_append, mediaEvents_serviceEvents, hsame]
    rfl
  · unfold reported
    rw [← hsame]
    exact hcore'

theorem foldl_reported_abreast {driven driven' : List TelephonyRnsEndpoint.TelephonyDriveStep}
    (h : Abreast decodes s s') (hsame : driven.map (·.step) = driven'.map (·.step))
    (hdecodes : ∀ linkId profile, DecodedBy s'.core (driven.map (·.step)) linkId profile →
      decodes linkId profile)
    (hseen : ∀ step ∈ driven.map (·.step), SeesAlike s.core s'.core step) :
    Abreast decodes (driven.foldl reported s) (driven'.foldl reported s') ∧
      (driven.foldl reported s).core = s.core ∧ (driven'.foldl reported s').core = s'.core := by
  induction driven generalizing s s' driven' with
  | nil =>
    rw [List.map_nil, eq_comm, List.map_eq_nil_iff] at hsame
    subst hsame
    exact ⟨h, rfl, rfl⟩
  | cons step driven ih =>
    rw [List.map_cons, eq_comm, List.map_eq_cons_iff] at hsame
    obtain ⟨step', rest, rfl, hstep, hrest⟩ := hsame
    rw [List.map_cons, List.forall_mem_cons] at hseen
    rw [List.map_cons] at hdecodes
    obtain ⟨habreast, hcore, hcore'⟩ := reported_abreast h hstep.symm
      (fun _ _ hdecoded => hdecodes _ _ (hdecoded.mono (by simp))) hseen.1
    have hdone := @ih (reported s step) (reported s' step') rest habreast hrest.symm
    rw [hcore, hcore'] at hdone
    exact hdone (fun _ _ hdecoded => hdecodes _ _ (hdecoded.mono fun _ => List.mem_cons_of_mem _))
      hseen.2

/-! ## Refreshing -/

/-- The streams that a refresh with this core stops. -/
def stops (media : TelephonyServiceMedia audio) (core : TelephonyRuntimeCore) :
    List (TelephonyServiceEvent audio) :=
  (media.clearUnlessEstablished core.snapshot.activeCall).1

/-- The media that it leaves. -/
def cleared (media : TelephonyServiceMedia audio) (core : TelephonyRuntimeCore) :
    TelephonyServiceMedia audio :=
  (media.clearUnlessEstablished core.snapshot.activeCall).2

/-- A stream of this link and profile stays. -/
def stays (active : Option ActiveCallSnapshot) (linkId : LinkId) (profile : Profile) : Bool :=
  (active.filter (·.status = .established)).any fun active =>
    linkId = active.linkId ∧ some profile = active.profile

theorem clearUnlessEstablished_streams (media : TelephonyServiceMedia audio)
    (active : Option ActiveCallSnapshot) :
    (media.clearUnlessEstablished active).2.opusTransmitStream =
        media.opusTransmitStream.filter (fun stream => stays active stream.linkId stream.profile) ∧
      (media.clearUnlessEstablished active).2.opusReceiveStream =
        media.opusReceiveStream.filter
          (fun stream => stays active stream.linkId stream.profile) := by
  unfold TelephonyServiceMedia.clearUnlessEstablished stays
  generalize active.filter (·.status = .established) = established
  rcases established with _ | active
  · simp [TelephonyServiceMedia.default]
  · simp

/-- The others are stopped, for a reason that their link decides. -/
theorem clearUnlessEstablished_events (media : TelephonyServiceMedia audio)
    (active : Option ActiveCallSnapshot) :
    ∃ (transmitReason : LinkId → OpusTransmitStreamStopReason)
      (receiveReason : LinkId → OpusReceiveStreamStopReason),
    (media.clearUnlessEstablished active).1 =
      ((media.opusTransmitStream.filter fun stream =>
          !stays active stream.linkId stream.profile).map fun stream =>
            .opusTransmitStreamStopped stream.linkId stream.profile
              (transmitReason stream.linkId)).toList ++
        ((media.opusReceiveStream.filter fun stream =>
          !stays active stream.linkId stream.profile).map fun stream =>
            .opusReceiveStreamStopped stream.linkId stream.profile
              (receiveReason stream.linkId)).toList := by
  unfold TelephonyServiceMedia.clearUnlessEstablished stays
  generalize active.filter (·.status = .established) = established
  rcases established with _ | active
  · refine ⟨fun _ => .callEnded, fun _ => .callEnded, ?_⟩
    obtain ⟨_, _, _ | transmit, _ | receive⟩ := media <;> rfl
  · refine ⟨fun linkId => if linkId = active.linkId then .profileChanged else .callEnded,
      fun linkId => if linkId = active.linkId then .profileChanged else .callEnded, ?_⟩
    simp

theorem stops_congr {media media' : TelephonyServiceMedia audio}
    (htransmit : media'.opusTransmitStream = media.opusTransmitStream)
    (hreceive : media'.opusReceiveStream = media.opusReceiveStream) (core : TelephonyRuntimeCore) :
    stops media' core = stops media core := by
  unfold stops TelephonyServiceMedia.clearUnlessEstablished
  rw [htransmit, hreceive]
  generalize core.snapshot.activeCall.filter (·.status = .established) = established
  cases established <;> rfl

/-- A refresh that stops nothing leaves the streams. -/
theorem cleared_of_stops_nil {media : TelephonyServiceMedia audio} {core : TelephonyRuntimeCore}
    (h : stops media core = []) :
    (cleared media core).opusTransmitStream = media.opusTransmitStream ∧
      (cleared media core).opusReceiveStream = media.opusReceiveStream := by
  unfold cleared
  obtain ⟨htransmit, hreceive⟩ :=
    clearUnlessEstablished_streams media core.snapshot.activeCall
  obtain ⟨transmitReason, receiveReason, hevents⟩ :=
    clearUnlessEstablished_events media core.snapshot.activeCall
  rw [htransmit, hreceive]
  rw [stops, hevents, List.append_eq_nil_iff] at h
  simp only [Option.toList_eq_nil_iff, Option.map_eq_none_iff, Option.filter_eq_none_iff,
    Bool.not_eq_true', Bool.not_eq_false] at h
  have hall {α : Type} {o : Option α} {p : α → Bool} (hp : ∀ a, o = some a → p a = true) :
      o.filter p = o := by
    cases o with
    | none => rfl
    | some a => exact Option.filter_some_pos (hp a rfl)
  exact ⟨hall h.1, hall h.2⟩

theorem filter_eq_of_isSome {α : Type} {o : Option α} {p q : α → Bool}
    (h : (o.filter p).isSome = (o.filter q).isSome) : o.filter p = o.filter q := by
  cases o with
  | none => rfl
  | some a => cases hp : p a <;> cases hq : q a <;> simp_all [Option.filter]

/-- Refreshes that stop the same leave the same streams. -/
theorem cleared_of_stops_eq {media : TelephonyServiceMedia audio}
    {core core' : TelephonyRuntimeCore} (h : stops media core = stops media core') :
    (cleared media core).opusTransmitStream = (cleared media core').opusTransmitStream ∧
      (cleared media core).opusReceiveStream = (cleared media core').opusReceiveStream := by
  have hinstalled (direction : Direction) : (cleared media core).installed direction =
      (cleared media core').installed direction := by
    have htoggles := clearUnlessEstablished_toggles media core.snapshot.activeCall direction
    rw [← stops, h] at htoggles
    exact htoggles.unique
      (clearUnlessEstablished_toggles media core'.snapshot.activeCall direction)
  have hstreams := clearUnlessEstablished_streams media core.snapshot.activeCall
  have hstreams' := clearUnlessEstablished_streams media core'.snapshot.activeCall
  have htransmit := hinstalled .transmit
  have hreceive := hinstalled .receive
  unfold TelephonyServiceMedia.installed at htransmit hreceive
  unfold cleared at *
  rw [hstreams.1, hstreams'.1] at htransmit ⊢
  rw [hstreams.2, hstreams'.2] at hreceive ⊢
  exact ⟨filter_eq_of_isSome htransmit, filter_eq_of_isSome hreceive⟩

/-- A second refresh stops nothing. -/
theorem stops_cleared_self (media : TelephonyServiceMedia audio) (core : TelephonyRuntimeCore) :
    stops (cleared media core) core = [] := by
  have hstreams := clearUnlessEstablished_streams media core.snapshot.activeCall
  obtain ⟨_, _, hevents⟩ :=
    clearUnlessEstablished_events (cleared media core) core.snapshot.activeCall
  have hnone {α : Type} (o : Option α) (p : α → Bool) : (o.filter p).filter (!p ·) = none := by
    rw [Option.filter_eq_none_iff]
    intro a ha
    rw [Option.filter_eq_some_iff] at ha
    simp [ha.2]
  rw [stops, hevents, cleared, hstreams.1, hstreams.2, hnone, hnone]
  rfl

/-- After a refresh that stops what the other core would stop, the other core stops nothing. -/
theorem stops_cleared {media : TelephonyServiceMedia audio} {core core' : TelephonyRuntimeCore}
    (h : stops media core = stops media core') : stops (cleared media core) core' = [] := by
  obtain ⟨htransmit, hreceive⟩ := cleared_of_stops_eq h
  rw [stops_congr htransmit hreceive]
  exact stops_cleared_self media core'

/-- The decoder of the established link stays. -/
theorem cleared_opusDecoder (media : TelephonyServiceMedia audio) (core : TelephonyRuntimeCore) :
    (cleared media core).opusDecoder = media.opusDecoder.filter fun decoder =>
      (core.snapshot.activeCall.filter (·.status = .established)).any
        (decoder.linkId = ·.linkId) := by
  unfold cleared TelephonyServiceMedia.clearUnlessEstablished
  generalize core.snapshot.activeCall.filter (·.status = .established) = established
  obtain ⟨_, decoder, _, _⟩ := media
  cases established with
  | none => cases decoder <;> rfl
  | some active => rfl

theorem cleared_opusDecoderFor (media : TelephonyServiceMedia audio) (core : TelephonyRuntimeCore)
    (linkId : LinkId) (profile : Profile) :
    (cleared media core).opusDecoderFor linkId profile =
      if (core.snapshot.activeCall.filter (·.status = .established)).any (linkId = ·.linkId) then
        media.opusDecoderFor linkId profile
      else audio.newDecoder profile := by
  unfold TelephonyServiceMedia.opusDecoderFor
  rw [cleared_opusDecoder, Option.filter_filter]
  generalize core.snapshot.activeCall.filter (·.status = .established) = established
  by_cases hlink : established.any (linkId = ·.linkId)
  · have hsame (decoder : ActiveOpusDecoder audio) :
        (decide (decoder.linkId = linkId ∧ decoder.profile = profile) &&
          established.any (decoder.linkId = ·.linkId)) =
            decide (decoder.linkId = linkId ∧ decoder.profile = profile) := by
      rw [Bool.and_eq_left_iff_imp, decide_eq_true_eq]
      intro h
      rw [h.1]
      exact hlink
    rw [if_pos hlink]
    simp only [hsame, Bool.and_comm]
  · have hnone : (media.opusDecoder.filter fun decoder =>
        established.any (decoder.linkId = ·.linkId) &&
          decide (decoder.linkId = linkId ∧ decoder.profile = profile)) = none := by
      rw [Option.filter_eq_none_iff]
      intro decoder _ h
      rw [Bool.and_eq_true, decide_eq_true_eq] at h
      rw [h.2.1] at h
      exact hlink h.1
    rw [if_neg hlink, hnone]

/-! ## A call of `drive_ready` -/

/-- The media, stream and error events sent so far. -/
def told (s : TelephonyService rns audio) : List (TelephonyServiceEvent audio) :=
  s.events.filter (·.isMedia)

theorem told_tell (events : List (TelephonyServiceEvent audio)) :
    (s.tell events).told = s.told ++ mediaEvents events := by
  unfold told tell
  rw [List.filter_append]
  rfl

/-- A call drives these link events without an error. -/
def Drives (s : TelephonyService rns audio) (events : List TelephonyLinkEvent)
    (s' : TelephonyService rns audio) : Prop :=
  ∃ fuel now turns last continues,
    TelephonyRnsEndpoint.driveTurns fuel s.line = some (turns, last) ∧
      TelephonyRnsEndpoint.firstError turns = none ∧
        TelephonyRnsEndpoint.receivedEvents turns = events ∧
          driveReady fuel now s = some (continues, s')

/-- What a refresh leaves and reports. -/
structure Refreshed (s₁ s' : TelephonyService rns audio) : Prop where
  media : s'.media = cleared s₁.media s₁.core
  core : s'.core = s₁.core
  stillOpen : s'.eventsLeft = none
  told : s'.told = s₁.told ++ mediaEvents (stops s₁.media s₁.core)

theorem foldl_reported_open (driven : List TelephonyRnsEndpoint.TelephonyDriveStep)
    (hopen : s.eventsLeft = none) : (driven.foldl reported s).eventsLeft = none := by
  induction driven generalizing s with
  | nil => exact hopen
  | cons step driven ih => exact ih (reported_open step hopen)

theorem publishDriven_refreshed {driven : List TelephonyRnsEndpoint.TelephonyDriveStep}
    (now : Instant) (hopen : s.eventsLeft = none) (hdriven : driven ≠ []) :
    wp (publishDriven (.ok driven) now) (fun _ s' => Refreshed (driven.foldl reported s) s')
      s := by
  have hleft := foldl_reported_open driven hopen
  unfold publishDriven
  refine wp_sent (publishDriveSteps_tells driven hopen) fun s₁ h₁ => ?_
  rw [if_neg (by rwa [List.isEmpty_iff])]
  subst h₁
  generalize driven.foldl reported s = s₁ at hleft ⊢
  have hrefresh : wp (refreshAndEmit now) (fun sent s' => sent = true ∧
      s' = (refreshed now s₁).tell (stops s₁.media s₁.core)) s₁ :=
    emitServiceEvents_tells (s := refreshed now s₁) _ hleft
  refine wp_sent hrefresh fun s₂ h₂ => ?_
  subst h₂
  have hsnapshot := emitServiceEvent_tells (s := (refreshed now s₁).tell (stops s₁.media s₁.core))
    (.snapshot s₁.core.snapshot) hleft
  unfold emitSnapshot
  rw [wp_bind, wp_get]
  refine wp_mono hsnapshot fun sent s' h₃ => ?_
  rw [h₃.2, tell_tell]
  refine ⟨rfl, rfl, hleft, ?_⟩
  rw [told_tell, mediaEvents_append]
  exact congrArg _ (List.append_nil _)

theorem Drives.published {events : List TelephonyLinkEvent} (h : Drives s events s') :
    ∃ endpoint, ∃ driven : List TelephonyRnsEndpoint.TelephonyDriveStep, ∃ now continues,
      driven.map (·.step) = (s.core.takeAll rns.readValue events).1 ∧
        (driven = [] ↔ events = []) ∧
        publishDriven (.ok driven) now
          { s with endpoint, core := (s.core.takeAll rns.readValue events).2 } =
            (continues, s') := by
  obtain ⟨fuel, now, turns, last, continues, hturns, hok, rfl, hdrive⟩ := h
  obtain ⟨turns', last', hturns', hpublish⟩ := driveReady_turns hdrive
  rw [hturns, Option.some_inj] at hturns'
  cases hturns'
  have htakes := TelephonyRnsEndpoint.driveTurns_takes hturns hok
  have houtcome : TelephonyRnsEndpoint.outcome turns =
      .ok (TelephonyRnsEndpoint.completed turns) := by
    simp [TelephonyRnsEndpoint.outcome, hok]
  rw [houtcome] at hpublish
  have hcore : last.core = (s.core.takeAll rns.readValue
      (TelephonyRnsEndpoint.receivedEvents turns)).2 := congrArg Prod.snd htakes
  refine ⟨last.endpoint, TelephonyRnsEndpoint.completed turns, now, continues, ?_, ?_, ?_⟩
  · exact congrArg Prod.fst htakes
  · rw [TelephonyRnsEndpoint.completed_eq_nil_iff, TelephonyRnsEndpoint.receivedEvents,
      List.filterMap_eq_nil_iff]
    refine forall₂_congr fun line hline => ?_
    exact TelephonyRnsEndpoint.completedStep_eq_none_iff
      (TelephonyRnsEndpoint.firstError_eq_none_iff.mp hok line hline)
  · rw [← hcore]
    exact hpublish

/-- What a call with link events leaves. -/
theorem Drives.refreshed {events : List TelephonyLinkEvent} (h : Drives s events s')
    (hopen : s.eventsLeft = none) (hevents : events ≠ []) :
    ∃ endpoint, ∃ driven : List TelephonyRnsEndpoint.TelephonyDriveStep,
      driven.map (·.step) = (s.core.takeAll rns.readValue events).1 ∧
        Refreshed (driven.foldl reported
          { s with endpoint, core := (s.core.takeAll rns.readValue events).2 }) s' := by
  obtain ⟨endpoint, driven, now, continues, hsteps, hnil, hpublish⟩ := h.published
  refine ⟨endpoint, driven, hsteps, ?_⟩
  have hrefreshed := publishDriven_refreshed (s := { s with
    endpoint, core := (s.core.takeAll rns.readValue events).2 }) now hopen
    fun hdriven => hevents (hnil.mp hdriven)
  unfold wp at hrefreshed
  rw [hpublish] at hrefreshed
  exact hrefreshed

theorem Drives.idle (h : Drives s [] s') :
    ∃ endpoint, s' = { s with endpoint } := by
  obtain ⟨endpoint, driven, now, continues, hsteps, hnil, hpublish⟩ := h.published
  cases hnil.mpr rfl
  cases hpublish
  exact ⟨endpoint, rfl⟩

/-- A call after another one; the environment has changed the endpoint between them. -/
def DrivesNext (s : TelephonyService rns audio) (events : List TelephonyLinkEvent)
    (s' : TelephonyService rns audio) : Prop :=
  ∃ endpoint, Drives { s with endpoint } events s'

theorem DrivesNext.refreshed {events : List TelephonyLinkEvent} (h : DrivesNext s events s')
    (hopen : s.eventsLeft = none) (hevents : events ≠ []) :
    ∃ endpoint, ∃ driven : List TelephonyRnsEndpoint.TelephonyDriveStep,
      driven.map (·.step) = (s.core.takeAll rns.readValue events).1 ∧
        Refreshed (driven.foldl reported
          { s with endpoint, core := (s.core.takeAll rns.readValue events).2 }) s' := by
  obtain ⟨_, hdrives⟩ := h
  obtain ⟨endpoint, driven, hsteps, hrefreshed⟩ := hdrives.refreshed hopen hevents
  exact ⟨endpoint, driven, hsteps, hrefreshed⟩

theorem DrivesNext.idle (h : DrivesNext s [] s') : ∃ endpoint, s' = { s with endpoint } := by
  obtain ⟨_, hdrives⟩ := h
  obtain ⟨endpoint, rfl⟩ := hdrives.idle
  exact ⟨endpoint, rfl⟩

/-! ## Split points -/

/-- The media once the packets of these steps are decoded. -/
def decodedMedia (steps : List TelephonyStep) (s : TelephonyService rns audio) :
    TelephonyServiceMedia audio :=
  (publishDriveSteps (steps.map fun step => { step, effects := [] }) s).2.media

/-- A refresh with this core before the later steps: it stops no stream and drops no decoder that a
later packet needs, or else no later packet has frames and it stops what the one at the end would
stop. -/
def RefreshesAlike (media : TelephonyServiceMedia audio) (core final : TelephonyRuntimeCore)
    (laterSteps : List TelephonyStep) : Prop :=
  (stops media core = [] ∧ ∀ linkId profile, DecodedBy final laterSteps linkId profile →
      (cleared media core).opusDecoderFor linkId profile = media.opusDecoderFor linkId profile) ∨
    (∀ step ∈ laterSteps, (mediaReceivedEvent step : Option (TelephonyServiceEvent audio)) = none) ∧
      stops media core = stops media final

/-- The events may be a batch of their own before the later ones: their packets are seen as at the
end, and the refresh changes nothing for the later ones. -/
def Harmless (s : TelephonyService rns audio) (events later : List TelephonyLinkEvent) : Prop :=
  let batch := s.core.takeAll rns.readValue events
  let rest := batch.2.takeAll rns.readValue later
  (∀ step ∈ batch.1, SeesAlike batch.2 rest.2 step) ∧
    RefreshesAlike (decodedMedia batch.1 { s with core := batch.2 }) batch.2 rest.2 rest.1

/-- What is decoded does not depend on the effects of the steps, nor on the endpoint. -/
theorem decodedMedia_abreast {driven : List TelephonyRnsEndpoint.TelephonyDriveStep}
    {steps : List TelephonyStep} (hsteps : driven.map (·.step) = steps)
    (endpoint : TelephonyRnsEndpoint rns) (hopen : s.eventsLeft = none) :
    ∃ s', s'.media = decodedMedia steps s ∧
      Abreast (fun _ _ => True) (driven.foldl reported { s with endpoint }) s' := by
  have hpublish := publishDriveSteps_tells (s := s)
    (steps.map fun step => { step, effects := [] }) hopen
  refine ⟨_, rfl, ?_⟩
  rw [hpublish.2]
  have hself : Abreast (fun _ _ => True) { s with endpoint } s :=
    ⟨fun _ _ _ => rfl, rfl, rfl, rfl, hopen, hopen⟩
  have hsame : driven.map (·.step) = (steps.map fun step =>
      ({ step, effects := [] } : TelephonyRnsEndpoint.TelephonyDriveStep)).map (·.step) := by
    rw [hsteps, List.map_map]
    exact (List.map_id _).symm
  exact (foldl_reported_abreast hself hsame (fun _ _ _ => trivial) fun _ _ _ _ _ => rfl).1

theorem RefreshesAlike.congr {media media' : TelephonyServiceMedia audio}
    {core final : TelephonyRuntimeCore} {laterSteps : List TelephonyStep}
    (h : RefreshesAlike media core final laterSteps)
    (htransmit : media'.opusTransmitStream = media.opusTransmitStream)
    (hreceive : media'.opusReceiveStream = media.opusReceiveStream)
    (hdecoder : ∀ linkId profile,
      media'.opusDecoderFor linkId profile = media.opusDecoderFor linkId profile) :
    RefreshesAlike media' core final laterSteps := by
  unfold RefreshesAlike at *
  simp only [stops_congr htransmit hreceive, cleared_opusDecoderFor, hdecoder] at *
  exact h

/-- A step without frames. -/
theorem reported_silent {step : TelephonyRnsEndpoint.TelephonyDriveStep}
    (h : (mediaReceivedEvent step.step : Option (TelephonyServiceEvent audio)) = none) :
    (reported s step).media = s.media ∧ (reported s step).told = s.told := by
  have hquiet : ∀ inbound, step.step.inbound = some inbound → opusFrames inbound = [] := by
    intro inbound hinbound
    unfold mediaReceivedEvent at h
    rw [hinbound, Option.bind_some] at h
    dsimp only at h
    by_cases hframes : (inbound.frameEvents.filter isFrame).length > 0
    · rw [if_pos hframes] at h
      cases h
    · rw [opusFrames, List.filterMap_eq_nil_iff]
      intro event hevent
      rw [Nat.not_lt, Nat.le_zero, List.length_eq_zero_iff, List.filter_eq_nil_iff] at hframes
      cases event with
      | frame frame => exact absurd rfl (hframes _ hevent)
      | codecChanged => rfl
  unfold reported
  rw [opusReceivedEvents_quiet hquiet, told_tell]
  refine ⟨rfl, ?_⟩
  simp only [stepReport, h, mediaEvents_append, mediaEvents_serviceEvents]
  exact List.append_nil _

theorem foldl_reported_silent {driven : List TelephonyRnsEndpoint.TelephonyDriveStep}
    (h : ∀ step ∈ driven.map (·.step),
      (mediaReceivedEvent step : Option (TelephonyServiceEvent audio)) = none) :
    (driven.foldl reported s).media = s.media ∧ (driven.foldl reported s).told = s.told := by
  induction driven generalizing s with
  | nil => exact ⟨rfl, rfl⟩
  | cons step driven ih =>
    rw [List.map_cons, List.forall_mem_cons] at h
    obtain ⟨hmedia, htold⟩ := reported_silent (s := s) h.1
    obtain ⟨hmedia', htold'⟩ := ih (s := reported s step) h.2
    exact ⟨hmedia'.trans hmedia, htold'.trans htold⟩

theorem foldl_reported_core (driven : List TelephonyRnsEndpoint.TelephonyDriveStep)
    (hopen : s.eventsLeft = none) : (driven.foldl reported s).core = s.core :=
  (foldl_reported_abreast (Abreast.refl hopen : Abreast (fun _ _ => True) s s) rfl
    (fun _ _ _ => trivial) fun _ _ _ _ _ => rfl).2.1

/-- A harmless split point, at what the call has decoded. -/
theorem Harmless.refreshesAlike {events later : List TelephonyLinkEvent}
    (h : Harmless s events later) (hopen : s.eventsLeft = none)
    (endpoint : TelephonyRnsEndpoint rns) {driven : List TelephonyRnsEndpoint.TelephonyDriveStep}
    {core : TelephonyRuntimeCore} (hcore : (s.core.takeAll rns.readValue events).2 = core)
    (hsteps : driven.map (·.step) = (s.core.takeAll rns.readValue events).1) :
    RefreshesAlike (driven.foldl reported { s with endpoint, core }).media core
      (core.takeAll rns.readValue later).2 (core.takeAll rns.readValue later).1 := by
  subst hcore
  obtain ⟨s', hs', habreast⟩ := decodedMedia_abreast
    (s := { s with core := (s.core.takeAll rns.readValue events).2 }) hsteps endpoint hopen
  refine h.2.congr ?_ ?_ fun linkId profile => ?_
  · rw [← hs', habreast.transmit]
  · rw [← hs', habreast.receive]
  · rw [← hs', habreast.decoder linkId profile trivial]

/-! ## Runs -/

/-- The link events that these calls drive. -/
def drivenEvents (ts : List (Machine.Transition (TelephonyService rns audio)
    (List TelephonyLinkEvent))) : List TelephonyLinkEvent :=
  (ts.map (·.input)).flatten

/-- Every split point of the calls is harmless. -/
def HarmlessThroughout (ts : List (Machine.Transition (TelephonyService rns audio)
    (List TelephonyLinkEvent))) : Prop :=
  ∀ before t after, ts = before ++ t :: after → t.input ≠ [] →
    Harmless t.before t.input (drivenEvents after)

theorem HarmlessThroughout.tail {t : Machine.Transition (TelephonyService rns audio)
      (List TelephonyLinkEvent)}
    {ts : List (Machine.Transition (TelephonyService rns audio) (List TelephonyLinkEvent))}
    (h : HarmlessThroughout (t :: ts)) : HarmlessThroughout ts :=
  fun before t' after hts => h (t :: before) t' after (congrArg (t :: ·) hts)

/-- Once the streams are as the end leaves them, calls without frames report nothing. -/
theorem told_of_silent {final : TelephonyRuntimeCore}
    {ts : List (Machine.Transition (TelephonyService rns audio) (List TelephonyLinkEvent))}
    (h : Machine.Trace DrivesNext s ts s') (hopen : s.eventsLeft = none)
    (hfinal : (s.core.takeAll rns.readValue (drivenEvents ts)).2 = final)
    (hsilent : ∀ step ∈ (s.core.takeAll rns.readValue (drivenEvents ts)).1,
      (mediaReceivedEvent step : Option (TelephonyServiceEvent audio)) = none)
    (hstops : drivenEvents ts ≠ [] → stops s.media final = [])
    (hharmless : HarmlessThroughout ts) : s'.told = s.told := by
  induction h with
  | nil => rfl
  | @cons s s₁ s' events ts head tail ih =>
    have hdriven : drivenEvents (⟨s, events, s₁⟩ :: ts) = events ++ drivenEvents ts := rfl
    rw [hdriven, TelephonyRuntimeCore.takeAll_append] at hfinal hsilent
    by_cases hevents : events = []
    · subst hevents
      obtain ⟨endpoint, rfl⟩ := head.idle
      exact ih hopen hfinal hsilent hstops hharmless.tail
    · obtain ⟨endpoint, driven, hsteps, hrefreshed⟩ := head.refreshed hopen hevents
      have halike := (hharmless [] _ ts rfl hevents).refreshesAlike hopen endpoint rfl hsteps
      generalize hcore : (s.core.takeAll rns.readValue events).2 = core at *
      rw [List.forall_mem_append] at hsilent
      obtain ⟨hmedia, htold⟩ := foldl_reported_silent (s := { s with endpoint, core })
        (by rw [hsteps]; exact hsilent.1)
      have hkept := foldl_reported_core (s := { s with endpoint, core }) driven hopen
      have hnone : stops s.media final = [] := hstops (List.append_ne_nil_of_left_ne_nil hevents _)
      have hstopsNone : stops s.media core = [] := by
        rw [hmedia, hfinal] at halike
        rcases halike with ⟨h, -⟩ | ⟨-, h⟩
        · exact h
        · exact h.trans hnone
      obtain ⟨htransmit, hreceive⟩ := cleared_of_stops_nil hstopsNone
      have hmedia₁ : s₁.media = cleared s.media core := by
        rw [hrefreshed.media, hkept, hmedia]
      have hcore₁ : s₁.core = core := hrefreshed.core.trans hkept
      rw [ih hrefreshed.stillOpen (by rwa [hcore₁]) (by rw [hcore₁]; exact hsilent.2)
        (fun _ => by rw [hmedia₁, stops_congr htransmit hreceive, hnone]) hharmless.tail,
        hrefreshed.told, hmedia, hkept, hstopsNone, htold]
      exact List.append_nil _

/-- A call with a harmless batch, before its refresh: a service that is abreast and reports the same
steps with the final core stays abreast for the later ones. -/
theorem DrivesNext.abreast {whole : TelephonyService rns audio} {events later : List _}
    {core : TelephonyRuntimeCore} {first : List TelephonyRnsEndpoint.TelephonyDriveStep}
    (h : DrivesNext s events s') (hopen : s.eventsLeft = none) (hevents : events ≠ [])
    (hcore : (s.core.takeAll rns.readValue events).2 = core)
    (hfinal : (core.takeAll rns.readValue later).2 = whole.core)
    (habreast : Abreast (DecodedBy whole.core ((s.core.takeAll rns.readValue events).1 ++
      (core.takeAll rns.readValue later).1)) s whole)
    (hfirst : first.map (·.step) = (s.core.takeAll rns.readValue events).1)
    (hharmless : Harmless s events later) :
    ∃ settled, Refreshed settled s' ∧ settled.core = core ∧
      Abreast (DecodedBy whole.core (core.takeAll rns.readValue later).1) settled
        (first.foldl reported whole) ∧
      (first.foldl reported whole).core = whole.core ∧
      RefreshesAlike settled.media core whole.core (core.takeAll rns.readValue later).1 := by
  obtain ⟨endpoint, driven, hsteps, hrefreshed⟩ := h.refreshed hopen hevents
  have halike := hharmless.refreshesAlike hopen endpoint rfl hsteps
  have hseen := hharmless.1
  rw [← hsteps] at hseen
  rw [hcore] at halike hseen hrefreshed
  rw [hfinal] at halike hseen
  have hmoved : Abreast _ { s with endpoint, core } whole :=
    ⟨habreast.decoder, habreast.transmit, habreast.receive, habreast.events, hopen,
      habreast.stillOpen'⟩
  obtain ⟨hdone, hkept, hkept'⟩ := foldl_reported_abreast hmoved (hsteps.trans hfirst.symm)
    (fun linkId profile hdecoded => by
      rw [hsteps] at hdecoded
      exact hdecoded.mono fun _ => List.mem_append_left _)
    hseen
  exact ⟨_, hrefreshed, hkept,
    hdone.mono fun _ _ hdecoded => hdecoded.mono fun _ => List.mem_append_right _, hkept', halike⟩

/-- The refresh after a call stopped nothing: the service is abreast of one without it. -/
theorem Refreshed.abreast {settled ahead : TelephonyService rns audio}
    {core final : TelephonyRuntimeCore} {steps : List TelephonyStep}
    (h : Refreshed settled s') (hcore : settled.core = core)
    (habreast : Abreast (DecodedBy final steps) settled ahead)
    (hnone : stops settled.media core = [])
    (hdecoder : ∀ linkId profile, DecodedBy final steps linkId profile →
      (cleared settled.media core).opusDecoderFor linkId profile =
        settled.media.opusDecoderFor linkId profile) :
    Abreast (DecodedBy final steps) s' ahead := by
  obtain ⟨htransmit, hreceive⟩ := cleared_of_stops_nil hnone
  have hmedia : s'.media = cleared settled.media core := by rw [h.media, hcore]
  have htold := h.told
  rw [hcore, hnone] at htold
  refine ⟨fun linkId profile hdecoded => ?_, ?_, ?_, ?_, h.stillOpen, habreast.stillOpen'⟩
  · rw [hmedia, hdecoder linkId profile hdecoded]
    exact habreast.decoder linkId profile hdecoded
  · rw [hmedia, htransmit, habreast.transmit]
  · rw [hmedia, hreceive, habreast.receive]
  · exact habreast.events.trans (htold.trans (List.append_nil _)).symm

/-- The refresh after a call stopped what is still to be stopped at the end, and the later calls
bring no frames. -/
theorem Refreshed.told_of_last {settled s₁ s' ahead : TelephonyService rns audio}
    {ts : List (Machine.Transition (TelephonyService rns audio) (List TelephonyLinkEvent))}
    {core : TelephonyRuntimeCore} {later : List TelephonyRnsEndpoint.TelephonyDriveStep}
    {Decoded : LinkId → Profile → Prop}
    (h : Refreshed settled s₁) (htail : Machine.Trace DrivesNext s₁ ts s')
    (hharmless : HarmlessThroughout ts) (hcore : settled.core = core)
    (hfinal : (core.takeAll rns.readValue (drivenEvents ts)).2 = ahead.core)
    (habreast : Abreast Decoded settled ahead)
    (hlater : later.map (·.step) = (core.takeAll rns.readValue (drivenEvents ts)).1)
    (hsilent : ∀ step ∈ (core.takeAll rns.readValue (drivenEvents ts)).1,
      (mediaReceivedEvent step : Option (TelephonyServiceEvent audio)) = none)
    (hstops : stops settled.media core = stops settled.media ahead.core) :
    s'.told = (later.foldl reported ahead).told ++
      mediaEvents (stops (later.foldl reported ahead).media ahead.core) := by
  have hcore₁ : s₁.core = core := h.core.trans hcore
  have hmedia₁ : s₁.media = cleared settled.media core := by rw [h.media, hcore]
  have htold : settled.told = ahead.told := habreast.events.symm
  have hunmoved : s'.told = s₁.told := by
    apply told_of_silent htail h.stillOpen (hcore₁ ▸ hfinal) (hcore₁ ▸ hsilent) ?_ hharmless
    intro _
    rw [hmedia₁, stops_cleared hstops]
  rw [← hlater] at hsilent
  obtain ⟨hmedia, hahead⟩ := foldl_reported_silent (s := ahead) hsilent
  rw [hunmoved, h.told, hcore, hstops, hmedia, hahead, htold,
    stops_congr habreast.transmit habreast.receive]

/-- A service that is abreast and reports the same steps with the final core has told the same, up
to the streams that its refresh still has to stop. -/
theorem told_of_harmless {whole : TelephonyService rns audio}
    {ts : List (Machine.Transition (TelephonyService rns audio) (List TelephonyLinkEvent))}
    {driven : List TelephonyRnsEndpoint.TelephonyDriveStep}
    (h : Machine.Trace DrivesNext s ts s') (hopen : s.eventsLeft = none)
    (hfinal : (s.core.takeAll rns.readValue (drivenEvents ts)).2 = whole.core)
    (habreast : Abreast
      (DecodedBy whole.core (s.core.takeAll rns.readValue (drivenEvents ts)).1) s whole)
    (hdriven : driven.map (·.step) = (s.core.takeAll rns.readValue (drivenEvents ts)).1)
    (hsome : drivenEvents ts ≠ []) (hharmless : HarmlessThroughout ts) :
    s'.told = (driven.foldl reported whole).told ++
      mediaEvents (stops (driven.foldl reported whole).media whole.core) := by
  induction h generalizing whole driven with
  | nil => exact absurd rfl hsome
  | @cons s s₁ s' events ts head tail ih =>
    by_cases hevents : events = []
    · subst hevents
      obtain ⟨endpoint, rfl⟩ := head.idle
      have hmoved : Abreast
          (DecodedBy whole.core (s.core.takeAll rns.readValue (drivenEvents ts)).1)
          { s with endpoint } whole :=
        ⟨habreast.decoder, habreast.transmit, habreast.receive, habreast.events, hopen,
          habreast.stillOpen'⟩
      exact ih hopen hfinal hmoved hdriven hsome hharmless.tail
    have hall : drivenEvents (⟨s, events, s₁⟩ :: ts) = events ++ drivenEvents ts := rfl
    rw [hall, TelephonyRuntimeCore.takeAll_append] at hfinal habreast hdriven
    obtain ⟨first, later, rfl, hfirst, hlater⟩ := List.map_eq_append_iff.mp hdriven
    obtain ⟨settled, hrefreshed, hkept, hdone, hkept', halike⟩ := head.abreast hopen hevents rfl
      hfinal habreast hfirst (hharmless [] _ ts rfl hevents)
    generalize (s.core.takeAll rns.readValue events).2 = core at *
    rw [List.foldl_append, ← hkept']
    rw [← hkept'] at hfinal hdone halike
    generalize first.foldl reported whole = ahead at *
    have hcore₁ : s₁.core = core := hrefreshed.core.trans hkept
    have hfinal₁ : (s₁.core.takeAll rns.readValue (drivenEvents ts)).2 = ahead.core := by
      rwa [hcore₁]
    have hlast := hrefreshed.told_of_last tail hharmless.tail hkept hfinal hdone hlater
    by_cases hrest : drivenEvents ts = []
    · rw [hrest] at hlast hfinal
      refine hlast (fun step hstep => by cases hstep) ?_
      rw [← hfinal]
      rfl
    · rcases halike with ⟨hnone, hdecoder⟩ | ⟨hsilent, hstops⟩
      · have habreast₁ := hrefreshed.abreast hkept hdone hnone hdecoder
        rw [← hcore₁] at habreast₁ hlater
        exact ih hrefreshed.stillOpen hfinal₁ habreast₁ hlater hrest hharmless.tail
      · exact hlast hsilent hstops

/-- **The media, stream and error events do not depend on the batches** if every split point is
harmless. -/
theorem media_events_of_batches {split whole : TelephonyService rns audio}
    {ts : List (Machine.Transition (TelephonyService rns audio) (List TelephonyLinkEvent))}
    (hopen : s.eventsLeft = none) (hsplit : Machine.Trace DrivesNext s ts split)
    (hwhole : DrivesNext s (drivenEvents ts) whole) (hharmless : HarmlessThroughout ts) :
    split.events.filter (·.isMedia) = whole.events.filter (·.isMedia) := by
  by_cases hevents : drivenEvents ts = []
  · have hsilent : ∀ step ∈ (s.core.takeAll rns.readValue (drivenEvents ts)).1,
        (mediaReceivedEvent step : Option (TelephonyServiceEvent audio)) = none := by
      rw [hevents]
      intro step hstep
      cases hstep
    have hidle := told_of_silent hsplit hopen rfl hsilent (absurd hevents) hharmless
    rw [hevents] at hwhole
    obtain ⟨endpoint, rfl⟩ := hwhole.idle
    exact hidle
  · obtain ⟨endpoint, driven, hsteps, hrefreshed⟩ := hwhole.refreshed hopen hevents
    have hmoved (core : TelephonyRuntimeCore) (steps : List TelephonyStep) :
        Abreast (DecodedBy core steps) s { s with endpoint, core } :=
      ⟨fun _ _ _ => rfl, rfl, rfl, rfl, hopen, hopen⟩
    have hahead := hmoved (s.core.takeAll rns.readValue (drivenEvents ts)).2
      (s.core.takeAll rns.readValue (drivenEvents ts)).1
    have hcore : (s.core.takeAll rns.readValue (drivenEvents ts)).2 = ({ s with
        endpoint, core := (s.core.takeAll rns.readValue (drivenEvents ts)).2 } :
          TelephonyService rns audio).core := rfl
    have hkept := foldl_reported_core (s := { s with
      endpoint, core := (s.core.takeAll rns.readValue (drivenEvents ts)).2 }) driven hopen
    have htold := told_of_harmless hsplit hopen hcore hahead hsteps hevents hharmless
    rw [← hkept, ← hrefreshed.told] at htold
    exact htold

/-- Nothing follows the last batch. -/
theorem Harmless.last (s : TelephonyService rns audio) (events : List TelephonyLinkEvent) :
    Harmless s events [] :=
  ⟨fun _ _ _ _ _ => rfl, .inr ⟨(fun _ h => absurd h List.not_mem_nil), rfl⟩⟩

/-- A call from this endpoint, if it is without an error: its link events and the service after
it. -/
def driveNext (fuel : Nat) (now : Instant) (endpoint : TelephonyRnsEndpoint rns)
    (s : TelephonyService rns audio) :
    Option (List TelephonyLinkEvent × TelephonyService rns audio) := do
  let (turns, _) ← TelephonyRnsEndpoint.driveTurns fuel { s with endpoint }.line
  let (_, s') ← driveReady fuel now { s with endpoint }
  if TelephonyRnsEndpoint.firstError turns = none then
    pure (TelephonyRnsEndpoint.receivedEvents turns, s')
  else none

theorem DrivesNext.of_driveNext {fuel : Nat} {now : Instant} {endpoint : TelephonyRnsEndpoint rns}
    {events : List TelephonyLinkEvent} (h : driveNext fuel now endpoint s = some (events, s')) :
    DrivesNext s events s' := by
  obtain ⟨⟨turns, last⟩, hturns, h⟩ := Option.bind_eq_some_iff.mp h
  obtain ⟨⟨continues, s₁⟩, hdrive, h⟩ := Option.bind_eq_some_iff.mp h
  dsimp only at h
  by_cases hok : TelephonyRnsEndpoint.firstError turns = none
  · rw [if_pos hok] at h
    cases h
    exact ⟨endpoint, fuel, now, turns, last, continues, hturns, hok, rfl, hdrive⟩
  · rw [if_neg hok] at h
    cases h

/-- The endpoint with these packets and closures to report. -/
def reporting (endpoint : TelephonyRnsEndpoint rns) (packets : List (List UInt8))
    (closed : List LinkId) : TelephonyRnsEndpoint rns :=
  { endpoint with
    inbox.established := [], inbox.identified := [], inbox.closed := closed
    inbox.packets := packets.map fun plaintext => (plaintext, .replicate 16 1) }

/-- The caller of a new service is answered, and echoes the answer. -/
def callEstablished : Option (TelephonyService Rns.plain Audio.plain) := do
  let (_, s) ← (calledBy 8 []).perform (.driveReady 6 0)
  let (_, s) ← s.perform (.control (.answer (.replicate 16 1)) 1 0)
  let (_, s) ← s.perform (.outside (reporting s.endpoint [[0x81, 0x00, 0x91, 0x06]] []) s.media)
  (s.perform (.driveReady 6 2)).map (·.2)

theorem callEstablished_trace {s : TelephonyService Rns.plain Audio.plain}
    (h : callEstablished = some s) : ∃ us, Machine.Trace Performs (calledBy 8 []) us s := by
  unfold callEstablished at h
  obtain ⟨⟨_, s₁⟩, hring, h⟩ := Option.bind_eq_some_iff.mp h
  obtain ⟨⟨_, s₂⟩, hanswer, h⟩ := Option.bind_eq_some_iff.mp h
  obtain ⟨⟨_, s₃⟩, hecho, h⟩ := Option.bind_eq_some_iff.mp h
  obtain ⟨⟨_, s₄⟩, hestablish, rfl⟩ := Option.map_eq_some_iff.mp h
  exact ⟨_, .cons ⟨_, hring⟩ (.cons ⟨_, hanswer⟩ (.cons ⟨_, hecho⟩
    (.cons ⟨_, hestablish⟩ (.nil s₄))))⟩

/-- A packet with an Opus frame. -/
def opusPacket : List UInt8 := [0x81, 0x01, 0xC4, 0x02, 0x01, 0x00]

/-- Decoders without content are alike. -/
theorem opusDecoderFor_plain (media : TelephonyServiceMedia Audio.plain) (linkId : LinkId)
    (profile : Profile) : media.opusDecoderFor linkId profile = .ok () := by
  unfold TelephonyServiceMedia.opusDecoderFor
  split <;> rfl

/-- Two packets of an established call. -/
theorem media_events_of_batches_packets :
    ∃ (s split whole : TelephonyService Rns.plain Audio.plain)
      (ts : List (Machine.Transition (TelephonyService Rns.plain Audio.plain)
        (List TelephonyLinkEvent))),
      Machine.Trace DrivesNext s ts split ∧ ts.length = 2 ∧ DrivesNext s (drivenEvents ts) whole ∧
        split.events.filter (·.isMedia) = whole.events.filter (·.isMedia) := by
  have hrun : (callEstablished.bind fun s =>
      (driveNext 6 3 (reporting s.endpoint [opusPacket] []) s).bind fun first =>
        (driveNext 6 4 (reporting first.2.endpoint [opusPacket] []) first.2).bind fun second =>
          (driveNext 6 4 (reporting s.endpoint [opusPacket, opusPacket] []) s).map fun all =>
            let batch := s.core.takeAll Rns.plain.readValue first.1
            let rest := batch.2.takeAll Rns.plain.readValue second.1
            (all.1 == first.1 ++ second.1, s.eventsLeft.isNone,
              decide (batch.2.activeCall = rest.2.activeCall),
              (stops (decodedMedia batch.1 { s with core := batch.2 }) batch.2).isEmpty)) =
      some (true, true, true, true) := by decide +kernel
  obtain ⟨s, -, hrun⟩ := Option.bind_eq_some_iff.mp hrun
  obtain ⟨⟨events, s₁⟩, hfirst, hrun⟩ := Option.bind_eq_some_iff.mp hrun
  obtain ⟨⟨more, split⟩, hsecond, hrun⟩ := Option.bind_eq_some_iff.mp hrun
  obtain ⟨⟨all, whole⟩, hall, hrun⟩ := Option.map_eq_some_iff.mp hrun
  simp only [Prod.mk.injEq, beq_iff_eq, Option.isNone_iff_eq_none, decide_eq_true_eq,
    List.isEmpty_iff] at hrun
  obtain ⟨rfl, hopen, hcall, hstops⟩ := hrun
  have hbatches : Machine.Trace DrivesNext s [⟨s, events, s₁⟩, ⟨s₁, more, split⟩] split :=
    .cons (.of_driveNext hfirst) (.cons (.of_driveNext hsecond) (.nil split))
  have hone : DrivesNext s (drivenEvents [⟨s, events, s₁⟩, ⟨s₁, more, split⟩]) whole := by
    show DrivesNext s (events ++ (more ++ [])) whole
    rw [List.append_nil]
    exact .of_driveNext hall
  have hpacket : Harmless s events more := by
    refine ⟨fun step _ inbound _ _ => ?_, .inl ⟨hstops, fun linkId profile _ => ?_⟩⟩
    · unfold TelephonyRuntimeCore.sees
      rw [hcall]
    · rw [opusDecoderFor_plain, opusDecoderFor_plain]
  have hharmless : HarmlessThroughout [⟨s, events, s₁⟩, ⟨s₁, more, split⟩] := by
    intro before t after hts _
    rcases before with _ | ⟨_, _ | ⟨_, before⟩⟩
    · obtain ⟨rfl, rfl⟩ := List.cons.inj hts
      show Harmless s events (more ++ [])
      rwa [List.append_nil]
    · obtain ⟨-, hts⟩ := List.cons.inj hts
      obtain ⟨rfl, rfl⟩ := List.cons.inj hts
      exact .last _ _
    · obtain ⟨-, hts⟩ := List.cons.inj hts
      obtain ⟨-, hts⟩ := List.cons.inj hts
      exact absurd hts.symm (List.append_ne_nil_of_right_ne_nil _ (List.cons_ne_nil _ _))
  exact ⟨s, split, whole, _, hbatches, rfl, hone,
    media_events_of_batches hopen hbatches hone hharmless⟩

def isError : TelephonyServiceEvent audio → Bool
  | .error _ => true
  | _ => false

/-- A packet of an established call and then the closure of its link: in one batch the packet meets
`no active call`. -/
theorem closure_changes_media_events :
    ¬ ∀ (rns : Rns) (audio : Audio) (endpoint : TelephonyRnsEndpoint rns)
      (core : TelephonyRuntimeCore) (config : TelephonyServiceConfig) (now : Instant)
      (s split whole : TelephonyService rns audio)
      (us : List (Machine.Transition (TelephonyService rns audio) (Activity rns audio)))
      (ts : List (Machine.Transition (TelephonyService rns audio) (List TelephonyLinkEvent))),
      Machine.Trace Performs (.withConfig endpoint core config none now) us s →
        Machine.Trace DrivesNext s ts split → DrivesNext s (drivenEvents ts) whole →
          split.events.filter (·.isMedia) = whole.events.filter (·.isMedia) := fun hall => by
  have hrun : (callEstablished.bind fun s =>
      (driveNext 6 3 (reporting s.endpoint [opusPacket] []) s).bind fun first =>
        (driveNext 6 4 (reporting first.2.endpoint [] [.replicate 16 1]) first.2).bind fun second =>
          (driveNext 6 4 (reporting s.endpoint [opusPacket] [.replicate 16 1]) s).map fun all =>
            (all.1 == first.1 ++ second.1,
              (second.2.events.filter (·.isMedia)).any isError,
              (all.2.events.filter (·.isMedia)).any isError)) =
      some (true, false, true) := by decide +kernel
  obtain ⟨s, hestablished, hrun⟩ := Option.bind_eq_some_iff.mp hrun
  obtain ⟨⟨events, s₁⟩, hfirst, hrun⟩ := Option.bind_eq_some_iff.mp hrun
  obtain ⟨⟨more, split⟩, hsecond, hrun⟩ := Option.bind_eq_some_iff.mp hrun
  obtain ⟨⟨all, whole⟩, hall', hrun⟩ := Option.map_eq_some_iff.mp hrun
  obtain ⟨hevents, hkinds⟩ := Prod.mk.inj hrun
  obtain ⟨hsplit, hwhole⟩ := Prod.mk.inj hkinds
  obtain ⟨us, htrace⟩ := callEstablished_trace hestablished
  have hbatches : Machine.Trace DrivesNext s [⟨s, events, s₁⟩, ⟨s₁, more, split⟩] split :=
    .cons (.of_driveNext hfirst) (.cons (.of_driveNext hsecond) (.nil split))
  have hone : DrivesNext s all whole := .of_driveNext hall'
  rw [beq_iff_eq] at hevents
  dsimp only at hevents hsplit hwhole
  subst hevents
  rw [← List.append_nil (events ++ more), List.append_assoc] at hone
  have hsame := hall _ _ _ _ _ _ s split whole us _ htrace hbatches hone
  rw [hsame, hwhole] at hsplit
  cases hsplit

end TelephonyService

end Lxst.Telephony
