import RsLxst.Lib.EventOrder
import RsLxst.Telephony.Proof.Drive
import RsLxst.Telephony.Proof.Handlers
import RsLxst.Telephony.Proof.Steady

/-!
# The lifecycle of the media streams

The stream events of a direction switch in turns, and the last one tells whether a stream is
installed. `Paired owed s s'` says so of what was emitted between `s` and `s'`, once the events
`owed` are emitted too; there is one lemma for each program, and `Paired.steady` for the handlers
that touch no stream. Two programs remove a stream without an event: `pump_opus_stream` when the
frames cannot be sent, and `deliver_opus_receive_stream` when the stream is of another link or
profile (`Reported` excludes them). Together: `stream_events_pair`.
-/

set_option autoImplicit false

namespace Lxst.Telephony

open EventOrder Program

variable {rns : Rns} {audio : Audio}

inductive Direction
  | transmit
  | receive
  deriving DecidableEq

/-- Whether the event starts or stops a stream of the direction. -/
def TelephonyServiceEvent.edge (direction : Direction) :
    TelephonyServiceEvent audio → Option Bool
  | .opusTransmitStreamStarted .. | .audioTransmitStreamStarted .. =>
    if direction = .transmit then some true else none
  | .opusTransmitStreamStopped .. | .audioTransmitStreamStopped .. =>
    if direction = .transmit then some false else none
  | .opusReceiveStreamStarted .. | .audioReceiveStreamStarted .. =>
    if direction = .receive then some true else none
  | .opusReceiveStreamStopped .. | .audioReceiveStreamStopped .. =>
    if direction = .receive then some false else none
  | _ => none

/-- The starts and stops of the direction's streams, in order. -/
def edges (direction : Direction) (events : List (TelephonyServiceEvent audio)) : List Bool :=
  events.filterMap (·.edge direction)

@[simp] theorem edges_nil (direction : Direction) :
    edges direction ([] : List (TelephonyServiceEvent audio)) = [] := rfl

@[simp] theorem edges_append (direction : Direction)
    (events more : List (TelephonyServiceEvent audio)) :
    edges direction (events ++ more) = edges direction events ++ edges direction more :=
  List.filterMap_append

theorem TelephonyServiceEvent.published_edge (direction : Direction)
    (event : TelephonyServiceEvent audio) :
    event.published.edge direction = event.edge direction := by
  cases event <;> simp only [published] <;> first | rfl | (split <;> rfl)

@[simp] theorem edges_published (direction : Direction)
    (events : List (TelephonyServiceEvent audio)) :
    edges direction (events.map (·.published)) = edges direction events := by
  unfold edges
  rw [List.filterMap_map]
  exact List.filterMap_congr fun event _ => event.published_edge direction

theorem edges_serviceEvents (audio : Audio) (direction : Direction)
    (commands : List TelephonyCommand) :
    edges direction (serviceEventsFromCommands commands : List (TelephonyServiceEvent audio)) =
      [] := by
  unfold edges serviceEventsFromCommands
  rw [List.filterMap_filterMap, List.filterMap_eq_nil_iff]
  intro command _
  cases command <;> rfl

theorem edges_mediaReceived (audio : Audio) (direction : Direction) (step : TelephonyStep) :
    edges direction (mediaReceivedEvent step : Option (TelephonyServiceEvent audio)).toList =
      [] := by
  obtain hnone | ⟨linkId, frames, hsome⟩ := mediaReceivedEvent_cases audio step
  · rw [hnone]
    rfl
  · rw [hsome]
    rfl

namespace TelephonyServiceMedia

/-- Whether a stream of the direction is installed. -/
def installed (media : TelephonyServiceMedia audio) : Direction → Bool
  | .transmit => media.opusTransmitStream.isSome
  | .receive => media.opusReceiveStream.isSome

end TelephonyServiceMedia

namespace TelephonyService

variable {s s' s'' : TelephonyService rns audio} {owed : List (TelephonyServiceEvent audio)}

/-! ## Pairing -/

/-- The stream events emitted between `s` and `s'`, and then the owed ones, take each direction
from what was installed to what is installed. -/
structure Paired (owed : List (TelephonyServiceEvent audio)) (s s' : TelephonyService rns audio) :
    Prop where
  stillOpen : s'.eventsLeft = none
  emitted : ∃ new, s'.events = s.events ++ new ∧ ∀ direction,
    Toggles (s.media.installed direction) (edges direction (new ++ owed))
      (s'.media.installed direction)

theorem Paired.refl (hopen : s.eventsLeft = none) : Paired [] s s :=
  ⟨hopen, [], (List.append_nil _).symm, fun _ => rfl⟩

theorem Paired.trans (h : Paired [] s s') (h' : Paired owed s' s'') : Paired owed s s'' := by
  obtain ⟨new, hnew, hpairs⟩ := h.emitted
  obtain ⟨more, hmore, hpairs'⟩ := h'.emitted
  refine ⟨h'.stillOpen, new ++ more, ?_, fun direction => ?_⟩
  · rw [hmore, hnew, List.append_assoc]
  · have hfirst := hpairs direction
    rw [List.append_nil] at hfirst
    rw [List.append_assoc, edges_append]
    exact hfirst.append (hpairs' direction)

/-- What neither emits nor installs or removes a stream. -/
theorem Paired.keep (h : Paired owed s s') (hleft : s''.eventsLeft = s'.eventsLeft)
    (hevents : s''.events = s'.events)
    (hmedia : ∀ direction, s''.media.installed direction = s'.media.installed direction) :
    Paired owed s s'' := by
  obtain ⟨new, hnew, hpairs⟩ := h.emitted
  refine ⟨hleft.trans h.stillOpen, new, hevents.trans hnew, fun direction => ?_⟩
  rw [hmedia]
  exact hpairs direction

theorem Paired.of_keep (hopen : s.eventsLeft = none) (hleft : s'.eventsLeft = s.eventsLeft)
    (hevents : s'.events = s.events)
    (hmedia : ∀ direction, s'.media.installed direction = s.media.installed direction) :
    Paired [] s s' :=
  (Paired.refl hopen).keep hleft hevents hmedia

/-- What changes the streams owes the events. -/
theorem Paired.of_owed (hopen : s.eventsLeft = none) (hleft : s'.eventsLeft = s.eventsLeft)
    (hevents : s'.events = s.events)
    (hmedia : ∀ direction, Toggles (s.media.installed direction) (edges direction owed)
      (s'.media.installed direction)) : Paired owed s s' :=
  ⟨hleft.trans hopen, [], by rw [hevents, List.append_nil], hmedia⟩

/-! ## Emitting on an open channel -/

/-- The service that has emitted these events. -/
def tell (events : List (TelephonyServiceEvent audio)) (s : TelephonyService rns audio) :
    TelephonyService rns audio :=
  { s with events := s.events ++ events.map (·.published) }

theorem tell_tell (events more : List (TelephonyServiceEvent audio)) :
    (s.tell events).tell more = s.tell (events ++ more) := by
  unfold tell
  rw [List.map_append, List.append_assoc]

theorem emitServiceEvent_open (event : TelephonyServiceEvent audio) (hopen : s.eventsLeft = none) :
    emitServiceEvent event s = (true, s.tell [event]) := by
  cases s
  dsimp only at hopen
  subst hopen
  rfl

theorem emitServiceEvents_open (events : List (TelephonyServiceEvent audio))
    (hopen : s.eventsLeft = none) : emitServiceEvents events s = (true, s.tell events) := by
  induction events generalizing s with
  | nil =>
    unfold tell
    rw [List.map_nil, List.append_nil]
    rfl
  | cons event events ih =>
    have hfirst := emitServiceEvent_open event hopen
    have hrest := ih (s := s.tell [event]) hopen
    rw [tell_tell, List.singleton_append] at hrest
    rw [← hrest]
    exact congrArg (fun r : Bool × TelephonyService rns audio =>
      (if r.1 then emitServiceEvents events else pure false : ServiceM rns audio Bool) r.2) hfirst

/-- Owed events, or events of no stream, are emitted. -/
theorem Paired.tell (events : List (TelephonyServiceEvent audio))
    (h : Paired (events ++ owed) s s') : Paired owed s (s'.tell events) := by
  obtain ⟨new, hnew, hpairs⟩ := h.emitted
  refine ⟨h.stillOpen, new ++ events.map (·.published), ?_, fun direction => ?_⟩
  · unfold TelephonyService.tell
    rw [hnew, List.append_assoc]
  · have hdirection := hpairs direction
    simp only [edges_append, edges_published, List.append_assoc] at hdirection ⊢
    exact hdirection

/-- Events of no stream may be emitted at any time. -/
theorem Paired.other (h : Paired owed s s') (events : List (TelephonyServiceEvent audio))
    (hevents : ∀ direction, edges direction events = []) : Paired (events ++ owed) s s' := by
  obtain ⟨new, hnew, hpairs⟩ := h.emitted
  refine ⟨h.stillOpen, new, hnew, fun direction => ?_⟩
  have hdirection := hpairs direction
  rw [edges_append] at hdirection ⊢
  rw [edges_append, hevents, List.nil_append]
  exact hdirection

theorem Paired.emits {events : List (TelephonyServiceEvent audio)}
    (h : Paired (events ++ owed) s s') :
    wp (emitServiceEvents events) (fun sent s'' => sent = true ∧ Paired owed s s'') s' := by
  unfold wp
  rw [emitServiceEvents_open events h.stillOpen]
  exact ⟨rfl, h.tell events⟩

theorem Paired.emitOwed {event : TelephonyServiceEvent audio} (h : Paired (event :: owed) s s') :
    wp (emitServiceEvent event) (fun sent s'' => sent = true ∧ Paired owed s s'') s' := by
  unfold wp
  rw [emitServiceEvent_open event h.stillOpen]
  exact ⟨rfl, Paired.tell [event] h⟩

/-- An event of no stream. -/
theorem Paired.emit (h : Paired owed s s') {event : TelephonyServiceEvent audio}
    (hevent : ∀ direction, event.edge direction = none) :
    wp (emitServiceEvent event) (fun sent s'' => sent = true ∧ Paired owed s s'') s' := by
  refine (h.other [event] fun direction => ?_).emitOwed
  unfold edges
  rw [List.filterMap_cons_none (hevent direction), List.filterMap_nil]

theorem Paired.error (h : Paired owed s s') (error : Error) :
    wp (emitServiceError error) (fun sent s'' => sent = true ∧ Paired owed s s'') s' :=
  h.emit fun _ => rfl

/-- What was sent lets the program go on. -/
theorem wp_sent {α : Type} {p : ServiceM rns audio Bool} {q r : ServiceM rns audio α}
    {P : TelephonyService rns audio → Prop} {Q : α → TelephonyService rns audio → Prop}
    (hp : wp p (fun sent s' => sent = true ∧ P s') s) (hq : ∀ s', P s' → wp q Q s') :
    wp (do if ← p then q else r) Q s := by
  rw [wp_bind]
  refine wp_mono hp fun sent s' h => ?_
  rw [h.1]
  exact hq s' h.2

/-! ## Commands -/

/-- The streams that are stale are stopped, and the others stay. -/
theorem toggles_filter {α : Type} {stop : α → TelephonyServiceEvent audio} {direction : Direction}
    (hstop : ∀ a, (stop a).edge direction = some false) (stale : α → Bool) (stream : Option α) :
    Toggles stream.isSome (edges direction ((stream.filter stale).map stop).toList)
      (stream.filter fun a => !stale a).isSome := by
  cases stream with
  | none => exact toggles_nil false
  | some a =>
    cases h : stale a with
    | false =>
      rw [Option.filter_some_neg (by simp [h]), Option.filter_some_pos (by simp [h])]
      exact toggles_nil true
    | true =>
      have hedges : edges direction [stop a] = [false] := List.filterMap_cons_some (hstop a)
      rw [Option.filter_some_pos h, Option.filter_some_neg (by simp [h]), Option.map_some,
        Option.toList_some, hedges]
      exact ⟨rfl, rfl⟩

theorem edges_ofOption {α : Type} {event : α → TelephonyServiceEvent audio} {direction : Direction}
    (h : ∀ a, (event a).edge direction = none) (a : Option α) :
    edges direction (a.map event).toList = [] := by
  cases a with
  | none => rfl
  | some a => exact List.filterMap_cons_none (h a)

/-- Clearing the media owes the stop events that it returns. -/
theorem clearUnlessEstablished_toggles (media : TelephonyServiceMedia audio)
    (active : Option ActiveCallSnapshot) (direction : Direction) :
    Toggles (media.installed direction) (edges direction (media.clearUnlessEstablished active).1)
      ((media.clearUnlessEstablished active).2.installed direction) := by
  unfold TelephonyServiceMedia.clearUnlessEstablished
  split
  · obtain ⟨_, _, transmit, receive⟩ := media
    cases direction with
    | transmit =>
      cases transmit with
      | none => cases receive <;> rfl
      | some stream => cases receive <;> exact ⟨rfl, rfl⟩
    | receive =>
      cases receive with
      | none => cases transmit <;> rfl
      | some stream => cases transmit <;> exact ⟨rfl, rfl⟩
  · rw [edges_append]
    cases direction with
    | transmit =>
      rw [edges_ofOption (α := ActiveOpusReceiveStream audio) fun _ => rfl,
        List.append_nil]
      exact toggles_filter (fun _ => rfl) _ _
    | receive =>
      rw [edges_ofOption (α := ActiveOpusTransmitStream audio) fun _ => rfl,
        List.nil_append]
      exact toggles_filter (fun _ => rfl) _ _

theorem refresh_paired (now : Instant) (h : Paired [] s s') :
    Paired (refreshActiveTimeout now s').1 s (refreshed now s') :=
  h.trans (.of_owed h.stillOpen rfl rfl
    (clearUnlessEstablished_toggles s'.media s'.core.snapshot.activeCall))

theorem refreshAndEmit_paired (now : Instant) (h : Paired [] s s') :
    wp (refreshAndEmit now) (fun sent s'' => sent = true ∧ Paired [] s s'') s' := by
  have howed := refresh_paired now h
  rw [← List.append_nil (refreshActiveTimeout now s').1] at howed
  exact howed.emits

theorem emitSnapshot_paired (h : Paired owed s s') :
    wp emitSnapshot (fun sent s'' => sent = true ∧ Paired owed s s'') s' := h.emit fun _ => rfl

theorem publishCommands_paired (commands : List TelephonyCommand)
    (effects : List TelephonyCommandEffect) (now : Instant) (h : Paired [] s s') :
    wp (publishCommands commands effects now) (fun _ => Paired [] s) s' := by
  unfold publishCommands
  rw [wp_refresh]
  have howed := refresh_paired now h
  rw [← List.append_nil (refreshActiveTimeout now s').1] at howed
  refine wp_sent (howed.emit fun _ => rfl) fun s₁ h₁ => ?_
  refine wp_sent (h₁.other _ fun direction => edges_serviceEvents audio direction commands).emits
    fun s₂ h₂ => ?_
  refine wp_sent h₂.emits fun s₃ h₃ => ?_
  exact wp_sent (emitSnapshot_paired h₃) fun _ h₄ => h₄

/-- A method of the endpoint touches no stream. -/
theorem Paired.onEndpoint (h : Paired owed s s') (endpoint : TelephonyRnsEndpoint rns) :
    Paired owed s { s' with endpoint } := h.keep rfl rfl fun _ => rfl

theorem Paired.steady (s : TelephonyService rns audio) : Steady (Paired [] s) where
  keep h hleft hevents hmedia _ := h.keep hleft hevents fun _ => by rw [hmedia]
  emit {_ event} h hroutine := by
    have hother (direction : Direction) : event.edge direction = none := by
      cases event <;> first | rfl | cases hroutine
    exact wp_mono (h.emit hother) fun _ _ h₁ => h₁.2
  publish commands effects now h := publishCommands_paired commands effects now h
  refresh now h := wp_mono (refreshAndEmit_paired now h) fun _ _ h₁ => h₁.2

/-! ## Streams -/

/-- The codecs, and what the installed streams hold. -/
theorem Paired.media (h : Paired owed s s') {media : TelephonyServiceMedia audio}
    (hmedia : ∀ direction, media.installed direction = s'.media.installed direction) :
    Paired owed s { s' with media } := h.keep rfl rfl hmedia

/-- A stream is installed or removed, and reported. -/
theorem Paired.switch {media : TelephonyServiceMedia audio} {event : TelephonyServiceEvent audio}
    {direction : Direction} {on : Bool} (h : Paired [] s s')
    (hedge : ∀ other, event.edge other = if other = direction then some on else none)
    (hbefore : s'.media.installed direction = !on) (hafter : media.installed direction = on)
    (hother : ∀ other, other ≠ direction → media.installed other = s'.media.installed other) :
    wp (emitServiceEvent event)
      (fun _ s'' => Paired [] s s'' ∧ s''.media.installed direction = on) { s' with media } := by
  have howed : Paired [event] s { s' with media } := by
    refine h.trans (.of_owed h.stillOpen rfl rfl fun other => ?_)
    have hevent := hedge other
    by_cases hd : other = direction
    · rw [if_pos hd] at hevent
      have hedges : edges other [event] = [on] := List.filterMap_cons_some hevent
      rw [hedges, hd, hbefore]
      exact ⟨(Bool.not_not on).symm, hafter.symm⟩
    · rw [if_neg hd] at hevent
      have hedges : edges other [event] = [] := List.filterMap_cons_none hevent
      rw [hedges]
      exact (hother other hd).symm
  unfold wp
  rw [emitServiceEvent_open event howed.stillOpen]
  exact ⟨howed.tell [event], hafter⟩

theorem stopOpusStream_paired (reason : OpusTransmitStreamStopReason) (h : Paired [] s s') :
    wp (stopOpusStream reason)
      (fun _ s'' => Paired [] s s'' ∧ s''.media.installed .transmit = false) s' := by
  unfold stopOpusStream
  rw [wp_bind, wp_get]
  split
  · rename_i hnone
    exact ⟨h, congrArg Option.isSome hnone⟩
  · rename_i stream hstream
    rw [wp_bind, wp_set]
    refine h.switch (fun other => by cases other <;> rfl) (congrArg Option.isSome hstream) rfl
      fun other hne => ?_
    cases other with
    | transmit => exact absurd rfl hne
    | receive => rfl

theorem stopOpusReceiveStream_paired (reason : OpusReceiveStreamStopReason)
    (h : Paired [] s s') :
    wp (stopOpusReceiveStream reason)
      (fun _ s'' => Paired [] s s'' ∧ s''.media.installed .receive = false) s' := by
  unfold stopOpusReceiveStream
  rw [wp_bind, wp_get]
  split
  · rename_i hnone
    exact ⟨h, congrArg Option.isSome hnone⟩
  · rename_i stream hstream
    rw [wp_bind, wp_set]
    refine h.switch (fun other => by cases other <;> rfl) (congrArg Option.isSome hstream) rfl
      fun other hne => ?_
    cases other with
    | transmit => rfl
    | receive => exact absurd rfl hne

theorem startOpusReceiveStream_paired (framesTx : BoundedQueue audio.Pcm) (h : Paired [] s s') :
    wp (startOpusReceiveStream framesTx) (fun _ => Paired [] s) s' := by
  unfold startOpusReceiveStream
  rw [wp_bind, wp_get]
  split
  · exact h
  · rw [wp_bind]
    refine wp_mono (stopOpusReceiveStream_paired _ h) fun _ s₁ h₁ => ?_
    rw [wp_bind, wp_modify, wp_bind]
    refine wp_mono (h₁.1.switch (fun other => by cases other <;> rfl) h₁.2 rfl fun other hne => ?_)
      fun _ _ h₂ => h₂.1
    cases other with
    | transmit => rfl
    | receive => exact absurd rfl hne

theorem startOpusStream_paired (profile : Profile) (framesRx : Mailbox audio.Pcm)
    (h : Paired [] s s') :
    wp (startOpusStream profile framesRx) (fun _ => Paired [] s) s' := by
  unfold startOpusStream
  rw [wp_bind, wp_get]
  split
  · exact h
  · rw [wp_bind]
    refine wp_mono (stopOpusStream_paired _ h) fun _ s₁ h₁ => ?_
    rw [wp_bind, wp_modify, wp_bind]
    refine wp_mono (h₁.1.switch (fun other => by cases other <;> rfl) h₁.2 rfl fun other hne => ?_)
      fun _ _ h₂ => h₂.1
    cases other with
    | transmit => exact absurd rfl hne
    | receive => rfl

theorem startAudioStream_paired (linkId : LinkId) (gate : Option AudioTransmitGate)
    (profile : Profile) (framesRx : Mailbox audio.Pcm) (h : Paired [] s s') :
    wp (startAudioStream linkId gate profile framesRx) (fun _ => Paired [] s) s' := by
  unfold startAudioStream
  rw [wp_bind, wp_get]
  split
  · rw [wp_bind]
    refine wp_mono (startOpusStream_paired profile framesRx h) fun result s₁ h₁ => ?_
    dsimp only
    split
    · refine h₁.media fun direction => ?_
      cases direction with
      | transmit => exact Option.isSome_map
      | receive => rfl
    · exact h₁
  · exact h

/-! ## Media -/

theorem emitMediaSent_paired (linkId : LinkId) (frames : Nat) (queued : Except Error Nat)
    (h : Paired [] s s') :
    wp (emitMediaSent linkId frames queued)
      (fun result s'' => Paired [] s s'' ∧ (queued.isOk → result = .ok ())) s' := by
  cases queued with
  | error error => exact ⟨h, nofun⟩
  | ok packets =>
    unfold emitMediaSent
    dsimp only
    rw [wp_bind]
    refine wp_mono (h.emit fun _ => rfl) fun sent _ h₁ => ?_
    rw [h₁.1]
    exact ⟨h₁.2, fun _ => rfl⟩

theorem sendRawFrames_paired (bitDepth : RawBitDepth) (frames : List audio.Pcm)
    (h : Paired [] s s') : wp (sendRawFrames bitDepth frames) (fun _ => Paired [] s) s' := by
  unfold sendRawFrames
  rw [wp_bind, wp_get]
  split
  · exact h
  · rw [wp_bind, wp_onEndpoint]
    exact wp_mono (emitMediaSent_paired _ _ _ (h.onEndpoint _)) fun _ _ h₁ => h₁.1

/-- The gate of the transmit stream, if there is one, lets frames pass. -/
def gatePasses (now : Instant) (s : TelephonyService rns audio) : Bool :=
  s.media.opusTransmitStream.all fun stream => stream.gate.all fun gate => (gate.allows now).1

theorem gateAllows_paired (now : Instant) (h : Paired [] s s') :
    wp (gateAllows now)
      (fun allowed s'' => Paired [] s s'' ∧ allowed = gatePasses now s' ∧
        s''.endpoint = s'.endpoint) s' := by
  unfold gateAllows gatePasses
  rw [wp_bind, wp_get]
  split
  · rename_i stream hstream
    rw [hstream, Option.all_some]
    split
    · rename_i gate hgate
      rw [hgate, Option.all_some]
      refine ⟨h.media fun direction => ?_, rfl, rfl⟩
      cases direction with
      | transmit => exact (congrArg Option.isSome hstream).symm
      | receive => rfl
    · rename_i hgate
      rw [hgate]
      exact ⟨h, rfl, rfl⟩
  · rename_i hnone
    rw [hnone]
    exact ⟨h, rfl, rfl⟩

/-- The frames are of the established call's profile, they encode, and the endpoint takes them
unless the gate holds them back. -/
def Sendable (profile : Profile) (frames : List audio.Pcm) (now : Instant)
    (s : TelephonyService rns audio) : Prop :=
  ∃ active encoder encoded, establishedCallWith s.core profile = .ok active ∧
    s.media.opusEncoderFor active.linkId profile = .ok encoder ∧
    (codeAll audio.encodeFrame encoder frames).1 = .ok encoded ∧
    (gatePasses now s = true →
      (TelephonyRnsEndpoint.queueFrames active.linkId encoded s.endpoint).1.isOk)

theorem sendOpusFrames_paired (profile : Profile) (frames : List audio.Pcm) (now : Instant)
    (h : Paired [] s s') :
    wp (sendOpusFrames profile frames now)
      (fun result s'' => Paired [] s s'' ∧ (Sendable profile frames now s' → result = .ok ()))
      s' := by
  unfold sendOpusFrames
  rw [wp_bind, wp_get]
  split
  · rename_i error hcall
    refine ⟨h, fun ⟨active, _, _, hactive, _⟩ => ?_⟩
    cases hcall.symm.trans hactive
  rename_i active hcall
  split
  · rename_i error hencoder
    refine ⟨h, fun ⟨_, _, _, hactive, hsome, _⟩ => ?_⟩
    cases hcall.symm.trans hactive
    cases hencoder.symm.trans hsome
  rename_i encoder hencoder
  dsimp only
  rw [wp_bind, wp_set]
  have hmedia {opusEncoder : Option (ActiveOpusEncoder audio)} :
      Paired [] s { s' with media.opusEncoder := opusEncoder } :=
    h.media fun direction => by cases direction <;> rfl
  split
  · rename_i error hencoded
    refine ⟨hmedia, fun ⟨_, _, _, hactive, hsome, hok, _⟩ => ?_⟩
    cases hcall.symm.trans hactive
    cases hencoder.symm.trans hsome
    cases hencoded.symm.trans hok
  rename_i encoded hencoded
  rw [wp_bind]
  refine wp_mono (gateAllows_paired now hmedia) fun allowed s₁ ⟨h₁, hallowed, hendpoint⟩ => ?_
  cases allowed with
  | false => exact ⟨h₁, fun _ => rfl⟩
  | true =>
    rw [if_pos rfl, wp_bind, wp_onEndpoint]
    refine wp_mono (emitMediaSent_paired _ _ _ (h₁.onEndpoint _)) fun result s₂ h₂ => ?_
    refine ⟨h₂.1, fun ⟨_, _, _, hactive, hsome, hok, hqueued⟩ => h₂.2 ?_⟩
    cases hcall.symm.trans hactive
    cases hencoder.symm.trans hsome
    cases hencoded.symm.trans hok
    rw [hendpoint]
    exact hqueued hallowed.symm

theorem drainOpusStreamFrames_paired (now : Instant) (h : Paired [] s s') :
    wp (drainOpusStreamFrames now) (fun _ => Paired [] s) s' := by
  unfold drainOpusStreamFrames
  rw [wp_bind, wp_get]
  split
  · exact h
  · rename_i stream hstream
    rw [wp_bind, wp_set]
    have hmedia {stream' : ActiveOpusTransmitStream audio} :
        Paired [] s { s' with media.opusTransmitStream := some stream' } := by
      refine h.media fun direction => ?_
      cases direction with
      | transmit => exact (congrArg Option.isSome hstream).symm
      | receive => rfl
    split
    · exact hmedia
    · exact hmedia

/-- The frames that the pump takes from the source can be sent. -/
def PumpSends (now : Instant) (s : TelephonyService rns audio) : Prop :=
  ∀ profile frames sourceClosed,
    (drainOpusStreamFrames now s).1 = some (profile, frames, sourceClosed) → frames ≠ [] →
      Sendable profile frames now (drainOpusStreamFrames now s).2

theorem pumpOpusStream_paired (now : Instant) (h : Paired [] s s') (hsends : PumpSends now s') :
    wp (pumpOpusStream now) (fun _ => Paired [] s) s' := by
  unfold pumpOpusStream
  rw [wp_bind]
  have hdrained : wp (drainOpusStreamFrames now)
      (fun drained s₁ => drainOpusStreamFrames now s' = (drained, s₁) ∧ Paired [] s s₁) s' :=
    ⟨rfl, drainOpusStreamFrames_paired now h⟩
  refine wp_mono hdrained fun drained s₁ ⟨hdrain, h₁⟩ => ?_
  cases drained with
  | none => exact h₁
  | some drained =>
    obtain ⟨profile, frames, sourceClosed⟩ := drained
    have hstop {s₂ : TelephonyService rns audio} (h₂ : Paired [] s s₂) :
        wp (if sourceClosed then stopOpusStream .sourceClosed else pure true)
          (fun _ => Paired [] s) s₂ := by
      split
      · exact wp_mono (stopOpusStream_paired _ h₂) fun _ _ h₃ => h₃.1
      · exact h₂
    cases frames with
    | nil => exact hstop h₁
    | cons frame frames =>
      have hsendable := hsends profile (frame :: frames) sourceClosed (by rw [hdrain]) nofun
      rw [hdrain] at hsendable
      dsimp only
      rw [if_neg (by simp), wp_bind]
      refine wp_mono (sendOpusFrames_paired profile (frame :: frames) now h₁) fun sent s₂ h₂ => ?_
      rw [h₂.2 hsendable]
      exact hstop h₂.1

/-! ## Driven steps -/

/-- The step's Opus frames are of the established call, on this link with this profile, and they
decode. -/
def Decodes (step : TelephonyStep) (s : TelephonyService rns audio) (linkId : LinkId)
    (profile : Profile) : Prop :=
  ∃ inbound active decoder decoded, step.inbound = some inbound ∧ opusFrames inbound ≠ [] ∧
    s.core.activeCall = some active ∧ active.call.status = .established ∧
    inbound.linkId = linkId ∧ active.linkId = linkId ∧
    active.call.profile.getD Profile.DEFAULT = profile ∧
    s.media.opusDecoderFor linkId profile = .ok decoder ∧
    (codeAll audio.decodeFrame decoder (opusFrames inbound)).1 = .ok decoded

/-- An installed receive stream is of the link and the profile that the step's frames are of. -/
def Delivers (step : TelephonyStep) (s : TelephonyService rns audio) : Prop :=
  ∀ linkId profile, Decodes step s linkId profile →
    ∀ stream, s.media.opusReceiveStream = some stream →
      stream.linkId = linkId ∧ stream.profile = profile

theorem deliverOpusReceiveStream_paired (linkId : LinkId) (profile : Profile)
    (frames : List audio.Pcm) (h : Paired [] s s')
    (hstream : ∀ stream, s'.media.opusReceiveStream = some stream →
      stream.linkId = linkId ∧ stream.profile = profile) :
    wp (deliverOpusReceiveStream linkId profile frames) (fun events => Paired events s) s' := by
  unfold deliverOpusReceiveStream
  rw [wp_bind, wp_get]
  split
  · exact h
  rename_i stream hsome
  obtain ⟨hlink, hprofile⟩ := hstream stream hsome
  rw [if_neg (by simp [hlink, hprofile]), wp_bind, wp_set, wp_pure]
  generalize deliverFrames stream.framesTx frames = delivery
  obtain ⟨delivered, dropped, sinkClosed, framesTx⟩ := delivery
  refine h.trans (.of_owed h.stillOpen rfl rfl fun direction => ?_)
  have hframes : edges direction (if delivered > 0 ∨ dropped > 0 then
      [(.opusReceiveStreamFrames linkId profile delivered dropped : TelephonyServiceEvent audio)]
      else []) = [] := by split <;> rfl
  dsimp only
  rw [edges_append, hframes, List.nil_append]
  cases direction with
  | transmit => cases sinkClosed <;> rfl
  | receive =>
    unfold TelephonyServiceMedia.installed
    rw [hsome]
    cases sinkClosed with
    | false => rfl
    | true => exact ⟨rfl, rfl⟩

/-- The events to come, or an error; an error leaves nothing owed. -/
theorem opusReceivedEvents_paired (step : TelephonyStep) (h : Paired [] s s')
    (hdelivers : Delivers step s') :
    wp (opusReceivedEvents step) (fun result s'' =>
      (∃ events, result = .ok events ∧ Paired events s s'') ∨
        ∃ error, result = .error error ∧ Paired [] s s'') s' := by
  unfold opusReceivedEvents
  rw [wp_bind, wp_get]
  split
  · exact .inl ⟨[], rfl, h⟩
  rename_i inbound hinbound
  dsimp only
  split
  · exact .inl ⟨[], rfl, h⟩
  rename_i hframes
  split
  · exact .inr ⟨_, rfl, h⟩
  rename_i active hactive
  split
  · exact .inr ⟨_, rfl, h⟩
  rename_i hlink
  split
  · exact .inl ⟨[], rfl, h⟩
  rename_i hstatus
  split
  · exact .inr ⟨_, rfl, h⟩
  rename_i decoder hdecoder
  rw [wp_bind, wp_set]
  have hmedia {opusDecoder : Option (ActiveOpusDecoder audio)} :
      Paired [] s { s' with media.opusDecoder := opusDecoder } :=
    h.media fun direction => by cases direction <;> rfl
  split
  · exact .inr ⟨_, rfl, hmedia⟩
  · rename_i decoded hdecoded
    rw [not_not] at hlink hstatus
    rw [List.isEmpty_iff] at hframes
    rw [wp_bind]
    refine wp_mono (deliverOpusReceiveStream_paired _ _ _ hmedia fun stream hstream => ?_)
      fun events s₁ h₁ => .inl ⟨_, rfl, ?_⟩
    · exact hdelivers _ _ ⟨inbound, active, decoder, decoded, hinbound, hframes, hactive, hstatus,
        hlink.symm, rfl, rfl, hdecoder, hdecoded⟩ stream hstream
    · exact h₁.other [.opusFramesReceived _ _ _] fun _ => rfl

theorem stepMediaEvents_paired (step : TelephonyStep) (h : Paired [] s s')
    (hdelivers : Delivers step s') :
    wp (stepMediaEvents step)
      (fun events s'' => ∃ sent, events = some sent ∧ Paired sent s s'') s' := by
  unfold stepMediaEvents
  rw [wp_bind]
  refine wp_mono (opusReceivedEvents_paired step h hdelivers) fun result s₁ h₁ => ?_
  rcases h₁ with ⟨events, rfl, h₁⟩ | ⟨error, rfl, h₁⟩
  · exact ⟨events, rfl, h₁⟩
  · exact wp_sent (h₁.error error) fun s₂ h₂ => ⟨[], rfl, h₂⟩

theorem publishDriveStep_paired (step : TelephonyRnsEndpoint.TelephonyDriveStep)
    (h : Paired [] s s') (hdelivers : Delivers step.step s') :
    wp (publishDriveStep step) (fun sent s'' => sent = true ∧ Paired [] s s'') s' := by
  unfold publishDriveStep
  rw [wp_bind]
  refine wp_mono (stepMediaEvents_paired step.step h hdelivers) fun events s₁ h₁ => ?_
  obtain ⟨owed, rfl, h₁⟩ := h₁
  refine wp_sent (h₁.emit fun _ => rfl) fun s₂ h₂ => ?_
  refine wp_sent (h₂.other _ fun direction =>
    edges_serviceEvents audio direction step.step.commands).emits fun s₃ h₃ => ?_
  refine wp_sent (h₃.other _ fun direction =>
    edges_mediaReceived audio direction step.step).emits fun s₄ h₄ => ?_
  rw [← List.append_nil owed] at h₄
  exact h₄.emits

/-- Each step is delivered where the steps before it leave the service. -/
def DeliversAll : List TelephonyRnsEndpoint.TelephonyDriveStep → TelephonyService rns audio → Prop
  | [], _ => True
  | step :: steps, s => Delivers step.step s ∧ DeliversAll steps (publishDriveStep step s).2

theorem publishDriveSteps_paired (steps : List TelephonyRnsEndpoint.TelephonyDriveStep)
    (h : Paired [] s s') (hdelivers : DeliversAll steps s') :
    wp (publishDriveSteps steps) (fun sent s'' => sent = true ∧ Paired [] s s'') s' := by
  induction steps generalizing s' with
  | nil => exact ⟨rfl, h⟩
  | cons step steps ih =>
    have hstep : wp (publishDriveStep step) (fun sent s'' => sent = true ∧
        Paired [] s s'' ∧ DeliversAll steps s'') s' :=
      ⟨(publishDriveStep_paired step h hdelivers.1).1,
        (publishDriveStep_paired step h hdelivers.1).2, hdelivers.2⟩
    exact wp_sent hstep fun s₁ h₁ => ih h₁.1 h₁.2

theorem publishDriven_paired (result : Except Error (List TelephonyRnsEndpoint.TelephonyDriveStep))
    (now : Instant) (h : Paired [] s s')
    (hdelivers : ∀ steps, result = .ok steps → DeliversAll steps s') :
    wp (publishDriven result now) (fun _ => Paired [] s) s' := by
  unfold publishDriven
  cases result with
  | error error => exact wp_mono (h.error error) fun _ _ h => h.2
  | ok steps =>
    refine wp_sent (publishDriveSteps_paired steps h (hdelivers steps rfl)) fun s₁ h₁ => ?_
    split
    · exact h₁
    · refine wp_sent (refreshAndEmit_paired now h₁) fun s₂ h₂ => ?_
      exact wp_mono (emitSnapshot_paired h₂) fun _ _ h => h.2

/-- No installed receive stream is of another link or profile than the frames of a batch that are
delivered to it. -/
def BatchDelivers (fuel : Nat) (s : TelephonyService rns audio) : Prop :=
  ∀ turns last, TelephonyRnsEndpoint.driveTurns fuel s.line = some (turns, last) →
    ∀ steps, TelephonyRnsEndpoint.outcome turns = .ok steps →
      DeliversAll steps { s with endpoint := last.endpoint, core := last.core }

theorem driveReady_paired {fuel : Nat} {now : Instant} {continues : Bool}
    (hdriven : driveReady fuel now s = some (continues, s')) (hopen : s.eventsLeft = none)
    (hdelivers : BatchDelivers fuel s) : Paired [] s s' := by
  obtain ⟨turns, last, hturns, hpublished⟩ := driveReady_turns hdriven
  have hstart : Paired [] s { s with endpoint := last.endpoint, core := last.core } :=
    .of_keep hopen rfl rfl fun _ => rfl
  have hwp := publishDriven_paired (TelephonyRnsEndpoint.outcome turns) now hstart
    (hdelivers turns last hturns)
  rwa [wp, hpublished] at hwp

/-! ## Controls -/

theorem startOutgoingDiscovery_paired (remoteIdentity : IdentityHash) (profile : Option Profile)
    (h : Paired [] s s') :
    wp (startOutgoingDiscovery remoteIdentity profile) (fun _ => Paired [] s) s' := by
  unfold startOutgoingDiscovery
  rw [wp_bind, wp_get]
  split
  · exact wp_mono (h.error _) fun _ _ h₁ => h₁.2
  · rw [wp_bind, wp_set]
    have hpending : Paired [] s { s' with outgoingDiscovery := some ⟨remoteIdentity, profile⟩ } :=
      h.keep rfl rfl fun _ => rfl
    exact wp_mono (hpending.emit fun _ => rfl) fun _ _ h₁ => h₁.2

theorem handleHangup_paired (ringTimeout : Bool) (now : Instant) (h : Paired [] s s') :
    wp (handleHangup ringTimeout now) (fun _ => Paired [] s) s' := by
  unfold handleHangup
  rw [wp_bind, wp_get]
  split
  · rw [wp_bind, wp_set]
    have hcancelled : Paired [] s { s' with outgoingDiscovery := none } :=
      h.keep rfl rfl fun _ => rfl
    exact wp_mono (hcancelled.emit fun _ => rfl) fun _ _ h₁ => h₁.2
  · exact reportControl_steady (Paired.steady s) _ now (h.keep rfl rfl fun _ => rfl)

/-- A refresh, and then a program that ends paired. -/
theorem refreshThen_paired {q : ServiceM rns audio Bool} (now : Instant) (h : Paired [] s s')
    (hq : ∀ s'', Paired [] s s'' → wp q (fun _ => Paired [] s) s'') :
    wp (do if ← refreshAndEmit now then q else pure false) (fun _ => Paired [] s) s' :=
  wp_sent (refreshAndEmit_paired now h) hq

theorem handleControl_paired (control : TelephonyControl audio) (now : Instant) (entropy : Nat)
    (h : Paired [] s s') :
    wp (handleControl control now entropy) (fun _ => Paired [] s) s' := by
  have hreport {p : ServiceM rns audio (Except Error Unit)} (hp : wp p (fun _ => Paired [] s) s') :
      wp (do reportError (← p)) (fun _ => Paired [] s) s' := by
    rw [wp_bind]
    exact wp_mono hp fun result s₁ h₁ => reportError_steady (Paired.steady s) result h₁
  have hsend (profile : Profile) (frames : List audio.Pcm) :
      wp (do reportError (← sendOpusFrames profile frames now)) (fun _ => Paired [] s) s' :=
    hreport (wp_mono (sendOpusFrames_paired profile frames now h) fun _ _ h₁ => h₁.1)
  cases control with
  | announce => exact handleAnnounce_steady (Paired.steady s) now entropy h
  | call remoteIdentity profile => exact startOutgoingDiscovery_paired remoteIdentity profile h
  | answer linkId => exact handleAnswer_steady (Paired.steady s) linkId now h
  | hangup ringTimeout => exact handleHangup_paired ringTimeout now h
  | sendRawFrames bitDepth frames => exact hreport (sendRawFrames_paired bitDepth frames h)
  | sendAudioFrames profile frames => exact hsend profile frames
  | sendOpusFrames profile frames => exact hsend profile frames
  | startAudioStream linkId gate profile frames =>
    exact hreport (startAudioStream_paired linkId gate profile frames h)
  | startOpusStream profile frames => exact hreport (startOpusStream_paired profile frames h)
  | stopAudioStream | stopOpusStream =>
    exact wp_mono (stopOpusStream_paired _ h) fun _ _ h₁ => h₁.1
  | startAudioReceiveStream frames | startOpusReceiveStream frames =>
    exact hreport (startOpusReceiveStream_paired frames h)
  | stopAudioReceiveStream | stopOpusReceiveStream =>
    exact wp_mono (stopOpusReceiveStream_paired _ h) fun _ _ h₁ => h₁.1
  | switchProfile profile => exact handleSwitchProfile_steady (Paired.steady s) profile now h
  | setExternalBusy busy => exact handleSetExternalBusy_steady (Paired.steady s) busy now h
  | setAccessPolicy access => exact h.keep rfl rfl fun _ => rfl
  | shutdown => exact h

/-! ## Timers -/

theorem handleInternal_paired (event : TelephonyInternalEvent) (now : Instant) (entropy : Nat)
    (h : Paired [] s s') :
    wp (handleInternal event now entropy) (fun _ => Paired [] s) s' := by
  obtain ⟨remoteIdentity, profile, result⟩ := event
  unfold handleInternal
  simp only [wp_bind, wp_get]
  split
  · exact h
  rw [wp_bind, wp_set, wp_bind]
  have hbegin : wp (beginOutgoing remoteIdentity profile result entropy)
      (fun _ => Paired [] s) { s' with outgoingDiscovery := none } := by
    unfold beginOutgoing wp
    cases result with
    | error error => exact h.keep rfl rfl fun _ => rfl
    | ok peer => exact h.keep rfl rfl fun _ => rfl
  refine wp_mono hbegin fun result s₁ h₁ => ?_
  split
  · refine refreshThen_paired now h₁ fun s₂ h₂ => ?_
    refine wp_sent (h₂.emit fun _ => rfl) fun s₃ h₃ => ?_
    exact wp_mono (emitSnapshot_paired h₃) fun _ _ h₄ => h₄.2
  · exact wp_mono (h₁.emit fun _ => rfl) fun _ _ h₂ => h₂.2

/-! ## The end of the loop -/

/-- The stop events of the last streams are sent, and the timers dropped. -/
theorem Paired.cleared (h : Paired [] s s') {activeTimeout : Option TelephonyServiceTimeout}
    {answering : Option TelephonyAnsweringState} :
    wp (emitServiceEvents (s'.media.clearUnlessEstablished none).1)
      (fun _ s'' => Paired [] s { s'' with activeTimeout, answering })
      { s' with media := (s'.media.clearUnlessEstablished none).2 } := by
  have howed : Paired ((s'.media.clearUnlessEstablished none).1 ++ []) s
      { s' with media := (s'.media.clearUnlessEstablished none).2 } := by
    rw [List.append_nil]
    exact h.trans (.of_owed h.stillOpen rfl rfl (clearUnlessEstablished_toggles s'.media none))
  exact wp_mono howed.emits fun _ _ h₁ => h₁.2.keep rfl rfl fun _ => rfl

theorem shutdown_paired (now : Instant) (h : Paired [] s s') :
    wp (shutdown now) (fun _ => Paired [] s) s' := by
  unfold shutdown
  rw [wp_bind, wp_modify, wp_bind, wp_get]
  dsimp only
  rw [wp_bind, wp_set]
  have hshutdown : Paired [] s
      { s' with outgoingDiscovery := none, core := s'.core.shutdown.2 } := h.keep rfl rfl fun _ => rfl
  split
  · rw [wp_bind]
    refine wp_mono (controlCommands_steady (Paired.steady s) _ now hshutdown) fun _ s₁ h₁ => ?_
    rw [wp_bind, wp_get, wp_bind, wp_set, wp_bind]
    exact h₁.cleared
  · rw [wp_bind, wp_get, wp_bind, wp_set, wp_bind]
    exact hshutdown.cleared

theorem stop_paired (now : Instant) (h : Paired [] s s') :
    wp (stop now) (fun _ => Paired [] s) s' := by
  unfold stop
  rw [wp_bind]
  refine wp_mono (shutdown_paired now h) fun _ s₁ h₁ => ?_
  unfold deregisterDestinations
  rw [wp_bind, wp_bind, wp_get]
  refine wp_mono (onEndpointAll_steady (Paired.steady s) _ h₁) fun _ s₂ h₂ => ?_
  rw [wp_bind]
  exact wp_mono (h₂.emit fun _ => rfl) fun _ _ h₃ => h₃.2

/-! ## Runs -/

/-- The activity finishes with this state. What is outside the service reads, writes and closes
the streams; it neither installs nor removes one. -/
def Happens (s : TelephonyService rns audio) (activity : Activity rns audio)
    (s' : TelephonyService rns audio) : Prop :=
  Performs s activity s' ∧ ∀ endpoint media, activity = .outside endpoint media →
    ∀ direction, media.installed direction = s.media.installed direction

/-- What a pump takes from the source can be sent, and a batch delivers nothing to a receive stream
of another link or profile. -/
def Reported (s : TelephonyService rns audio) : Activity rns audio → Prop
  | .pumpOpusStream now => PumpSends now s
  | .driveReady fuel _ => BatchDelivers fuel s
  | _ => True

/-- The starts and stops of the direction's streams alternate, beginning with a start, and a stream
is installed exactly when the last of them is a start. -/
def StreamsPaired (s : TelephonyService rns audio) (direction : Direction) : Prop :=
  List.IsChain (· ≠ ·) (false :: edges direction s.events) ∧
    (s.media.installed direction ↔ (edges direction s.events).getLast? = some true)

theorem Happens.paired {activity : Activity rns audio} (hhappens : Happens s activity s')
    (hopen : s.eventsLeft = none) (hreported : Reported s activity) : Paired [] s s' := by
  obtain ⟨⟨continues, hperforms⟩, houtside⟩ := hhappens
  have hrefl := Paired.refl hopen
  cases activity with
  | control control now entropy =>
    exact of_performed hperforms (handleControl_paired control now entropy hrefl)
  | internal event now entropy =>
    exact of_performed hperforms (handleInternal_paired event now entropy hrefl)
  | tickReticulum =>
    cases hperforms
    exact hrefl.onEndpoint _
  | dueAnnounce now entropy =>
    exact of_performed hperforms (handleDueAnnounce_steady (Paired.steady s) now entropy hrefl)
  | driveReady fuel now => exact driveReady_paired hperforms hopen hreported
  | dueAnswerRetry now =>
    exact of_performed hperforms (handleDueAnswerRetry_steady (Paired.steady s) now hrefl)
  | dueTimeout now =>
    exact of_performed hperforms (handleDueTimeout_steady (Paired.steady s) now hrefl)
  | pumpOpusStream now =>
    exact of_performed hperforms (pumpOpusStream_paired now hrefl hreported)
  | outside endpoint media =>
    cases hperforms
    exact hrefl.keep rfl rfl (houtside endpoint media rfl)
  | stop now =>
    have hstop := stop_paired now hrefl
    cases hperforms
    exact hstop

/-- A new service, and what it has emitted since. -/
theorem Paired.streamsPaired (hevents : s.events = [])
    (hmedia : ∀ direction, s.media.installed direction = false) (h : Paired [] s s')
    (direction : Direction) : StreamsPaired s' direction := by
  obtain ⟨new, hnew, hpairs⟩ := h.emitted
  have htoggles := hpairs direction
  rw [hmedia, List.append_nil, toggles_iff] at htoggles
  unfold StreamsPaired
  rw [hnew, hevents, List.nil_append, ← htoggles.2]
  refine ⟨htoggles.1, ?_⟩
  rcases (edges direction new).getLast? with _ | _ | _ <;> simp

/-- **The stream events pair up** in every run of a new service whose event channel stays open:
after each activity the starts and stops alternate and tell what is installed, if what every pump
takes from the source can be sent and every batch delivers to a receive stream of its own link and
profile. -/
theorem stream_events_pair {endpoint : TelephonyRnsEndpoint rns} {core : TelephonyRuntimeCore}
    {config : TelephonyServiceConfig} {now : Instant} {s' : TelephonyService rns audio}
    {ts : List (Machine.Transition (TelephonyService rns audio) (Activity rns audio))}
    (h : Machine.Trace Happens (.withConfig endpoint core config none now) ts s')
    (hreported : ∀ t ∈ ts, Reported t.before t.input) :
    ∀ t ∈ ts, ∀ direction, StreamsPaired t.after direction := by
  intro t ht direction
  obtain ⟨-, -, hpaired⟩ := h.transition (I := Paired [] (.withConfig endpoint core config none now))
    (fun _ _ _ hbefore hactivity hhappens =>
      hbefore.trans (hhappens.paired hbefore.stillOpen hactivity))
    (.refl rfl) hreported t ht
  exact hpaired.streamsPaired rfl (fun direction => by cases direction <;> rfl) direction

theorem happens_inside {activity : Activity rns audio} (h : Performs s activity s')
    (hinside : ∀ endpoint media, activity ≠ .outside endpoint media) : Happens s activity s' :=
  ⟨h, fun endpoint media he => absurd he (hinside endpoint media)⟩

/-- A new service whose core has an established call. -/
def established : TelephonyService Rns.plain Audio.plain :=
  .withConfig (calledBy 8 []).endpoint
    { TelephonyRuntimeCore.new with
      activeCall := some
        { linkId := .replicate 16 1
          remoteIdentity := .replicate 16 7
          call := { CallState.incoming with status := .established } } } .default none 0

/-- A transmit stream whose source closes without a frame. -/
theorem stream_events_pair_source_closed : ∃ ts s',
    Machine.Trace Happens established ts s' ∧ ts.length = 2 ∧
      ∀ t ∈ ts, ∀ direction, StreamsPaired t.after direction := by
  have hrun : ((established.perform
      (.control (.startOpusStream Profile.DEFAULT ⟨[], false⟩) 1 0)).bind fun first =>
        (first.2.perform (.pumpOpusStream 2)).map fun second =>
          (drainOpusStreamFrames 2 first.2).1.map fun drained => drained.2.1.isEmpty) =
      some (some true) := by decide +kernel
  obtain ⟨⟨_, s⟩, hstart, hrun⟩ := Option.bind_eq_some_iff.mp hrun
  obtain ⟨⟨_, s'⟩, hpump, hempty⟩ := Option.map_eq_some_iff.mp hrun
  have htrace : Machine.Trace Happens established
      [⟨established, .control (.startOpusStream Profile.DEFAULT ⟨[], false⟩) 1 0, s⟩,
        ⟨s, .pumpOpusStream 2, s'⟩] s' :=
    .cons (happens_inside ⟨_, hstart⟩ fun _ _ h => by cases h)
      (.cons (happens_inside ⟨_, hpump⟩ fun _ _ h => by cases h) (.nil s'))
  have hsends : PumpSends 2 s := fun profile frames sourceClosed hdrained hframes => by
    rw [hdrained, Option.map_some, Option.some_inj, List.isEmpty_iff] at hempty
    exact absurd hempty hframes
  exact ⟨_, s', htrace, rfl, stream_events_pair htrace
    (List.forall_mem_cons.mpr ⟨trivial, List.forall_mem_singleton.mpr hsends⟩)⟩

/-- Audio whose encoder takes no frame of the application's. -/
def mismatched : Audio :=
  { Audio.plain with
    encodeFrame := fun encoder _ => (.error (.opus
      "Opus frame sample count 480 does not match profile sample count 1440"), encoder) }

/-- A service that a caller waits for. -/
def awaited : TelephonyService Rns.plain mismatched :=
  .withConfig (calledBy 8 []).endpoint .new .default none 0

/-- The caller's echo of the answer is on its way. -/
def echo (s : TelephonyService Rns.plain mismatched) : Activity Rns.plain mismatched :=
  .outside { s.endpoint with
    inbox.packets := [([0x81, 0x00, 0x91, 0x06], .replicate 16 1)] } s.media

/-- A frame that the encoder refuses takes the stream of an established call with it; the last
event of the direction is its start. -/
theorem refused_frame_unreported :
    ¬ ∀ (rns : Rns) (audio : Audio) (endpoint : TelephonyRnsEndpoint rns)
      (core : TelephonyRuntimeCore) (config : TelephonyServiceConfig) (now : Instant)
      (s' : TelephonyService rns audio)
      (ts : List (Machine.Transition (TelephonyService rns audio) (Activity rns audio))),
      Machine.Trace Happens (.withConfig endpoint core config none now) ts s' →
        ∀ t ∈ ts, ∀ direction, StreamsPaired t.after direction := fun hall => by
  have hrun : ((awaited.perform (.driveReady 6 0)).bind fun rings =>
      (rings.2.perform (.control (.answer (.replicate 16 1)) 1 0)).bind fun answers =>
        (answers.2.perform (echo answers.2)).bind fun echoes =>
          (echoes.2.perform (.driveReady 6 2)).bind fun establishes =>
            (establishes.2.perform
              (.control (.startOpusStream Profile.DEFAULT ⟨[()], true⟩) 3 0)).bind fun starts =>
                (starts.2.perform (.pumpOpusStream 4)).map fun pumps =>
                  (pumps.2.media.installed .transmit,
                    (edges .transmit pumps.2.events).getLast?)) =
      some (false, some true) := by decide +kernel
  obtain ⟨⟨_, s₁⟩, hring, hrun⟩ := Option.bind_eq_some_iff.mp hrun
  obtain ⟨⟨_, s₂⟩, hanswer, hrun⟩ := Option.bind_eq_some_iff.mp hrun
  obtain ⟨⟨_, s₃⟩, hecho, hrun⟩ := Option.bind_eq_some_iff.mp hrun
  obtain ⟨⟨_, s₄⟩, hestablish, hrun⟩ := Option.bind_eq_some_iff.mp hrun
  obtain ⟨⟨_, s₅⟩, hstart, hrun⟩ := Option.bind_eq_some_iff.mp hrun
  obtain ⟨⟨_, s₆⟩, hpump, hends⟩ := Option.map_eq_some_iff.mp hrun
  obtain ⟨hremoved, hlast⟩ := Prod.mk.inj hends
  have hechoes : Happens s₂ (echo s₂) s₃ := by
    refine ⟨⟨_, hecho⟩, fun endpoint media he direction => ?_⟩
    cases he
    rfl
  have htrace : Machine.Trace Happens awaited _ s₆ :=
    .cons (happens_inside ⟨_, hring⟩ fun _ _ h => by cases h)
      (.cons (happens_inside ⟨_, hanswer⟩ fun _ _ h => by cases h)
        (.cons hechoes
          (.cons (happens_inside ⟨_, hestablish⟩ fun _ _ h => by cases h)
            (.cons (happens_inside ⟨_, hstart⟩ fun _ _ h => by cases h)
              (.cons (happens_inside ⟨_, hpump⟩ fun _ _ h => by cases h) (.nil s₆))))))
  have hpaired := hall _ _ _ _ _ _ _ _ htrace ⟨s₅, .pumpOpusStream 4, s₆⟩ (by simp) .transmit
  have hinstalled := hpaired.2.mpr hlast
  rw [hremoved] at hinstalled
  cases hinstalled

end TelephonyService

end Lxst.Telephony
