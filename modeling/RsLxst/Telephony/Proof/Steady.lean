import RsLxst.Telephony.Proof.Frame

/-!
# What the handlers keep

Most handlers change the core, the endpoint and the timers, and tell of it by errors, snapshots and
driven steps, or by publishing commands. A property that survives these operations (`Steady`)
survives the handlers; there is one lemma for each.
-/

set_option autoImplicit false

namespace Lxst.Telephony

open Program

variable {rns : Rns} {audio : Audio}

/-- The events that the handlers emit themselves. -/
def TelephonyServiceEvent.routine : TelephonyServiceEvent audio → Bool
  | .error _ | .snapshot _ | .drive _ => true
  | _ => false

namespace TelephonyService

variable {I : TelephonyService rns audio → Prop} {s s' : TelephonyService rns audio}

/-- The operations of the handlers keep `I`. -/
structure Steady (I : TelephonyService rns audio → Prop) : Prop where
  keep {s s' : TelephonyService rns audio} (h : I s) (hleft : s'.eventsLeft = s.eventsLeft)
    (hevents : s'.events = s.events) (hmedia : s'.media = s.media)
    (hdiscovery : s'.outgoingDiscovery = s.outgoingDiscovery) : I s'
  emit {s : TelephonyService rns audio} {event : TelephonyServiceEvent audio} (h : I s)
    (hroutine : event.routine = true) : wp (emitServiceEvent event) (fun _ => I) s
  publish {s : TelephonyService rns audio} (commands : List TelephonyCommand)
    (effects : List TelephonyCommandEffect) (now : Instant) (h : I s) :
    wp (publishCommands commands effects now) (fun _ => I) s
  refresh {s : TelephonyService rns audio} (now : Instant) (h : I s) :
    wp (refreshAndEmit now) (fun _ => I) s

theorem Steady.onEndpoint (hI : Steady I) (h : I s) (endpoint : TelephonyRnsEndpoint rns) :
    I { s with endpoint } := hI.keep h rfl rfl rfl rfl

theorem Steady.error (hI : Steady I) (h : I s) (error : Error) :
    wp (emitServiceError error) (fun _ => I) s := hI.emit h rfl

/-! ## Commands -/

theorem reportError_steady (hI : Steady I) (result : Except Error Unit) (h : I s) :
    wp (reportError result) (fun _ => I) s := by
  cases result with
  | ok => exact h
  | error error => exact hI.error h error

theorem controlCommands_steady (hI : Steady I) (commands : Except Error (List TelephonyCommand))
    (now : Instant) (h : I s) : wp (controlCommands commands now) (fun _ => I) s := by
  unfold controlCommands
  cases commands with
  | error error => exact h
  | ok commands =>
    dsimp only
    rw [wp_bind, wp_onEndpoint]
    split
    · exact hI.onEndpoint h _
    · exact hI.publish commands _ now (hI.onEndpoint h _)

theorem reportControl_steady (hI : Steady I) (commands : Except Error (List TelephonyCommand))
    (now : Instant) (h : I s) :
    wp (do reportError (← controlCommands commands now)) (fun _ => I) s := by
  rw [wp_bind]
  refine wp_mono (controlCommands_steady hI commands now h) fun result s₁ h₁ => ?_
  exact reportError_steady hI result h₁

/-! ## Controls -/

theorem handleAnnounce_steady (hI : Steady I) (now : Instant) (entropy : Nat) (h : I s) :
    wp (handleAnnounce now entropy) (fun _ => I) s := by
  unfold handleAnnounce
  rw [wp_bind, wp_onEndpoint]
  dsimp only
  split
  · rw [wp_bind, wp_modify]
    exact reportError_steady hI _ (hI.keep h rfl rfl rfl rfl)
  · exact reportError_steady hI _ (hI.onEndpoint h _)

theorem answerExact_steady (hI : Steady I) (linkId : LinkId) (now : Instant) (h : I s) :
    wp (answerExact linkId now) (fun _ => I) s := by
  unfold answerExact
  rw [wp_bind, wp_get]
  dsimp only
  split
  · rw [wp_bind, wp_set]
    exact hI.keep h rfl rfl rfl rfl
  · rw [wp_bind, wp_set, wp_bind, wp_onEndpoint]
    split
    · rw [wp_bind, wp_modify]
      exact hI.keep h rfl rfl rfl rfl
    · rw [wp_bind, wp_modify, wp_bind]
      refine wp_mono (hI.publish _ _ now (hI.keep h rfl rfl rfl rfl)) fun result s₁ h₁ => ?_
      split
      · exact h₁
      · rw [wp_bind, wp_get]
        split
        · exact h₁
        · split <;> exact h₁

theorem handleAnswer_steady (hI : Steady I) (linkId : LinkId) (now : Instant) (h : I s) :
    wp (handleAnswer linkId now) (fun _ => I) s := by
  unfold handleAnswer
  rw [wp_bind]
  refine wp_mono (answerExact_steady hI linkId now h) fun result s₁ h₁ => ?_
  split
  · exact h₁
  · exact h₁
  · exact hI.error h₁ _

theorem handleSwitchProfile_steady (hI : Steady I) (profile : Profile) (now : Instant) (h : I s) :
    wp (handleSwitchProfile profile now) (fun _ => I) s := by
  unfold handleSwitchProfile
  rw [wp_bind, wp_get]
  exact reportControl_steady hI _ now (hI.keep h rfl rfl rfl rfl)

theorem handleSetExternalBusy_steady (hI : Steady I) (busy : Bool) (now : Instant) (h : I s) :
    wp (handleSetExternalBusy busy now) (fun _ => I) s := by
  unfold handleSetExternalBusy
  rw [wp_bind, wp_modify, wp_bind]
  refine wp_mono (hI.refresh now (hI.keep h rfl rfl rfl rfl)) fun sent s₁ h₁ => ?_
  cases sent with
  | true => exact hI.emit h₁ rfl
  | false => exact h₁

/-! ## Timers -/

theorem handleDueAnnounce_steady (hI : Steady I) (now : Instant) (entropy : Nat) (h : I s) :
    wp (handleDueAnnounce now entropy) (fun _ => I) s := by
  unfold handleDueAnnounce
  rw [wp_bind, wp_get]
  split
  · rw [wp_bind, wp_onEndpoint]
    split
    · rw [wp_bind, wp_modify, wp_pure]
      dsimp only
      split <;> exact hI.keep h rfl rfl rfl rfl
    · rw [wp_bind, wp_modify]
      have hretry : I { s with
          endpoint := (TelephonyRnsEndpoint.announce entropy s.endpoint).2
          nextAnnounceAt := some (now + announceRetryInterval s.config) } :=
        hI.keep h rfl rfl rfl rfl
      exact hI.error hretry _
  · exact h

theorem timeoutAnswering_steady (hI : Steady I) (linkId : LinkId) (now : Instant) (h : I s) :
    wp (timeoutAnswering linkId now) (fun _ => I) s := by
  unfold timeoutAnswering
  rw [wp_bind, wp_modify, wp_bind, wp_get]
  dsimp only
  split
  · rw [wp_bind, wp_set]
    exact hI.keep h rfl rfl rfl rfl
  · rw [wp_bind, wp_set, wp_bind, wp_onEndpoint, wp_bind]
    refine wp_mono (hI.publish _ _ now (hI.keep h rfl rfl rfl rfl)) fun published s₁ h₁ => ?_
    split
    · exact h₁
    · split
      · exact h₁
      · exact hI.error h₁ _

theorem sendRetry_steady (hI : Steady I) (commands : List TelephonyCommand) (h : I s) :
    wp (sendRetry commands) (fun _ => I) s := by
  unfold sendRetry
  rw [wp_bind, wp_onEndpoint]
  split
  · exact hI.onEndpoint h _
  · exact hI.onEndpoint h _
  · rw [wp_bind]
    exact hI.error (hI.onEndpoint h _) _

theorem retryAnswering_steady (hI : Steady I) (answering : TelephonyAnsweringState) (now : Instant)
    (h : I s) : wp (retryAnswering answering now) (fun _ => I) s := by
  unfold retryAnswering
  rw [wp_bind, wp_get]
  split
  · rw [wp_bind, wp_set]
    exact hI.keep h rfl rfl rfl rfl
  · rw [wp_bind]
    refine wp_mono (sendRetry_steady hI _ h) fun effects s₁ h₁ => ?_
    rw [wp_bind, wp_modify]
    have hrearmed {answering : Option TelephonyAnsweringState} : I { s₁ with answering } :=
      hI.keep h₁ rfl rfl rfl rfl
    split
    · exact hI.emit hrearmed rfl
    · exact hrearmed

theorem handleDueAnswerRetry_steady (hI : Steady I) (now : Instant) (h : I s) :
    wp (handleDueAnswerRetry now) (fun _ => I) s := by
  unfold handleDueAnswerRetry
  rw [wp_bind, wp_get]
  split
  · exact h
  split
  · exact timeoutAnswering_steady hI _ now h
  split
  · exact retryAnswering_steady hI _ now h
  · exact h

theorem handleDueTimeout_steady (hI : Steady I) (now : Instant) (h : I s) :
    wp (handleDueTimeout now) (fun _ => I) s := by
  unfold handleDueTimeout
  rw [wp_bind, wp_get]
  split
  · exact h
  split
  · exact h
  split
  · rw [wp_bind, wp_set]
    exact hI.keep h rfl rfl rfl rfl
  split
  · exact hI.refresh now h
  · exact reportControl_steady hI _ now (hI.keep h rfl rfl rfl rfl)

theorem onEndpointAll_steady (hI : Steady I) (methods : List (EndpointE rns Unit)) (h : I s) :
    wp (onEndpointAll methods) (fun _ => I) s := by
  induction methods generalizing s with
  | nil => exact h
  | cons method methods ih =>
    unfold onEndpointAll
    rw [wp_bind, wp_onEndpoint]
    exact ih (hI.onEndpoint h _)

end TelephonyService

end Lxst.Telephony
