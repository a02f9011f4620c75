import RsLxst.Telephony.Proof.Deadline

/-!
# Timers end only what they were armed for

`Holds s d linkId expiresAt`: a timer is armed for a link and a phase, the phase being named by its
`Deadline`. `Timing` says what one activity may do to the timers: one that is armed afterwards was
armed before, or is armed now with the configured duration (`arms`), and one whose call stays in its
phase is kept as it is (`keeps`). The handlers of due timers end a call only on a timer that is held
and due (`performs_ends`). `timers_end_armed` combines them over runs.
-/

set_option autoImplicit false

namespace Lxst.Telephony

open Program

variable {rns : Rns} {audio : Audio}

/-! ## Timers and phases -/

/-- The call is in the phase that the timer is for. -/
def Deadline.Phase : Deadline → CallState → Prop
  | .timeout .incomingRing, call => call.role = .incoming ∧ call.status = .ringing
  | .timeout .outgoingCall, call => call.role = .outgoing ∧ call.status ≠ .established
  | .answer, call => call.role = .incoming ∧ call.answered = true ∧ call.status = .connecting

theorem Deadline.Phase.unestablished {d : Deadline} {call : CallState} (h : d.Phase call) :
    call.status ≠ .established := by
  intro hestablished
  rcases d with ⟨_ | _⟩ | _
  · cases hestablished.symm.trans h.2
  · exact h.2 hestablished
  · cases hestablished.symm.trans h.2.2

/-- The configured duration of the timer; no answer timer is armed for none or zero. -/
def Deadline.duration (config : TelephonyServiceConfig) : Deadline → Option Duration
  | .timeout .incomingRing => config.incomingRingTimeout
  | .timeout .outgoingCall => config.outgoingCallTimeout
  | .answer => config.answerTimeout.filter (· ≠ 0)

/-- The active call is on this link and in the phase. -/
def Covers (d : Deadline) (linkId : LinkId) (core : TelephonyRuntimeCore) : Prop :=
  ∃ active, core.activeCall = some active ∧ active.linkId = linkId ∧ d.Phase active.call

theorem Covers.activeCall {d : Deadline} {linkId : LinkId} {core core' : TelephonyRuntimeCore}
    (h : Covers d linkId core) (hsame : core'.activeCall = core.activeCall) :
    Covers d linkId core' := by
  rwa [Covers, hsame]

theorem not_covers_of_none {d : Deadline} {linkId : LinkId} {core : TelephonyRuntimeCore}
    (h : core.activeCall = none) : ¬ Covers d linkId core := by
  rintro ⟨active, hactive, -⟩
  cases h.symm.trans hactive

/-- The time that an activity is given. -/
def Activity.time : Activity rns audio → Option Instant
  | .control _ now _ | .internal _ now _ | .dueAnnounce now _ | .driveReady _ now
  | .dueAnswerRetry now | .dueTimeout now | .pumpOpusStream now | .stop now => some now
  | .tickReticulum | .outside .. => none

namespace TelephonyService

variable {s s' s₁ : TelephonyService rns audio}

/-- A timer is armed. -/
def Holds (s : TelephonyService rns audio) : Deadline → LinkId → Instant → Prop
  | .timeout kind, linkId, expiresAt => s.activeTimeout = some { linkId, kind, expiresAt }
  | .answer, linkId, expiresAt =>
    ∃ answering, s.answering = some answering ∧ answering.linkId = linkId ∧
      answering.expiresAt = some expiresAt

/-- A timer is armed now: before, there was none for this link and phase, or no call in it. -/
def Arming (time : Option Instant) (d : Deadline) (linkId : LinkId) (expiresAt : Instant)
    (s : TelephonyService rns audio) : Prop :=
  ∃ now duration, time = some now ∧ d.duration s.config = some duration ∧
    expiresAt = now + duration ∧ ¬ ((∃ earlier, Holds s d linkId earlier) ∧ Covers d linkId s.core)

/-- What an activity may do to a timer (module doc). -/
structure Times (time : Option Instant) (d : Deadline) (s s' : TelephonyService rns audio) :
    Prop where
  arms : ∀ linkId expiresAt, Holds s' d linkId expiresAt →
    Holds s d linkId expiresAt ∨ Arming time d linkId expiresAt s
  keeps : ∀ linkId expiresAt, Holds s d linkId expiresAt → (d.duration s.config).isSome = true →
    Covers d linkId s.core → Covers d linkId s'.core → Holds s' d linkId expiresAt

structure Timing (time : Option Instant) (s s' : TelephonyService rns audio) : Prop where
  config : s'.config = s.config
  times : ∀ d, Times time d s s'

variable {time : Option Instant} {d : Deadline} {now : Instant}

/-- What does not touch a timer. -/
theorem Times.of_same (h : ∀ linkId expiresAt, Holds s' d linkId expiresAt ↔
    Holds s d linkId expiresAt) : Times time d s s' where
  arms linkId expiresAt hholds := .inl ((h linkId expiresAt).1 hholds)
  keeps linkId expiresAt hholds _ _ _ := (h linkId expiresAt).2 hholds

theorem Timing.of_same (hconfig : s'.config = s.config)
    (htimeout : s'.activeTimeout = s.activeTimeout) (hanswering : s'.answering = s.answering) :
    Timing time s s' := by
  refine ⟨hconfig, fun d => .of_same fun linkId expiresAt => ?_⟩
  cases d with
  | timeout kind => rw [Holds, htimeout, Holds]
  | answer => rw [Holds, hanswering, Holds]

theorem Timing.frame {links : List LinkId} (hframe : Frame links s₁ s') (h : Timing time s s₁) :
    Timing time s s' := by
  refine ⟨hframe.config.trans h.config, fun d => ?_⟩
  have hholds (linkId : LinkId) (expiresAt : Instant) :
      Holds s' d linkId expiresAt ↔ Holds s₁ d linkId expiresAt := by
    cases d with
    | timeout kind => rw [Holds, hframe.activeTimeout, Holds]
    | answer => rw [Holds, hframe.answering, Holds]
  refine ⟨fun linkId expiresAt h' => (h.times d).arms _ _ ((hholds linkId expiresAt).1 h'), ?_⟩
  intro linkId expiresAt h' hduration hcovers hcovers'
  rw [hframe.core] at hcovers'
  exact (hholds _ _).2 ((h.times d).keeps _ _ h' hduration hcovers hcovers')

theorem timing_of_frame {links : List LinkId} (h : Frame links s s') : Timing time s s' :=
  .frame h (.of_same rfl rfl rfl)

/-- A service without a call keeps no timer going. -/
theorem Timing.of_none (hconfig : s'.config = s.config) (hnone : s'.core.activeCall = none)
    (hholds : ∀ d linkId expiresAt, Holds s' d linkId expiresAt → Holds s d linkId expiresAt) :
    Timing time s s' :=
  ⟨hconfig, fun d => ⟨fun linkId expiresAt h => .inl (hholds d linkId expiresAt h),
    fun _ _ _ _ _ hcovers => absurd hcovers (not_covers_of_none hnone)⟩⟩

/-! ## A refresh -/

/-- The phase of the snapshot's call, and the timeout that is desired for it. -/
theorem desiredTimeout_eq_some_iff {config : TelephonyServiceConfig} {active : ActiveCall}
    {snapshot : ActiveCallSnapshot} (hrole : snapshot.role = active.call.role)
    (hstatus : snapshot.status = active.call.status) {kind : TelephonyServiceTimeoutKind}
    {duration : Duration} : desiredTimeout config snapshot = some (kind, duration) ↔
      (Deadline.timeout kind).Phase active.call ∧
        (Deadline.timeout kind).duration config = some duration := by
  unfold desiredTimeout
  rw [hrole, hstatus]
  cases hr : active.call.role with
  | incoming =>
    cases kind <;> by_cases hs : active.call.status = .ringing <;>
      simp [Deadline.Phase, Deadline.duration, hr, hs]
  | outgoing =>
    cases kind <;> by_cases hs : active.call.status = .established <;>
      simp [Deadline.Phase, Deadline.duration, hr, hs]

theorem refreshed_activeTimeout_none (h : s.core.activeCall = none) (now : Instant) :
    (refreshed now s).activeTimeout = none := by
  have hsnapshot : s.core.snapshot.activeCall = none := Option.map_eq_none_iff.mpr h
  dsimp only [refreshed, refreshActiveTimeout]
  rw [hsnapshot]

theorem refreshed_activeTimeout_undesired {snapshot : ActiveCallSnapshot}
    (h : s.core.snapshot.activeCall = some snapshot)
    (hdesired : desiredTimeout s.config snapshot = none) (now : Instant) :
    (refreshed now s).activeTimeout = none := by
  dsimp only [refreshed, refreshActiveTimeout]
  rw [h]
  dsimp only
  rw [hdesired]

/-- A refresh and an active timeout. -/
theorem Times.refreshed_timeout {kind : TelephonyServiceTimeoutKind}
    (hconfig : s₁.config = s.config) (htimeout : s₁.activeTimeout = s.activeTimeout) :
    Times (some now) (.timeout kind) s (refreshed now s₁) := by
  cases hactive : s₁.core.activeCall with
  | none =>
    refine ⟨fun linkId expiresAt h => ?_, fun _ _ _ _ _ hcovers =>
      absurd hcovers (not_covers_of_none hactive)⟩
    rw [Holds, refreshed_activeTimeout_none hactive] at h
    cases h
  | some active =>
    obtain ⟨snapshot, hsnapshot, hlink, hrole, hstatus, -⟩ := snapshot_activeCall hactive
    have hwanted {linkId : LinkId} (hduration : ((Deadline.timeout kind).duration s.config).isSome)
        (hcovers : Covers (.timeout kind) linkId s₁.core) : snapshot.linkId = linkId ∧
          ∃ duration, desiredTimeout s₁.config snapshot = some (kind, duration) := by
      obtain ⟨active', hactive', hlink', hphase⟩ := hcovers
      cases hactive.symm.trans hactive'
      obtain ⟨duration, hduration⟩ := Option.isSome_iff_exists.mp hduration
      rw [← hconfig] at hduration
      exact ⟨hlink.trans hlink', duration,
        (desiredTimeout_eq_some_iff hrole hstatus).mpr ⟨hphase, hduration⟩⟩
    cases hdesired : desiredTimeout s₁.config snapshot with
    | none =>
      refine ⟨fun linkId expiresAt h => ?_, fun linkId expiresAt _ hduration _ hcovers => ?_⟩
      · rw [Holds, refreshed_activeTimeout_undesired hsnapshot hdesired] at h
        cases h
      · obtain ⟨-, duration, hsome⟩ := hwanted hduration hcovers
        cases hdesired.symm.trans hsome
    | some desired =>
      obtain ⟨kind', duration⟩ := desired
      have hrefreshed := refreshed_activeTimeout_eq hsnapshot hdesired now
      rw [htimeout] at hrefreshed
      split at hrefreshed
      · exact .of_same fun linkId expiresAt => by rw [Holds, hrefreshed, Holds]
      · rename_i hother
        refine ⟨fun linkId expiresAt h => .inr ?_, fun linkId expiresAt h hduration _ hcovers => ?_⟩
        · rw [Holds, hrefreshed] at h
          cases h
          have hduration := ((desiredTimeout_eq_some_iff hrole hstatus).mp hdesired).2
          rw [hconfig] at hduration
          refine ⟨now, duration, rfl, hduration, rfl, ?_⟩
          rintro ⟨⟨earlier, hearlier⟩, -⟩
          rw [Holds] at hearlier
          simp [hearlier] at hother
        · obtain ⟨hsame, duration', hsome⟩ := hwanted hduration hcovers
          cases hdesired.symm.trans hsome
          rw [Holds] at h
          simp [h, hsame] at hother

/-- A refresh and the answer timer. -/
theorem Times.refreshed_answer (hanswering : s₁.answering = s.answering) :
    Times time .answer s (refreshed now s₁) := by
  refine ⟨?_, ?_⟩
  · rintro linkId expiresAt ⟨answering, hrefreshed, hholds⟩
    have hfilter : (refreshed now s₁).answering = s₁.answering.filter fun answering =>
        s₁.core.snapshot.activeCall.any (answeringCall answering) := rfl
    rw [hfilter, Option.filter_eq_some_iff, hanswering] at hrefreshed
    exact .inl ⟨answering, hrefreshed.1, hholds⟩
  · rintro linkId expiresAt ⟨answering, hsome, hlink, hexpires⟩ - -
      ⟨active, hactive, hactiveLink, hrole, hanswered, hstatus⟩
    have hactive : s₁.core.activeCall = some active := hactive
    obtain ⟨snapshot, hsnapshot, hlink', hrole', hstatus', hanswered'⟩ :=
      snapshot_activeCall hactive
    refine ⟨answering, ?_, hlink, hexpires⟩
    refine refreshed_answering hsnapshot (hanswering.trans hsome) ?_ now
    simp [answeringCall, hlink, hlink', hactiveLink, hrole', hrole, hanswered', hanswered, hstatus',
      hstatus]

theorem Timing.refreshed (hconfig : s₁.config = s.config)
    (htimeout : s₁.activeTimeout = s.activeTimeout) (hanswering : s₁.answering = s.answering) :
    Timing (some now) s (refreshed now s₁) := by
  refine ⟨hconfig, fun d => ?_⟩
  cases d with
  | timeout kind => exact .refreshed_timeout hconfig htimeout
  | answer => exact .refreshed_answer hanswering

/-- A refresh without a call drops all timers. -/
theorem refreshed_none (h : s.core.activeCall = none) (linkId : LinkId) (expiresAt : Instant) :
    ¬ Holds (refreshed now s) d linkId expiresAt := by
  intro hholds
  cases d with
  | timeout kind =>
    rw [Holds, refreshed_activeTimeout_none h] at hholds
    cases hholds
  | answer =>
    obtain ⟨answering, hsome, -⟩ := hholds
    have hsnapshot : s.core.snapshot.activeCall = none := Option.map_eq_none_iff.mpr h
    have hfilter : (refreshed now s).answering = s.answering.filter fun answering =>
        s.core.snapshot.activeCall.any (answeringCall answering) := rfl
    rw [hfilter, hsnapshot, Option.filter_eq_some_iff] at hsome
    cases hsome.2

theorem Holds.of_frame {links : List LinkId} (h : Frame links s s') {linkId : LinkId}
    {expiresAt : Instant} (hholds : Holds s' d linkId expiresAt) : Holds s d linkId expiresAt := by
  cases d with
  | timeout kind => rwa [Holds, h.activeTimeout] at hholds
  | answer => rwa [Holds, h.answering] at hholds

/-! ## Handlers -/

theorem Timing.controlled {commands : Except Error (List TelephonyCommand)}
    {core : TelephonyRuntimeCore} (h : Controlled commands now { s with core } s') :
    Timing (some now) s s' := by
  unfold Controlled at h
  split at h
  · exact .frame h (.of_same rfl rfl rfl)
  split at h
  · exact .frame h (.of_same rfl rfl rfl)
  · exact .frame h (.refreshed rfl rfl rfl)

/-- Commands after the end of a call leave no timer that was not there. -/
theorem Controlled.holds {commands : Except Error (List TelephonyCommand)}
    (h : Controlled commands now s s') (hnone : s.core.activeCall = none) {linkId : LinkId}
    {expiresAt : Instant} (hholds : Holds s' d linkId expiresAt) : Holds s d linkId expiresAt := by
  unfold Controlled at h
  split at h
  · exact hholds.of_frame h
  split at h
  · exact hholds.of_frame h
  · exact absurd (hholds.of_frame h) (refreshed_none hnone linkId expiresAt)

/-- An answer arms its timer anew: the call still rings. -/
theorem Timing.answered {linkId : LinkId} (h : Answered linkId now s s') :
    Timing (some now) s s' := by
  rcases h with hframe | ⟨commands, core, endpoint, hanswer, hframe⟩
  · exact timing_of_frame hframe
  rcases s.core.answerActive_cases linkId with
    ⟨error, herror⟩ | ⟨active, -, hactive, -, -, hstatus, -, -⟩
  · cases herror.symm.trans hanswer
  have hringing (linkId : LinkId) : ¬ Covers .answer linkId s.core := by
    rintro ⟨active', hactive', -, -, -, hconnecting⟩
    cases hactive.symm.trans hactive'
    cases hstatus.symm.trans hconnecting
  refine .frame hframe ⟨rfl, fun d => ?_⟩
  cases d with
  | timeout kind => exact .refreshed_timeout rfl rfl
  | answer =>
    refine ⟨?_, fun linkId _ _ _ hcovers => absurd hcovers (hringing linkId)⟩
    rintro linkId' expiresAt ⟨answering, hrefreshed, -, hexpires⟩
    have hfilter : (TelephonyService.refreshed now
        (TelephonyService.answered linkId core now s endpoint)).answering =
          (some _).filter fun answering => core.snapshot.activeCall.any (answeringCall answering) :=
      rfl
    rw [hfilter, Option.filter_eq_some_iff] at hrefreshed
    cases hrefreshed.1
    obtain ⟨duration, hduration, rfl⟩ := Option.map_eq_some_iff.mp hexpires
    exact .inr ⟨now, duration, rfl, hduration, rfl, fun h => hringing linkId' h.2⟩

theorem handleControl_timing (control : TelephonyControl audio) (now : Instant) (entropy : Nat)
    (s : TelephonyService rns audio) :
    wp (handleControl control now entropy) (fun _ => Timing (some now) s) s := by
  cases hcontrol : changesCore control with
  | false => exact wp_mono (handleControl_frame hcontrol now entropy s) fun _ _ => timing_of_frame
  | true =>
    cases control with
    | answer linkId => exact wp_mono (handleAnswer_cases linkId now s) fun _ _ => .answered
    | hangup ringTimeout =>
      refine wp_mono (handleHangup_cases ringTimeout now s) fun _ _ hcases => ?_
      rcases hcases with ⟨-, hframe⟩ | ⟨-, hcontrolled⟩
      · exact timing_of_frame hframe
      · exact .controlled hcontrolled
    | switchProfile profile =>
      exact wp_mono (handleSwitchProfile_cases profile now s) fun _ _ => .controlled
    | setExternalBusy busy =>
      refine wp_mono (handleSetExternalBusy_cases busy now s) fun _ _ hframe => ?_
      exact .frame hframe (.refreshed rfl rfl rfl)
    | setAccessPolicy access => exact .of_same rfl rfl rfl
    | _ => cases hcontrol

theorem Timing.begun {remoteIdentity : IdentityHash} {profile : Option Profile}
    {peer : RemoteTelephonyPeer} {entropy : Nat} (h : Begun remoteIdentity profile peer entropy now
      { s with outgoingDiscovery := none } s') : Timing (some now) s s' := by
  unfold Begun at h
  split at h
  · exact .frame h (.refreshed rfl rfl rfl)
  · exact .frame h (.of_same rfl rfl rfl)

theorem Timing.driven {result : Except Error (List TelephonyRnsEndpoint.TelephonyDriveStep)}
    {last : TelephonyRnsEndpoint.Line rns} {sent : Bool} (h : Driven result last now s sent s') :
    Timing (some now) s s' := by
  unfold Driven at h
  split at h
  · exact .frame h (.of_same rfl rfl rfl)
  · obtain ⟨s₁, h₁, ⟨-, h₂⟩ | h₂⟩ := h
    · exact .frame h₂ (.frame h₁ (.of_same rfl rfl rfl))
    · exact .frame h₂ (.refreshed h₁.config h₁.activeTimeout h₁.answering)

/-- Dropping the answer timer of a link whose call does not wait for an answer. -/
theorem Timing.dropAnswering {answering : TelephonyAnsweringState}
    (hanswering : s.answering = some answering)
    (hnot : ∀ active, s.core.activeCall = some active → active.linkId = answering.linkId →
      ¬ TelephonyRuntimeCore.Answering active) : Timing time s { s with answering := none } := by
  refine ⟨rfl, fun d => ?_⟩
  cases d with
  | timeout kind => exact .of_same fun _ _ => Iff.rfl
  | answer =>
    refine ⟨?_, ?_⟩
    · rintro linkId expiresAt ⟨_, ⟨⟩, -⟩
    · rintro linkId expiresAt ⟨answering', hsome, hlink, -⟩ - ⟨active, hactive, hlink', hphase⟩
      cases hanswering.symm.trans hsome
      exact absurd hphase (hnot active hactive (hlink'.trans hlink.symm))

theorem handleDueAnswerRetry_timing (now : Instant) (s : TelephonyService rns audio) :
    wp (handleDueAnswerRetry now) (fun _ => Timing (some now) s) s := by
  refine wp_mono (handleDueAnswerRetry_cases now s) fun _ s' hcases => ?_
  rcases hcases with
    rfl | ⟨nextRetryAt, hframe⟩ | ⟨answering, hanswering, ⟨-, htimedOut⟩ | ⟨herror, rfl⟩⟩
  · exact .of_same rfl rfl rfl
  · refine .frame hframe ⟨rfl, fun d => .of_same fun linkId expiresAt => ?_⟩
    cases d with
    | timeout kind => exact Iff.rfl
    | answer =>
      cases hanswering : s.answering <;> simp [Holds, hanswering]
  · unfold TimedOut at htimedOut
    rcases s.core.timeoutAnswerActive_cases answering.linkId with
      ⟨⟨error, herror⟩, hnot⟩ | ⟨active, commands, core', -, hnone, -, hok⟩
    · rw [herror] at htimedOut
      rw [htimedOut]
      exact .dropAnswering hanswering hnot
    · rw [hok] at htimedOut
      obtain ⟨endpoint, hframe⟩ := htimedOut
      refine .of_none hframe.config (by rw [hframe.core]; exact hnone) ?_
      intro d linkId expiresAt hholds
      exact absurd (hholds.of_frame hframe) (refreshed_none hnone linkId expiresAt)
  · exact .dropAnswering hanswering (TelephonyRuntimeCore.retryAnswerActive_refused herror)

theorem handleDueTimeout_timing (now : Instant) (s : TelephonyService rns audio) :
    wp (handleDueTimeout now) (fun _ => Timing (some now) s) s := by
  have hdropped (core : TelephonyRuntimeCore) (d : Deadline) (linkId : LinkId)
      (expiresAt : Instant) (h : Holds { s with activeTimeout := none, core } d linkId expiresAt) :
      Holds s d linkId expiresAt := by
    cases d with
    | timeout kind => cases h
    | answer => exact h
  refine wp_mono (handleDueTimeout_cases now s) fun _ s' hcases => ?_
  rcases hcases with ⟨-, rfl | ⟨hnone, rfl⟩ | hframe⟩ | ⟨timeout, -, hcontrolled⟩
  · exact .of_same rfl rfl rfl
  · exact .of_none rfl hnone (hdropped s.core)
  · exact .frame hframe (.refreshed rfl rfl rfl)
  · have hnone := hangupActive_none s.core (timeout.kind = .incomingRing)
    obtain ⟨hcore, hconfig⟩ := hcontrolled.same
    refine .of_none hconfig (by rw [hcore]; exact hnone) fun d linkId expiresAt hholds => ?_
    exact hdropped _ d linkId expiresAt (Controlled.holds hcontrolled hnone hholds)

/-- **What one activity of the loop does to the timers.** -/
theorem performs_timing {activity : Activity rns audio} (h : Performs s activity s')
    (hgoes : ∀ now, activity ≠ .stop now) : Timing activity.time s s' := by
  obtain ⟨continues, h⟩ := h
  cases activity with
  | control control now entropy => exact of_performed h (handleControl_timing control now entropy s)
  | internal event now entropy =>
    rcases of_performed h (handleInternal_cases event now entropy s) with
      hframe | ⟨remoteIdentity, profile, peer, -, hbegun⟩
    · exact timing_of_frame hframe
    · exact .begun hbegun
  | tickReticulum =>
    cases h
    exact .of_same rfl rfl rfl
  | dueAnnounce now entropy =>
    exact timing_of_frame (of_performed h (handleDueAnnounce_frame now entropy s))
  | driveReady fuel now =>
    obtain ⟨result, last, -, hdriven⟩ := driveReady_cases h
    exact .driven hdriven
  | dueAnswerRetry now => exact of_performed h (handleDueAnswerRetry_timing now s)
  | dueTimeout now => exact of_performed h (handleDueTimeout_timing now s)
  | pumpOpusStream now => exact timing_of_frame (of_performed h (pumpOpusStream_frame now s))
  | outside endpoint media =>
    cases h
    exact .of_same rfl rfl rfl
  | stop now => exact absurd rfl (hgoes now)

/-! ## Ends -/

/-- The timers that a time-triggered activity looks at, and its time. -/
def Triggers : Activity rns audio → Deadline → Instant → Prop
  | .dueTimeout now, .timeout _, time => time = now
  | .dueAnswerRetry now, .answer, time => time = now
  | _, _, _ => False

theorem timeoutApplies_phase {kind : TelephonyServiceTimeoutKind} {active : ActiveCall}
    {snapshot : ActiveCallSnapshot} (hrole : snapshot.role = active.call.role)
    (hstatus : snapshot.status = active.call.status)
    (h : timeoutApplies kind snapshot = true) : (Deadline.timeout kind).Phase active.call := by
  cases kind <;> simpa [timeoutApplies, Deadline.Phase, hrole, hstatus] using h

theorem handleDueTimeout_ends (now : Instant) (s : TelephonyService rns audio) :
    wp (handleDueTimeout now) (fun _ s' => ∀ active, s.core.activeCall = some active →
      s'.core.activeCall ≠ some active → ∃ kind expiresAt,
        Holds s (.timeout kind) active.linkId expiresAt ∧
          (Deadline.timeout kind).Phase active.call ∧ expiresAt ≤ now) s := by
  refine wp_mono (handleDueTimeout_cases now s) fun _ s' hcases active hactive hended => ?_
  rcases hcases with ⟨-, rfl | ⟨-, rfl⟩ | hframe⟩ | ⟨timeout, ⟨htimeout, hdue, hsnapshot⟩, -⟩
  · exact absurd hactive hended
  · exact absurd hactive hended
  · rw [hframe.core] at hended
    exact absurd hactive hended
  · obtain ⟨snapshot, hsome, hlink, happlies⟩ := hsnapshot
    obtain ⟨snapshot', hsome', hlink', hrole, hstatus, -⟩ := snapshot_activeCall hactive
    cases hsome.symm.trans hsome'
    refine ⟨timeout.kind, timeout.expiresAt, ?_, timeoutApplies_phase hrole hstatus happlies, hdue⟩
    rw [Holds, htimeout, ← hlink', hlink]

theorem handleDueAnswerRetry_ends (now : Instant) (s : TelephonyService rns audio) :
    wp (handleDueAnswerRetry now) (fun _ s' => ∀ active, s.core.activeCall = some active →
      s'.core.activeCall ≠ some active → ∃ expiresAt,
        Holds s .answer active.linkId expiresAt ∧ Deadline.answer.Phase active.call ∧
          expiresAt ≤ now) s := by
  refine wp_mono (handleDueAnswerRetry_cases now s) fun _ s' hcases active hactive hended => ?_
  rcases hcases with
    rfl | ⟨nextRetryAt, hframe⟩ |
      ⟨answering, hanswering, ⟨⟨expiresAt, hexpires, hdue⟩, hout⟩ | ⟨-, rfl⟩⟩
  · exact absurd hactive hended
  · rw [hframe.core] at hended
    exact absurd hactive hended
  · unfold TimedOut at hout
    rcases s.core.timeoutAnswerActive_cases answering.linkId with
      ⟨⟨error, herror⟩, -⟩ | ⟨active', -, -, ⟨hactive', hlink, hphase⟩, -, -, -⟩
    · rw [herror] at hout
      rw [hout] at hended
      exact absurd hactive hended
    · cases hactive.symm.trans hactive'
      exact ⟨expiresAt, ⟨answering, hanswering, hlink.symm, hexpires⟩, hphase, hdue⟩
  · exact absurd hactive hended

/-- **A due timer ends a call** only if it is held for the call's link and phase. -/
theorem performs_ends {activity : Activity rns audio} (h : Performs s activity s')
    (htriggers : ∃ d, Triggers activity d now) {active : ActiveCall}
    (hactive : s.core.activeCall = some active) (hended : s'.core.activeCall ≠ some active) :
    ∃ d expiresAt, Triggers activity d now ∧ Holds s d active.linkId expiresAt ∧
      d.Phase active.call ∧ expiresAt ≤ now := by
  obtain ⟨continues, h⟩ := h
  obtain ⟨d, htriggers⟩ := htriggers
  cases activity with
  | dueTimeout time =>
    obtain ⟨kind, expiresAt, hends⟩ :=
      of_performed h (handleDueTimeout_ends time s) active hactive hended
    cases d with
    | timeout _ =>
      cases htriggers
      exact ⟨.timeout kind, expiresAt, rfl, hends⟩
    | answer => exact htriggers.elim
  | dueAnswerRetry time =>
    obtain ⟨expiresAt, hends⟩ :=
      of_performed h (handleDueAnswerRetry_ends time s) active hactive hended
    cases d with
    | timeout _ => exact htriggers.elim
    | answer =>
      cases htriggers
      exact ⟨.answer, expiresAt, rfl, hends⟩
  | _ => cases d <;> exact htriggers.elim

/-! ## Runs -/

abbrev Transitions (rns : Rns) (audio : Audio) : Type :=
  List (Machine.Transition (TelephonyService rns audio) (Activity rns audio))

/-- The timer was armed at one transition of the run for its configured duration and is still
armed as it was then. It was the first for its link and phase: no earlier one was armed while the
call was in the phase and stayed in it until that transition. -/
def FirstArmed (config : TelephonyServiceConfig) (ts : Transitions rns audio) (d : Deadline)
    (linkId : LinkId) (expiresAt : Instant) : Prop :=
  ∃ before arming since now duration, ts = before ++ arming :: since ∧
    arming.input.time = some now ∧ d.duration config = some duration ∧ expiresAt = now + duration ∧
    (∀ t ∈ arming :: since, Holds t.after d linkId expiresAt) ∧
    ∀ earlier t later, before = earlier ++ t :: later →
      (∀ u ∈ t :: later, Covers d linkId u.after.core) → ∀ other, ¬ Holds t.after d linkId other

theorem Continues.timing {activity : Activity rns audio} (h : Continues s activity s') :
    Timing activity.time s s' := by
  refine performs_timing ⟨true, h⟩ ?_
  rintro now rfl
  cases h

theorem config_kept {ts : Transitions rns audio} (h : Machine.Trace Continues s ts s') :
    s'.config = s.config :=
  h.kept (C := fun _ => True) (H := (·.config = s.config))
    (fun _ _ _ hstep _ _ hconfig => (Continues.timing hstep).config.trans hconfig) trivial
    (fun _ _ => trivial) rfl

/-- A timer of a configured duration is never moved while the call stays in the phase. -/
theorem Holds.kept {ts : Transitions rns audio} (h : Machine.Trace Continues s ts s')
    {linkId : LinkId} {expiresAt : Instant} (hholds : Holds s d linkId expiresAt)
    (hduration : (d.duration s.config).isSome = true) (hcovers : Covers d linkId s.core)
    (hstays : ∀ t ∈ ts, Covers d linkId t.after.core) : Holds s' d linkId expiresAt := by
  have hstep {u v : TelephonyService rns audio} {activity : Activity rns audio}
      (hstep : Continues u activity v) (hu : Covers d linkId u.core) (hv : Covers d linkId v.core)
      (h : Holds u d linkId expiresAt ∧ u.config = s.config) :
      Holds v d linkId expiresAt ∧ v.config = s.config := by
    have htiming := Continues.timing hstep
    rw [← h.2] at hduration
    exact ⟨(htiming.times d).keeps _ _ h.1 hduration hu hv, htiming.config.trans h.2⟩
  exact (h.kept (C := fun u : TelephonyService rns audio => Covers d linkId u.core)
    (H := fun u => Holds u d linkId expiresAt ∧ u.config = s.config) (fun _ _ _ => hstep) hcovers
    hstays ⟨hholds, rfl⟩).1

/-- What is held at the end of a run but not at its start was armed first. -/
theorem Holds.firstArmed {start : TelephonyService rns audio} {ts : Transitions rns audio}
    (h : Machine.Trace Continues start ts s) {linkId : LinkId} {expiresAt : Instant}
    (hstart : ¬ Holds start d linkId expiresAt) (hholds : Holds s d linkId expiresAt) :
    FirstArmed start.config ts d linkId expiresAt := by
  obtain ⟨before, arming, since, rfl, hnot, hstep, hsince⟩ :=
    h.since (H := (Holds · d linkId expiresAt)) hstart hholds
  obtain ⟨m, hbefore, hrest⟩ := Machine.Trace.append_iff.mp h
  obtain ⟨rfl, -, -⟩ := Machine.Trace.cons_iff.mp hrest
  have harms := ((Continues.timing hstep).times d).arms linkId expiresAt
    (hsince arming (List.mem_cons_self ..))
  rcases harms with hheld | ⟨now, duration, htime, hduration, hexpires, hfresh⟩
  · exact absurd hheld hnot
  rw [config_kept hbefore] at hduration
  refine ⟨before, arming, since, now, duration, rfl, htime, hduration, hexpires, hsince, ?_⟩
  rintro earlier t later rfl hcovers other hother
  -- the earlier timer would be held, and the call be in the phase, when this one was armed
  obtain ⟨u, hearlier, hlater⟩ := Machine.Trace.append_iff.mp hbefore
  obtain ⟨rfl, ht, hlater⟩ := Machine.Trace.cons_iff.mp hlater
  obtain ⟨hphase, hstays⟩ := List.forall_mem_cons.mp hcovers
  have hconfig : t.after.config = start.config :=
    (Continues.timing ht).config.trans (config_kept hearlier)
  have hsome : (d.duration t.after.config).isSome = true := by rw [hconfig, hduration]; rfl
  refine hfresh ⟨⟨other, hother.kept hlater hsome hphase hstays⟩, ?_⟩
  exact hlater.kept (C := fun u : TelephonyService rns audio => Covers d linkId u.core)
    (fun _ _ _ _ _ h _ => h) hphase hstays hphase

/-- **In every run of a service**, a due timer ends only a call whose link it was armed for, in the
phase it was armed for, not before the configured duration has passed since it was first armed; an
established call is never ended. -/
theorem timers_end_armed {endpoint : TelephonyRnsEndpoint rns} {core : TelephonyRuntimeCore}
    {config : TelephonyServiceConfig} {eventsLeft : Option Nat} {start now : Instant}
    {s s' : TelephonyService rns audio} {ts : Transitions rns audio}
    {activity : Activity rns audio} {active : ActiveCall}
    (h : Machine.Trace Continues (withConfig endpoint core config eventsLeft start) ts s)
    (htriggers : activity = .dueTimeout now ∨ activity = .dueAnswerRetry now)
    (hperforms : Performs s activity s') (hactive : s.core.activeCall = some active)
    (hended : s'.core.activeCall ≠ some active) :
    active.call.status ≠ .established ∧ ∃ d expiresAt, Triggers activity d now ∧
      d.Phase active.call ∧ expiresAt ≤ now ∧ FirstArmed config ts d active.linkId expiresAt := by
  have hsome : ∃ d, Triggers activity d now := by
    rcases htriggers with rfl | rfl
    · exact ⟨.timeout .incomingRing, rfl⟩
    · exact ⟨.answer, rfl⟩
  obtain ⟨d, expiresAt, htriggers, hholds, hphase, hdue⟩ :=
    performs_ends hperforms hsome hactive hended
  refine ⟨hphase.unestablished, d, expiresAt, htriggers, hphase, hdue, ?_⟩
  refine Holds.firstArmed h ?_ hholds
  intro hnew
  cases d with
  | timeout kind => cases hnew
  | answer =>
    obtain ⟨answering, hnone, -⟩ := hnew
    cases hnone

/-- A caller rings until its time is up. -/
theorem timers_end_armed_ringing : ∃ s s' active,
    Machine.Trace Continues (calledBy 8 []) [⟨calledBy 8 [], .driveReady 6 0, s⟩] s ∧
      Performs s (.dueTimeout (fromSecs 61)) s' ∧ s.core.activeCall = some active ∧
        active.call.status ≠ .established ∧ ∃ d expiresAt, d.Phase active.call ∧
          expiresAt ≤ fromSecs 61 ∧ FirstArmed .default [⟨calledBy 8 [], .driveReady 6 0, s⟩] d
            active.linkId expiresAt := by
  have hrun : (((calledBy 8 []).perform (.driveReady 6 0)).bind fun first =>
      (first.2.perform (.dueTimeout (fromSecs 61))).map fun second =>
        (first.1, first.2.core.activeCall.isSome, second.2.core.activeCall.isSome)) =
          some (true, true, false) := by decide +kernel
  obtain ⟨⟨_, s⟩, hring, hrun⟩ := Option.bind_eq_some_iff.mp hrun
  obtain ⟨⟨continues, s'⟩, htimeout, hends⟩ := Option.map_eq_some_iff.mp hrun
  simp only [Prod.mk.injEq] at hends
  obtain ⟨rfl, hsome, hnone⟩ := hends
  obtain ⟨active, hactive⟩ := Option.isSome_iff_exists.mp hsome
  have htrace : Machine.Trace Continues (calledBy 8 []) [⟨calledBy 8 [], .driveReady 6 0, s⟩] s :=
    .cons hring (.nil s)
  have hended : s'.core.activeCall ≠ some active := fun h => by
    rw [h] at hnone
    cases hnone
  obtain ⟨hstatus, d, expiresAt, -, hphase, hdue, harmed⟩ :=
    timers_end_armed htrace (.inl rfl) ⟨continues, htimeout⟩ hactive hended
  exact ⟨s, s', active, htrace, ⟨continues, htimeout⟩, hactive, hstatus, d, expiresAt, hphase, hdue,
    harmed⟩

end TelephonyService

end Lxst.Telephony
