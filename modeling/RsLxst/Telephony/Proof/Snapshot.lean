import RsLxst.Telephony.Proof.Drive
import RsLxst.Telephony.Proof.Handlers
import RsLxst.Telephony.Proof.Outgoing
import RsLxst.Telephony.Proof.Termination

/-!
# The published snapshot

`Current s` says that the last snapshot event is the core's snapshot. A handler that changes the
snapshot ends by emitting it (`publishCommands_current`, `publishDriven_current`), unless an error
takes it another way: refused commands of a hangup, a timeout or a profile switch, an outgoing call
that fails after it was registered, a batch of link events that fails after a change
(`Continues.follows`). Together: `snapshot_follows`.
-/

set_option autoImplicit false

namespace Lxst.Telephony

open Program

variable {rns : Rns} {audio : Audio}

/-- The snapshot that the event carries. -/
def TelephonyServiceEvent.asSnapshot : TelephonyServiceEvent audio → Option TelephonyRuntimeSnapshot
  | .snapshot value => some value
  | _ => none

theorem TelephonyServiceEvent.published_asSnapshot (event : TelephonyServiceEvent audio) :
    event.published.asSnapshot = event.asSnapshot := by
  cases event <;> simp only [published] <;> first | rfl | (split <;> rfl)

namespace TelephonyService

/-- The last snapshot among the events emitted. -/
def lastSnapshot (s : TelephonyService rns audio) : Option TelephonyRuntimeSnapshot :=
  (s.events.filterMap (·.asSnapshot)).getLast?

/-- The last snapshot emitted is the core's. -/
def Current (s : TelephonyService rns audio) : Prop := s.lastSnapshot = some s.core.snapshot

/-- A change of the snapshot is published. -/
def Follows (s s' : TelephonyService rns audio) : Prop :=
  s'.core.snapshot ≠ s.core.snapshot → Current s'

variable {s s' s'' : TelephonyService rns audio}

theorem Follows.of_core (h : s'.core.snapshot = s.core.snapshot) : Follows s s' :=
  fun hne => absurd h hne

theorem Frame.follows {links : List LinkId} (h : Frame links s s') : Follows s s' :=
  .of_core (congrArg _ h.core)

theorem Current.follows (h : Current s') : Follows s s' := fun _ => h

/-! ## Emitting -/

theorem emitSnapshot_current (hopen : s.eventsLeft = none) :
    wp emitSnapshot (fun sent s' => sent = true ∧ Current s') s := by
  have hemit : emitServiceEvent (.snapshot s.core.snapshot) s =
      (true, { s with events := s.events ++ [.snapshot s.core.snapshot] }) := by
    unfold emitServiceEvent
    rw [hopen]
    rfl
  unfold emitSnapshot
  rw [wp_bind, wp_get]
  unfold wp
  rw [hemit]
  refine ⟨rfl, ?_⟩
  unfold Current lastSnapshot
  rw [List.filterMap_append]
  simp [TelephonyServiceEvent.asSnapshot]

/-- An event without a snapshot leaves the last one. -/
theorem emitServiceEvent_current {event : TelephonyServiceEvent audio} (he : event.asSnapshot = none)
    (h : Current s) : wp (emitServiceEvent event) (fun _ => Current) s := by
  have hnew : (s.events ++ [event.published]).filterMap (·.asSnapshot) =
      s.events.filterMap (·.asSnapshot) := by
    rw [List.filterMap_append]
    simp [event.published_asSnapshot, he]
  have hlast {eventsLeft : Option Nat} :
      Current { s with events := s.events ++ [event.published], eventsLeft } := by
    unfold Current lastSnapshot
    rw [hnew]
    exact h
  unfold wp emitServiceEvent
  rcases s.eventsLeft with _ | _ | left
  · exact hlast
  · exact h
  · exact hlast

theorem reportError_current (result : Except Error Unit) (h : Current s) :
    wp (reportError result) (fun _ => Current) s := by
  cases result with
  | ok => exact h
  | error error => exact emitServiceEvent_current rfl h

/-- A refresh, and then a snapshot. -/
theorem refreshThen_current (now : Instant) (hopen : s.eventsLeft = none)
    {q : ServiceM rns audio Bool} (hq : ∀ s', s'.eventsLeft = none → wp q (fun _ => Current) s') :
    wp (do if ← refreshAndEmit now then q else pure false) (fun _ => Current) s :=
  Sends.goesOn (t := refreshed now s) (refreshAndEmit_sends now s) hopen fun s' _ => hq s'

/-! ## Commands -/

theorem publishCommands_current (commands : List TelephonyCommand)
    (effects : List TelephonyCommandEffect) (now : Instant) (hopen : s.eventsLeft = none) :
    wp (publishCommands commands effects now) (fun result s' => result = .ok () ∧ Current s') s := by
  unfold publishCommands
  rw [wp_refresh]
  refine Sends.goesOn (emitServiceEvent_sends _ (refreshed now s)) hopen fun s₁ _ h₁ => ?_
  refine Sends.goesOn (emitServiceEvents_sends _ s₁) h₁ fun s₂ _ h₂ => ?_
  refine Sends.goesOn (emitServiceEvents_sends _ s₂) h₂ fun s₃ _ h₃ => ?_
  rw [wp_bind]
  refine wp_mono (emitSnapshot_current h₃) fun sent s₄ h₄ => ?_
  rw [h₄.1]
  exact ⟨rfl, h₄.2⟩

/-- Commands that the endpoint executes are published with the snapshot. -/
theorem reportControl_current {commands : List TelephonyCommand} (now : Instant)
    (hopen : s.eventsLeft = none) (hexecutes : Executes (.ok commands) s) :
    wp (do reportError (← controlCommands (.ok commands) now)) (fun _ => Current) s := by
  obtain ⟨effects, hok⟩ := hexecutes commands rfl
  unfold controlCommands
  rw [wp_bind, wp_bind, wp_onEndpoint]
  generalize TelephonyRnsEndpoint.executeCommands commands s.endpoint = executed at hok ⊢
  obtain ⟨result, endpoint⟩ := executed
  cases hok
  refine wp_mono (publishCommands_current commands effects now hopen) fun result s₁ h₁ => ?_
  exact reportError_current result h₁.2

/-- The commands of a core operation that fails only by leaving the core alone. -/
theorem reportControl_follows {commands : Except Error (List TelephonyCommand)}
    {core : TelephonyRuntimeCore} {activeTimeout : Option TelephonyServiceTimeout} (now : Instant)
    (hopen : s.eventsLeft = none) (hexecutes : Executes commands s)
    (herror : ∀ error, commands = .error error → core = s.core) :
    wp (do reportError (← controlCommands commands now)) (fun _ => Follows s)
      { s with activeTimeout, core } := by
  cases commands with
  | ok commands =>
    exact wp_mono (reportControl_current now hopen hexecutes) fun _ _ h => h.follows
  | error error =>
    refine wp_mono (reportControl_cases _ now _) fun _ s' h => Follows.of_core ?_
    have hframe : Frame [] _ s' := h
    rw [hframe.core, ← herror error rfl]

/-! ## Handlers -/

theorem hangupActive_error {core : TelephonyRuntimeCore} {ringTimeout : Bool} {error : Error}
    (h : (core.hangupActive ringTimeout).1 = .error error) :
    (core.hangupActive ringTimeout).2 = core := by
  rcases core.hangupActive_cases ringTimeout with ⟨-, he⟩ | ⟨_, _, _, -, -, -, he⟩
  · rw [he]
  · rw [he] at h
    cases h

theorem switchActiveProfile_error {core : TelephonyRuntimeCore} {profile : Profile} {error : Error}
    (h : (core.switchActiveProfile profile).1 = .error error) :
    (core.switchActiveProfile profile).2 = core := by
  rcases core.switchActiveProfile_cases profile with ⟨_, he⟩ | ⟨_, _, -, -, -, he⟩
  · rw [he]
  · rw [he] at h
    cases h

theorem handleHangup_follows (ringTimeout : Bool) (now : Instant) (hopen : s.eventsLeft = none)
    (hexecutes : s.outgoingDiscovery = none → Executes (s.core.hangupActive ringTimeout).1 s) :
    wp (handleHangup ringTimeout now) (fun _ => Follows s) s := by
  unfold handleHangup
  rw [wp_bind, wp_get]
  split
  · rw [wp_bind, wp_set]
    exact wp_mono (emitServiceEvent_frame rfl _) fun _ _ h => .of_core (congrArg _ h.core)
  · rename_i hdiscovery
    exact reportControl_follows now hopen (hexecutes hdiscovery) fun _ h => hangupActive_error h

/-- An answer is taken back, or published. -/
theorem answerExact_follows (linkId : LinkId) (now : Instant) (hopen : s.eventsLeft = none) :
    wp (answerExact linkId now) (fun _ s' => s'.core.snapshot = s.core.snapshot ∨ Current s') s := by
  unfold answerExact
  rw [wp_bind, wp_get]
  rcases s.core.answerActive_cases linkId with
    ⟨error, h⟩ | ⟨active, commands, hactive, -, -, -, -, h⟩
  · rw [h]
    exact .inl rfl
  · simp only [h, wp_bind, wp_set, wp_onEndpoint]
    split
    · -- the batch was not queued: the call is as before
      exact .inl rfl
    · simp only [wp_bind, wp_modify]
      refine wp_mono (publishCommands_current commands _ now hopen) fun result s₁ h₁ => ?_
      rw [h₁.1]
      simp only [wp_bind, wp_get]
      split
      · exact .inr h₁.2
      · split <;> exact .inr h₁.2

theorem handleAnswer_follows (linkId : LinkId) (now : Instant) (hopen : s.eventsLeft = none) :
    wp (handleAnswer linkId now) (fun _ => Follows s) s := by
  unfold handleAnswer
  rw [wp_bind]
  refine wp_mono (answerExact_follows linkId now hopen) fun result s₁ h₁ => ?_
  have hfollows : Follows s s₁ := h₁.elim .of_core Current.follows
  split
  · exact hfollows
  · exact hfollows
  · rcases h₁ with hcore | hcurrent
    · refine wp_mono (emitServiceError_sends _ s₁) fun _ _ h₂ => Follows.of_core ?_
      rw [h₂.core, hcore]
    · exact wp_mono (emitServiceEvent_current rfl hcurrent) fun _ _ h₂ => h₂.follows

theorem handleSetExternalBusy_current (busy : Bool) (now : Instant) (hopen : s.eventsLeft = none) :
    wp (handleSetExternalBusy busy now) (fun _ => Current) s := by
  unfold handleSetExternalBusy
  rw [wp_bind, wp_modify]
  exact refreshThen_current now (s := { s with core := s.core.setExternalBusy busy }) hopen
    fun s' h => wp_mono (emitSnapshot_current h) fun _ _ h => h.2

theorem handleInternal_follows (event : TelephonyInternalEvent) (now : Instant) (entropy : Nat)
    (hopen : s.eventsLeft = none)
    (hbegins : ∀ remoteIdentity profile peer, Discovers event s remoteIdentity profile peer →
      Begins s) :
    wp (handleInternal event now entropy) (fun _ => Follows s) s := by
  obtain ⟨remoteIdentity, profile, result⟩ := event
  unfold handleInternal
  simp only [wp_bind, wp_get]
  split
  · exact .of_core rfl
  rename_i hdiscovery
  rw [not_not] at hdiscovery
  rw [wp_bind, wp_set]
  cases result with
  | error error =>
    rw [wp_bind, wp_beginOutgoing_error]
    exact wp_mono (emitServiceEvent_frame rfl _) fun _ _ h => .of_core (congrArg _ h.core)
  | ok peer =>
    have hroom := hbegins remoteIdentity profile peer ⟨rfl, hdiscovery⟩
    rw [wp_bind]
    unfold beginOutgoing wp
    dsimp only
    rcases s.endpoint.beginOutgoing_cases s.core remoteIdentity peer.publicKey profile peer.hops
      entropy with ⟨-, error, endpoint, hcases⟩ |
        ⟨⟨-, hregistered⟩, result, endpoint, linkId, hcases, hresult⟩
    · rw [hcases]
      have hfailed : (.outgoingCallFailed remoteIdentity error.toText :
          TelephonyServiceEvent audio).terminated = [] := rfl
      exact wp_mono (emitServiceEvent_frame hfailed _)
        fun _ _ h => Follows.of_core (congrArg _ h.core)
    · have h3 : 3 ≤ s.endpoint.transport.free := by
        unfold Begins at hroom
        tauto
      rw [if_pos h3] at hresult
      rw [hcases, hresult]
      refine wp_mono (refreshThen_current now (s := { s with
        outgoingDiscovery := none, endpoint, core := _ }) hopen fun s' h => ?_)
        fun _ _ h => h.follows
      exact Sends.goesOn (emitServiceEvent_sends _ s') h fun s₁ _ h₁ =>
        wp_mono (emitSnapshot_current h₁) fun _ _ h => h.2

theorem timeoutAnswering_follows (linkId : LinkId) (now : Instant) (hopen : s.eventsLeft = none) :
    wp (timeoutAnswering linkId now) (fun _ => Follows s) s := by
  unfold timeoutAnswering
  rw [wp_bind, wp_modify, wp_bind, wp_get]
  dsimp only
  rcases s.core.timeoutAnswerActive_cases linkId with
    ⟨⟨error, h⟩, -⟩ | ⟨active, commands, core, -, -, -, h⟩
  · rw [h]
    exact .of_core rfl
  · rw [h]
    dsimp only
    rw [wp_bind, wp_set, wp_bind, wp_onEndpoint, wp_bind]
    refine wp_mono (publishCommands_current commands _ now hopen) fun published s₁ h₁ => ?_
    rw [h₁.1]
    dsimp only
    split
    · exact h₁.2.follows
    · exact wp_mono (emitServiceEvent_current rfl h₁.2) fun _ _ h₂ => h₂.follows

theorem handleDueAnswerRetry_follows (now : Instant) (hopen : s.eventsLeft = none) :
    wp (handleDueAnswerRetry now) (fun _ => Follows s) s := by
  unfold handleDueAnswerRetry
  rw [wp_bind, wp_get]
  split
  · exact .of_core rfl
  split
  · exact timeoutAnswering_follows _ now hopen
  split
  · refine wp_mono (retryAnswering_cases _ now s) fun _ s' h => Follows.of_core ?_
    rcases h with ⟨-, rfl⟩ | ⟨nextRetryAt, h⟩
    · rfl
    · rw [h.core]
  · exact .of_core rfl

theorem handleDueTimeout_follows (now : Instant) (hopen : s.eventsLeft = none)
    (hexecutes : ∀ timeout, Due now s timeout →
      Executes (s.core.hangupActive (timeout.kind = .incomingRing)).1 s) :
    wp (handleDueTimeout now) (fun _ => Follows s) s := by
  unfold handleDueTimeout
  rw [wp_bind, wp_get]
  split
  · exact .of_core rfl
  rename_i timeout htimeout
  split
  · exact .of_core rfl
  rename_i hdue
  split
  · exact .of_core rfl
  rename_i active hactive
  split
  · refine wp_mono (refreshAndEmit_sends now s) fun _ s' h => Follows.of_core ?_
    rw [h.core]
    rfl
  · rename_i happlies
    rw [not_or, not_not, Bool.not_eq_true', Bool.not_eq_false] at happlies
    exact reportControl_follows now hopen
      (hexecutes timeout ⟨htimeout, not_lt.mp hdue, active, hactive, happlies⟩)
      fun _ h => hangupActive_error h

/-! ## Link events -/

/-- The turn from this state leaves the snapshot as it is. -/
def KeepsSnapshot (line : TelephonyRnsEndpoint.Line rns) : Prop :=
  (TelephonyRnsEndpoint.tryDriveOnce line).2.core.snapshot = line.core.snapshot

/-- No batch of link events fails that has changed the snapshot. -/
def BatchShown (fuel : Nat) (s : TelephonyService rns audio) : Prop :=
  ∀ turns last, TelephonyRnsEndpoint.driveTurns fuel s.line = some (turns, last) →
    (∀ line ∈ turns, TelephonyRnsEndpoint.turnError line = none) ∨
      ∀ line ∈ turns, KeepsSnapshot line

/-- A turn that completes nothing and does not fail has found no event. -/
theorem keepsSnapshot_of_idle {line : TelephonyRnsEndpoint.Line rns}
    (hok : TelephonyRnsEndpoint.turnError line = none)
    (hidle : TelephonyRnsEndpoint.completedStep line = none) : KeepsSnapshot line := by
  rcases TelephonyRnsEndpoint.tryDriveOnce_core line with ⟨hcore, -⟩ | ⟨_, -, -, hcompletes⟩
  · exact congrArg _ hcore
  · exact absurd hidle (hcompletes hok)

theorem driveTurns_snapshot {fuel : Nat} {line last : TelephonyRnsEndpoint.Line rns}
    {turns : List (TelephonyRnsEndpoint.Line rns)}
    (h : TelephonyRnsEndpoint.driveTurns fuel line = some (turns, last))
    (hkeeps : ∀ line ∈ turns, KeepsSnapshot line) : last.core.snapshot = line.core.snapshot := by
  revert hkeeps
  refine TelephonyRnsEndpoint.driveTurns_induction (P := fun core turns core' =>
    (∀ line ∈ turns, KeepsSnapshot line) → core'.snapshot = core.snapshot) (fun core _ => rfl)
    (fun line turns core hrest hkeeps => ?_) h
  obtain ⟨hline, hturns⟩ := List.forall_mem_cons.mp hkeeps
  exact (hrest hturns).trans hline

/-- Driven steps, if there are any, are published with the snapshot. -/
theorem publishDriven_current {steps : List TelephonyRnsEndpoint.TelephonyDriveStep}
    (hne : steps ≠ []) (now : Instant) (hopen : s.eventsLeft = none) :
    wp (publishDriven (.ok steps) now) (fun _ => Current) s := by
  unfold publishDriven
  refine Sends.goesOn (publishDriveSteps_sends steps s) hopen fun s₁ _ h₁ => ?_
  rw [if_neg (by simpa using hne)]
  exact refreshThen_current now h₁ fun s' h => wp_mono (emitSnapshot_current h) fun _ _ h => h.2

theorem driveReady_follows {fuel : Nat} {now : Instant} {continues : Bool}
    (h : driveReady fuel now s = some (continues, s')) (hopen : s.eventsLeft = none)
    (hbatch : BatchShown fuel s) : Follows s s' := by
  obtain ⟨turns, last, hturns, hpublished⟩ := driveReady_turns h
  have hkept (hcore : s'.core = last.core) (hkeeps : ∀ line ∈ turns, KeepsSnapshot line) :
      Follows s s' := by
    refine .of_core ?_
    rw [hcore]
    exact driveTurns_snapshot hturns hkeeps
  have hwp {Q : Bool → TelephonyService rns audio → Prop}
      (hp : wp (publishDriven (TelephonyRnsEndpoint.outcome turns) now)
        Q { s with endpoint := last.endpoint, core := last.core }) : Q continues s' := by
    rwa [wp, hpublished] at hp
  unfold TelephonyRnsEndpoint.outcome at hwp
  cases herror : TelephonyRnsEndpoint.firstError turns with
  | some error =>
    rw [herror] at hwp
    refine hkept (hwp (emitServiceError_sends error _)).core ?_
    refine (hbatch turns last hturns).resolve_left fun hok => ?_
    cases herror.symm.trans (TelephonyRnsEndpoint.firstError_eq_none_iff.mpr hok)
  | none =>
    rw [herror] at hwp
    by_cases hsteps : TelephonyRnsEndpoint.completed turns = []
    · -- no event was found, and none is published
      have hidle := TelephonyRnsEndpoint.completed_eq_nil_iff.mp hsteps
      have hok := TelephonyRnsEndpoint.firstError_eq_none_iff.mp herror
      rw [hsteps] at hwp
      refine hkept ?_ fun line hline => keepsSnapshot_of_idle (hok line hline) (hidle line hline)
      exact hwp (Q := fun _ s' => s'.core = last.core) rfl
    · exact (hwp (publishDriven_current hsteps now hopen)).follows

/-! ## Runs -/

/-- The commands of a hangup, a timeout or a profile switch are executed, an outgoing call does not
fail after it was registered, and no batch of link events fails that has changed the snapshot. -/
def Shows (s : TelephonyService rns audio) : Activity rns audio → Prop
  | .control (.hangup ringTimeout) _ _ =>
    s.outgoingDiscovery = none → Executes (s.core.hangupActive ringTimeout).1 s
  | .control (.switchProfile profile) _ _ => Executes (s.core.switchActiveProfile profile).1 s
  | .internal event _ _ => ∀ remoteIdentity profile peer,
    Discovers event s remoteIdentity profile peer → Begins s
  | .dueTimeout now => ∀ timeout, Due now s timeout →
    Executes (s.core.hangupActive (timeout.kind = .incomingRing)).1 s
  | .driveReady fuel _ => BatchShown fuel s
  | _ => True

theorem handleControl_follows (control : TelephonyControl audio) (now : Instant) (entropy : Nat)
    (hopen : s.eventsLeft = none) (hshows : Shows s (.control control now entropy)) :
    wp (handleControl control now entropy) (fun _ => Follows s) s := by
  cases hcontrol : changesCore control with
  | false => exact wp_mono (handleControl_frame hcontrol now entropy s) fun _ _ h => h.follows
  | true =>
    cases control with
    | answer linkId => exact handleAnswer_follows linkId now hopen
    | hangup ringTimeout => exact handleHangup_follows ringTimeout now hopen hshows
    | switchProfile profile =>
      exact reportControl_follows now hopen hshows fun _ h => switchActiveProfile_error h
    | setExternalBusy busy =>
      exact wp_mono (handleSetExternalBusy_current busy now hopen) fun _ _ h => h.follows
    | setAccessPolicy access => exact Follows.of_core rfl
    | _ => cases hcontrol

theorem Continues.follows {activity : Activity rns audio} (hperforms : Continues s activity s')
    (hopen : s.eventsLeft = none) (hshows : Shows s activity) : Follows s s' := by
  unfold Continues at hperforms
  cases activity with
  | control control now entropy =>
    exact of_performed hperforms (handleControl_follows control now entropy hopen hshows)
  | internal event now entropy =>
    exact of_performed hperforms (handleInternal_follows event now entropy hopen hshows)
  | tickReticulum =>
    cases hperforms
    exact .of_core rfl
  | dueAnnounce now entropy =>
    exact (of_performed hperforms (handleDueAnnounce_frame now entropy s)).follows
  | driveReady fuel now => exact driveReady_follows hperforms hopen hshows
  | dueAnswerRetry now => exact of_performed hperforms (handleDueAnswerRetry_follows now hopen)
  | dueTimeout now => exact of_performed hperforms (handleDueTimeout_follows now hopen hshows)
  | pumpOpusStream now => exact (of_performed hperforms (pumpOpusStream_frame now s)).follows
  | outside endpoint media =>
    cases hperforms
    exact .of_core rfl
  | stop now => cases hperforms

/-- **The published snapshot follows the core** in every run whose event channel stays open: after
each activity that goes on and changes the core's snapshot, the last snapshot emitted is the
core's, if all activities of the run show. -/
theorem snapshot_follows {s s' : TelephonyService rns audio}
    {ts : List (Machine.Transition (TelephonyService rns audio) (Activity rns audio))}
    (h : Machine.Trace Continues s ts s') (hopen : s.eventsLeft = none)
    (hshows : ∀ t ∈ ts, Shows t.before t.input) :
    ∀ t ∈ ts, t.after.core.snapshot ≠ t.before.core.snapshot →
      t.after.lastSnapshot = some t.after.core.snapshot := by
  intro t ht
  obtain ⟨hopen, hcontinues, -⟩ := h.transition (G := fun _ _ => True)
    (fun _ _ _ hopen _ h => Performs.keepsOpen ⟨true, h⟩ hopen) hopen (fun _ _ => trivial) t ht
  exact Continues.follows hcontinues hopen (hshows t ht)

/-- A caller is let in, and the line becomes busy for another reason. -/
theorem snapshot_follows_ringing : ∃ ts s',
    Machine.Trace Continues (calledBy 4 []) ts s' ∧ ts.length = 2 ∧ ∀ t ∈ ts,
      t.after.core.snapshot ≠ t.before.core.snapshot →
        t.after.lastSnapshot = some t.after.core.snapshot := by
  have hrun : (((calledBy 4 []).perform (.driveReady 6 0)).bind fun first =>
      (first.2.perform (.control (.setExternalBusy true) 1 0)).map fun second =>
        (first.1, second.1)) = some (true, true) := by decide +kernel
  have hok : (TelephonyRnsEndpoint.driveTurns 6 (calledBy 4 []).line).map
      (fun turns => TelephonyRnsEndpoint.firstError turns.1) = some none := by decide +kernel
  obtain ⟨⟨_, s⟩, hring, hrun⟩ := Option.bind_eq_some_iff.mp hrun
  obtain ⟨⟨_, s'⟩, hbusy, htrue⟩ := Option.map_eq_some_iff.mp hrun
  cases htrue
  have htrace : Machine.Trace Continues (calledBy 4 [])
      [⟨calledBy 4 [], .driveReady 6 0, s⟩, ⟨s, .control (.setExternalBusy true) 1 0, s'⟩] s' :=
    .cons hring (.cons hbusy (.nil s'))
  have hbatch : BatchShown 6 (calledBy 4 []) := fun turns last hturns => by
    rw [hturns, Option.map_some, Option.some_inj] at hok
    exact .inl (TelephonyRnsEndpoint.firstError_eq_none_iff.mp hok)
  exact ⟨_, s', htrace, rfl, snapshot_follows htrace rfl
    (List.forall_mem_cons.mpr ⟨hbatch, List.forall_mem_singleton.mpr trivial⟩)⟩

/-- With two slots, the transport queue is full when the ringing call is rejected: the call is
gone, and the last snapshot still shows it. -/
theorem hangup_unshown :
    ¬ ∀ (rns : Rns) (audio : Audio) (s s' : TelephonyService rns audio)
      (ts : List (Machine.Transition (TelephonyService rns audio) (Activity rns audio))),
      Machine.Trace Continues s ts s' → s.eventsLeft = none → ∀ t ∈ ts,
        t.after.core.snapshot ≠ t.before.core.snapshot →
          t.after.lastSnapshot = some t.after.core.snapshot := fun hall => by
  have hrun : (((calledBy 2 []).perform (.driveReady 6 0)).bind fun first =>
      (first.2.perform (.control (.hangup false) 1 0)).map fun second =>
        ((first.1, second.1), first.2.core.snapshot.activeCall.isSome,
          second.2.core.snapshot.activeCall.isSome,
          second.2.lastSnapshot.map (·.activeCall.isSome))) =
      some ((true, true), true, false, some true) := by decide +kernel
  obtain ⟨⟨_, s⟩, hring, hrun⟩ := Option.bind_eq_some_iff.mp hrun
  obtain ⟨⟨_, s'⟩, hhangup, hends⟩ := Option.map_eq_some_iff.mp hrun
  obtain ⟨htrue, hends⟩ := Prod.mk.inj hends
  obtain ⟨hbefore, hends⟩ := Prod.mk.inj hends
  obtain ⟨hafter, hlast⟩ := Prod.mk.inj hends
  cases htrue
  have htrace : Machine.Trace Continues (calledBy 2 [])
      [⟨calledBy 2 [], .driveReady 6 0, s⟩, ⟨s, .control (.hangup false) 1 0, s'⟩] s' :=
    .cons hring (.cons hhangup (.nil s'))
  have hshown := hall _ _ _ _ _ htrace rfl ⟨s, .control (.hangup false) 1 0, s'⟩ (by simp)
    fun hsame => by
      rw [hsame, hbefore] at hafter
      cases hafter
  rw [hshown, Option.map_some, hafter] at hlast
  cases hlast

end TelephonyService

end Lxst.Telephony
