import RsLxst.Telephony.Proof.Drive
import RsLxst.Telephony.Proof.Handlers
import RsLxst.Telephony.Proof.Outgoing

/-!
# A call that is not established has a deadline

The timers are derived from the active call by `refresh_active_timeout`, which not every path
reaches. `Timed` is the invariant; it survives every activity that goes on, unless an outgoing
call fails after it was registered, or a batch of link events fails that has let a caller in
(`deadline_armed`).
-/

set_option autoImplicit false

namespace Lxst.Telephony

variable {rns : Rns} {audio : Audio}

/-! ## The deadline that a call needs -/

/-- What keeps a call's deadline: the active timeout of a kind, or the answering state. -/
inductive Deadline
  | timeout (kind : TelephonyServiceTimeoutKind)
  | answer
  deriving DecidableEq

/-- The deadline of a call that is not established. -/
def neededDeadline (call : CallState) : Option Deadline :=
  if call.status = .established then none
  else
    match call.role with
    | .outgoing => some (.timeout .outgoingCall)
    | .incoming => if call.status = .ringing then some (.timeout .incomingRing) else some .answer

/-- An incoming call rings, or is answered and waits for the echo, or is established. -/
def Phased (call : CallState) : Prop :=
  call.role = .incoming → call.status = .ringing ∧ call.answered = false ∨
    call.status = .connecting ∧ call.answered = true ∨ call.status = .established

theorem neededDeadline_established {call : CallState} (h : call.status = .established) :
    neededDeadline call = none := if_pos h

theorem neededDeadline_outgoing {call : CallState} (hr : call.role = .outgoing)
    (h : call.status ≠ .established) : neededDeadline call = some (.timeout .outgoingCall) := by
  rw [neededDeadline, if_neg h, hr]

theorem neededDeadline_congr {call call' : CallState} (hr : call'.role = call.role)
    (hs : call'.status = call.status) : neededDeadline call' = neededDeadline call := by
  rw [neededDeadline, neededDeadline, hr, hs]

/-- A call that needs an answer deadline waits for the echo. -/
theorem Phased.of_answer {call : CallState} (h : Phased call)
    (hneeds : neededDeadline call = some .answer) :
    call.role = .incoming ∧ call.answered = true ∧ call.status = .connecting := by
  unfold neededDeadline at hneeds
  split at hneeds
  · cases hneeds
  rename_i hestablished
  split at hneeds
  · cases hneeds
  rename_i hrole
  split at hneeds
  · cases hneeds
  rename_i hringing
  rcases h hrole with ⟨hstatus, -⟩ | ⟨hstatus, hanswered⟩ | hstatus
  · exact absurd hstatus hringing
  · exact ⟨hrole, hanswered, hstatus⟩
  · exact absurd hstatus hestablished

/-- A signal moves a call to a phase with the same deadline or with none. -/
theorem Phased.receiveSignal {call : CallState} (h : Phased call) (signal : Signal) :
    Phased (call.receiveSignal signal).1 ∧
      (neededDeadline (call.receiveSignal signal).1 = neededDeadline call ∨
        neededDeadline (call.receiveSignal signal).1 = none) := by
  have hrole := call.receiveSignal_role signal
  rcases call.receiveSignal_status signal with hstatus | ⟨status, -, hlistens, hstatus, hlater⟩
  · refine ⟨fun hr => ?_, .inl (neededDeadline_congr hrole hstatus)⟩
    rw [hstatus, call.receiveSignal_answered]
    exact h (hrole.symm.trans hr)
  have hestablished : call.status ≠ .established := fun he => by
    rw [he] at hlater
    exact absurd hlater (not_lt.mpr status.rank_le_established)
  cases hr : call.role with
  | outgoing =>
    refine ⟨fun hr' => (by cases hr.symm.trans (hrole.symm.trans hr')), ?_⟩
    by_cases hs : status = .established
    · exact .inr (neededDeadline_established (hstatus.trans hs))
    · rw [neededDeadline_outgoing hr hestablished]
      exact .inl (neededDeadline_outgoing (hrole.trans hr) (by rwa [hstatus]))
  | incoming =>
    -- only an answered call listens, and the only later status is `established`
    have hconnecting : call.status = .connecting := by
      rcases h hr with ⟨-, hunanswered⟩ | ⟨hs, -⟩ | hs
      · cases hunanswered.symm.trans (hlistens hr)
      · exact hs
      · exact absurd hs hestablished
    rw [hconnecting] at hlater
    have hs : status = .established := by revert hlater; cases status <;> decide
    have hstatus := hstatus.trans hs
    exact ⟨fun _ => .inr (.inr hstatus), .inr (neededDeadline_established hstatus)⟩

theorem Phased.received {call call' : CallState} (h : Phased call) (hr : Received call call') :
    Phased call' ∧
      (neededDeadline call' = neededDeadline call ∨ neededDeadline call' = none) := by
  induction hr with
  | refl => exact ⟨h, .inl rfl⟩
  | tail _ hlast ih =>
    obtain ⟨signal, rfl⟩ := hlast
    obtain ⟨hphased, hneeds⟩ := ih.1.receiveSignal signal
    refine ⟨hphased, ?_⟩
    rcases hneeds with hneeds | hnone
    · rw [hneeds]
      exact ih.2
    · exact .inr hnone

/-! ## Cores -/

/-- The active call is in a phase of its role. -/
def CorePhased (core : TelephonyRuntimeCore) : Prop :=
  ∀ active, core.activeCall = some active → Phased active.call

/-- The call that `core'` needs a deadline of this kind for is one that `core` needs it for. -/
def Inherits (kind : Deadline → Prop) (core core' : TelephonyRuntimeCore) : Prop :=
  CorePhased core → CorePhased core' ∧
    ∀ active' deadline, core'.activeCall = some active' →
      neededDeadline active'.call = some deadline → kind deadline →
        ∃ active, core.activeCall = some active ∧ active.linkId = active'.linkId ∧
          neededDeadline active.call = some deadline

variable {kind : Deadline → Prop} {core core' core'' : TelephonyRuntimeCore}

theorem Inherits.of_activeCall (h : core'.activeCall = core.activeCall) :
    Inherits kind core core' := fun hphased =>
  ⟨fun active hactive => hphased active (h ▸ hactive),
    fun active' _ hactive hneeds _ => ⟨active', h ▸ hactive, rfl, hneeds⟩⟩

theorem Inherits.trans (h : Inherits kind core core') (h' : Inherits kind core' core'') :
    Inherits kind core core'' := fun hphased => by
  obtain ⟨hphased', hneeds⟩ := h hphased
  obtain ⟨hphased'', hneeds'⟩ := h' hphased'
  refine ⟨hphased'', fun active'' deadline hactive'' hneeds'' hkind => ?_⟩
  obtain ⟨active', hactive', hlink', hneeds'⟩ := hneeds' active'' deadline hactive'' hneeds'' hkind
  obtain ⟨active, hactive, hlink, hneeds⟩ := hneeds active' deadline hactive' hneeds' hkind
  exact ⟨active, hactive, hlink.trans hlink', hneeds⟩

theorem Inherits.of_none (h : core'.activeCall = none) : Inherits kind core core' := fun _ => by
  constructor
  · intro active hactive
    cases h.symm.trans hactive
  · intro active' deadline hactive
    cases h.symm.trans hactive

/-- The event lets a caller in. -/
def Admits (core : TelephonyRuntimeCore) (event : TelephonyLinkEvent) : Prop :=
  ∃ linkId remoteIdentity, event = .remoteIdentified linkId remoteIdentity ∧
    (linkId ∈ core.pendingLinks ∨ (core.ingress.lookup linkId).isSome) ∧
      core.lineBusy = false ∧ core.access.isAllowed remoteIdentity = true

/-- An event creates no need of a deadline, unless it lets a caller in. -/
theorem Inherits.of_step {event : TelephonyLinkEvent} {commands : Option (List TelephonyCommand)}
    (h : core.CallStep event commands core')
    (hkind : kind (.timeout .incomingRing) → ¬ Admits core event) : Inherits kind core core' := by
  cases h with
  | signals h =>
    cases h with
    | kept h => exact .of_activeCall h
    | signalled h h' hr hq =>
      rename_i active call
      intro hphased
      obtain ⟨hphased', hneeds⟩ := (hphased active h).received hr
      constructor
      · intro active' hactive'
        cases h'.symm.trans hactive'
        exact hphased'
      · intro active' deadline hactive' hneeds' _
        cases h'.symm.trans hactive'
        refine ⟨active, h, rfl, ?_⟩
        rcases hneeds with hsame | hnone
        · exact hsame.symm.trans hneeds'
        · cases hnone.symm.trans hneeds'
    | ended h h' => exact .of_none h'
  | admitted he hknown hidle hallowed h' =>
    intro _
    constructor
    · intro active' hactive'
      cases h'.symm.trans hactive'
      exact fun _ => .inl ⟨rfl, rfl⟩
    · intro active' deadline hactive' hneeds hk
      cases h'.symm.trans hactive'
      cases hneeds
      exact absurd ⟨_, _, he, hknown, hidle, hallowed⟩ (hkind hk)

/-- The turn from this state lets a caller in. -/
def AdmitsCaller (line : TelephonyRnsEndpoint.Line rns) : Prop :=
  ∃ event, (TelephonyRnsEndpoint.tryRecvLinkEvent line.endpoint).1 = .ok (some event) ∧
    Admits line.core event

theorem Inherits.of_turn {line : TelephonyRnsEndpoint.Line rns}
    (hkind : kind (.timeout .incomingRing) → ¬ AdmitsCaller line) :
    Inherits kind line.core (TelephonyRnsEndpoint.tryDriveOnce line).2.core := by
  rcases TelephonyRnsEndpoint.tryDriveOnce_core line with ⟨hsame, -, -⟩ | ⟨event, hevent, hstep, -⟩
  · exact .of_activeCall (congrArg _ hsame)
  · exact .of_step hstep fun hk hadmits => hkind hk ⟨event, hevent, hadmits⟩

theorem Inherits.of_turns {fuel : Nat} {line last : TelephonyRnsEndpoint.Line rns}
    {turns : List (TelephonyRnsEndpoint.Line rns)}
    (h : TelephonyRnsEndpoint.driveTurns fuel line = some (turns, last))
    (hkind : kind (.timeout .incomingRing) → ∀ line ∈ turns, ¬ AdmitsCaller line) :
    Inherits kind line.core last.core := by
  refine TelephonyRnsEndpoint.driveTurns_induction (P := fun core turns core' =>
    (kind (.timeout .incomingRing) → ∀ line ∈ turns, ¬ AdmitsCaller line) →
      Inherits kind core core') (fun core _ => .of_activeCall rfl)
    (fun line turns core hrest hkind => ?_) h hkind
  have hturn : Inherits kind line.core _ := .of_turn fun hk => (List.forall_mem_cons.mp (hkind hk)).1
  exact hturn.trans (hrest fun hk => (List.forall_mem_cons.mp (hkind hk)).2)

namespace TelephonyService

open Program
open TelephonyRnsEndpoint (TelephonyDriveStep)

/-! ## Armed deadlines -/

/-- The deadline of this link's call is set. -/
def HasDeadline (s : TelephonyService rns audio) (linkId : LinkId) : Deadline → Prop
  | .timeout kind => ∃ timeout, s.activeTimeout = some timeout ∧ timeout.linkId = linkId ∧
      timeout.kind = kind
  | .answer => ∃ answering expiresAt, s.answering = some answering ∧ answering.linkId = linkId ∧
      answering.expiresAt = some expiresAt

/-- An active call that is not established has its deadline. -/
def Armed (s : TelephonyService rns audio) : Prop :=
  ∀ active deadline, s.core.activeCall = some active →
    neededDeadline active.call = some deadline → HasDeadline s active.linkId deadline

/-- The timeouts are configured, and none is zero. -/
structure Configured (config : TelephonyServiceConfig) : Prop where
  incomingRing : ∃ duration, config.incomingRingTimeout = some duration ∧ duration ≠ 0
  outgoingCall : ∃ duration, config.outgoingCallTimeout = some duration ∧ duration ≠ 0
  answer : ∃ duration, config.answerTimeout = some duration ∧ duration ≠ 0

/-- The invariant of a run. -/
structure Timed (s : TelephonyService rns audio) : Prop where
  config : Configured s.config
  phased : CorePhased s.core
  armed : Armed s

variable {s s' : TelephonyService rns audio}

theorem Timed.of_same (h : Timed s) (hcall : s'.core.activeCall = s.core.activeCall)
    (hconfig : s'.config = s.config) (htimeout : s'.activeTimeout = s.activeTimeout)
    (hanswering : s'.answering = s.answering) : Timed s' where
  config := hconfig ▸ h.config
  phased active hactive := h.phased active (hcall ▸ hactive)
  armed active deadline hactive hneeds := by
    have harmed := h.armed active deadline (hcall ▸ hactive) hneeds
    cases deadline with
    | timeout kind => rwa [HasDeadline, htimeout]
    | answer => rwa [HasDeadline, hanswering]

theorem Timed.frame {links : List LinkId} (h : Timed s) (hframe : Frame links s s') : Timed s' :=
  h.of_same (congrArg _ hframe.core) hframe.config hframe.activeTimeout hframe.answering

/-- Without an active call there is nothing to time. -/
theorem Timed.of_none (hconfig : Configured s.config) (hnone : s.core.activeCall = none) :
    Timed s where
  config := hconfig
  phased active hactive := by cases hnone.symm.trans hactive
  armed active deadline hactive := by cases hnone.symm.trans hactive

/-- An established call needs no deadline. -/
theorem Timed.of_established (hconfig : Configured s.config)
    (h : ∀ active, s.core.activeCall = some active → active.call.status = .established) :
    Timed s where
  config := hconfig
  phased active hactive := fun _ => .inr (.inr (h active hactive))
  armed active deadline hactive hneeds := by
    cases (neededDeadline_established (h active hactive)).symm.trans hneeds

/-- A state whose answer deadline is set: a refresh sets the others. -/
structure Refreshable (s : TelephonyService rns audio) : Prop where
  config : Configured s.config
  phased : CorePhased s.core
  answer : ∀ active, s.core.activeCall = some active →
    neededDeadline active.call = some .answer → HasDeadline s active.linkId .answer

theorem Timed.refreshable (h : Timed s) : Refreshable s where
  config := h.config
  phased := h.phased
  answer active := h.armed active .answer

/-- The snapshot of the active call. -/
theorem snapshot_activeCall {core : TelephonyRuntimeCore} {active : ActiveCall}
    (h : core.activeCall = some active) : ∃ snapshot, core.snapshot.activeCall = some snapshot ∧
      snapshot.linkId = active.linkId ∧ snapshot.role = active.call.role ∧
        snapshot.status = active.call.status ∧ snapshot.answered = active.call.answered := by
  unfold TelephonyRuntimeCore.snapshot
  rw [h]
  exact ⟨_, rfl, rfl, rfl, rfl, rfl⟩

theorem desiredTimeout_of_needed {config : TelephonyServiceConfig} (h : Configured config)
    {active : ActiveCall} {snapshot : ActiveCallSnapshot} {kind : TelephonyServiceTimeoutKind}
    (hrole : snapshot.role = active.call.role) (hstatus : snapshot.status = active.call.status)
    (hneeds : neededDeadline active.call = some (.timeout kind)) :
    ∃ duration, desiredTimeout config snapshot = some (kind, duration) := by
  unfold neededDeadline at hneeds
  unfold desiredTimeout
  rw [hrole, hstatus]
  split at hneeds
  · cases hneeds
  rename_i hestablished
  cases hr : active.call.role with
  | outgoing =>
    rw [hr] at hneeds
    cases hneeds
    obtain ⟨duration, hduration, -⟩ := h.outgoingCall
    exact ⟨duration, by simp [hestablished, hduration]⟩
  | incoming =>
    rw [hr] at hneeds
    dsimp only at hneeds
    split at hneeds
    · rename_i hringing
      cases hneeds
      obtain ⟨duration, hduration, -⟩ := h.incomingRing
      exact ⟨duration, by simp [hringing, hduration]⟩
    · cases hneeds

/-- A refresh keeps a timeout that is about this call, and sets a new one otherwise. -/
theorem refreshed_activeTimeout_eq {snapshot : ActiveCallSnapshot}
    (h : s.core.snapshot.activeCall = some snapshot) {kind : TelephonyServiceTimeoutKind}
    {duration : Duration} (hdesired : desiredTimeout s.config snapshot = some (kind, duration))
    (now : Instant) : (refreshed now s).activeTimeout =
      if s.activeTimeout.any fun timeout =>
          timeout.linkId = snapshot.linkId ∧ timeout.kind = kind then s.activeTimeout
      else some { linkId := snapshot.linkId, kind, expiresAt := now + duration } := by
  dsimp only [refreshed, refreshActiveTimeout]
  rw [h]
  dsimp only
  rw [hdesired]

theorem refreshed_activeTimeout {snapshot : ActiveCallSnapshot}
    (h : s.core.snapshot.activeCall = some snapshot) {kind : TelephonyServiceTimeoutKind}
    {duration : Duration} (hdesired : desiredTimeout s.config snapshot = some (kind, duration))
    (now : Instant) : HasDeadline (refreshed now s) snapshot.linkId (.timeout kind) := by
  rw [HasDeadline, refreshed_activeTimeout_eq h hdesired]
  split
  · rename_i hmatches
    obtain ⟨timeout, htimeout, hmatches⟩ := Option.any_eq_true _ _ |>.mp hmatches
    exact ⟨timeout, htimeout, of_decide_eq_true hmatches⟩
  · exact ⟨_, rfl, rfl, rfl⟩

/-- A refresh keeps the answering state of the call that waits for the echo. -/
theorem refreshed_answering {snapshot : ActiveCallSnapshot} {answering : TelephonyAnsweringState}
    (h : s.core.snapshot.activeCall = some snapshot) (hanswering : s.answering = some answering)
    (hcall : answeringCall answering snapshot = true) (now : Instant) :
    (refreshed now s).answering = some answering := by
  have hfilter : (refreshed now s).answering = s.answering.filter fun answering =>
      s.core.snapshot.activeCall.any (answeringCall answering) := rfl
  rw [hfilter, hanswering, h]
  exact Option.filter_some_pos hcall

theorem Refreshable.refreshed (h : Refreshable s) (now : Instant) : Timed (refreshed now s) where
  config := h.config
  phased := h.phased
  armed := by
    intro active deadline hactive hneeds
    have hactive : s.core.activeCall = some active := hactive
    obtain ⟨snapshot, hsnapshot, hlink, hrole, hstatus, hanswered⟩ := snapshot_activeCall hactive
    cases deadline with
    | timeout kind =>
      obtain ⟨duration, hdesired⟩ := desiredTimeout_of_needed h.config hrole hstatus hneeds
      rw [← hlink]
      exact refreshed_activeTimeout hsnapshot hdesired now
    | answer =>
      obtain ⟨answering, expiresAt, hanswering, hanswers, hexpires⟩ := h.answer active hactive hneeds
      obtain ⟨hincoming, hacks, hconnecting⟩ := (h.phased active hactive).of_answer hneeds
      refine ⟨answering, expiresAt, refreshed_answering hsnapshot hanswering ?_ now, hanswers,
        hexpires⟩
      simp [answeringCall, hlink, hanswers, hrole, hincoming, hanswered, hacks, hstatus, hconnecting]

/-! ## Handlers -/

/-- Executed or refused, commands keep the core and the configuration. -/
theorem Controlled.same {commands : Except Error (List TelephonyCommand)} {now : Instant}
    (h : Controlled commands now s s') : s'.core = s.core ∧ s'.config = s.config := by
  unfold Controlled at h
  split at h
  · exact ⟨h.core, h.config⟩
  split at h
  · exact ⟨h.core, h.config⟩
  · exact ⟨h.core, h.config⟩

/-- After a hangup there is no call, whatever came of its commands. -/
theorem hangupActive_none (core : TelephonyRuntimeCore) (ringTimeout : Bool) :
    (core.hangupActive ringTimeout).2.activeCall = none := by
  rcases core.hangupActive_cases ringTimeout with
    ⟨hnone, h⟩ | ⟨active, commands, core', -, hnone, -, h⟩
  · rw [h]
    exact hnone
  · rw [h]
    exact hnone

theorem Timed.answered {linkId : LinkId} {now : Instant} (h : Timed s)
    (hanswered : Answered linkId now s s') : Timed s' := by
  rcases hanswered with hframe | ⟨commands, core, endpoint, hanswer, hframe⟩
  · exact h.frame hframe
  rcases s.core.answerActive_cases linkId with
    ⟨error, herror⟩ | ⟨active, _, hactive, hlink, hrole, hstatus, -, hok⟩
  · cases herror.symm.trans hanswer
  cases hok.symm.trans hanswer
  have hcall := CallState.answer_ringing hrole hstatus
  have hrefreshable : Refreshable (TelephonyService.answered linkId
      { s.core with activeCall := some { active with call := active.call.answer.1 } } now s
      endpoint) := by
    refine ⟨h.config, ?_, ?_⟩
    · rintro _ ⟨⟩ -
      rw [hcall]
      exact .inr (.inl ⟨rfl, rfl⟩)
    · rintro _ ⟨⟩ -
      obtain ⟨duration, hduration, hne⟩ := h.config.answer
      refine ⟨_, now + duration, rfl, hlink.symm, ?_⟩
      show deadline s.config.answerTimeout now = _
      rw [deadline, hduration, Option.filter_some_pos (by simpa using hne)]
      rfl
  exact (hrefreshable.refreshed now).frame hframe

theorem Timed.switchProfile {profile : Profile} {now : Instant} (h : Timed s)
    (hcontrolled : Controlled (s.core.switchActiveProfile profile).1 now
      { s with core := (s.core.switchActiveProfile profile).2 } s') : Timed s' := by
  rcases s.core.switchActiveProfile_cases profile with
    ⟨error, herror⟩ | ⟨active, commands, hactive, hstatus, -, hok⟩
  · rw [herror] at hcontrolled
    have hframe : Frame [] s s' := hcontrolled
    exact h.frame hframe
  · rw [hok] at hcontrolled
    obtain ⟨hcore, hconfig⟩ := hcontrolled.same
    refine .of_established (by rw [hconfig]; exact h.config) fun active' hactive' => ?_
    rw [hcore] at hactive'
    cases hactive'
    exact (active.call.switchProfile_status profile).trans hstatus

/-- The hangup of the active call, in any state with this core. -/
theorem Timed.hungUp {ringTimeout : Bool} {now : Instant}
    {activeTimeout : Option TelephonyServiceTimeout} (h : Timed s)
    (hcontrolled : Controlled (s.core.hangupActive ringTimeout).1 now
      { s with activeTimeout, core := (s.core.hangupActive ringTimeout).2 } s') : Timed s' := by
  obtain ⟨hcore, hconfig⟩ := hcontrolled.same
  refine .of_none (by rw [hconfig]; exact h.config) ?_
  rw [hcore]
  exact hangupActive_none s.core ringTimeout

theorem Timed.control (h : Timed s) (control : TelephonyControl audio) (now : Instant)
    (entropy : Nat) : wp (handleControl control now entropy) (fun _ => Timed) s := by
  cases hcontrol : changesCore control with
  | false => exact wp_mono (handleControl_frame hcontrol now entropy s) fun _ _ => h.frame
  | true =>
    cases control with
    | answer linkId => exact wp_mono (handleAnswer_cases linkId now s) fun _ _ => h.answered
    | hangup ringTimeout =>
      refine wp_mono (handleHangup_cases ringTimeout now s) fun _ _ hcases => ?_
      rcases hcases with ⟨-, hframe⟩ | ⟨-, hcontrolled⟩
      · exact h.frame hframe
      · exact h.hungUp hcontrolled
    | switchProfile profile =>
      exact wp_mono (handleSwitchProfile_cases profile now s) fun _ _ => h.switchProfile
    | setExternalBusy busy =>
      refine wp_mono (handleSetExternalBusy_cases busy now s) fun _ _ hframe => ?_
      have hbusy : Timed { s with core := s.core.setExternalBusy busy } := h.of_same rfl rfl rfl rfl
      exact (hbusy.refreshable.refreshed now).frame hframe
    | setAccessPolicy access => exact h.of_same rfl rfl rfl rfl
    | _ => cases hcontrol

theorem Timed.begun {remoteIdentity : IdentityHash} {profile : Option Profile}
    {peer : RemoteTelephonyPeer} {entropy : Nat} {now : Instant} (h : Timed s) (hbegins : Begins s)
    (hbegun : Begun remoteIdentity profile peer entropy now { s with outgoingDiscovery := none }
      s') : Timed s' := by
  dsimp only [Begun] at hbegun
  rcases s.endpoint.beginOutgoing_cases s.core remoteIdentity peer.publicKey profile peer.hops
    entropy with ⟨-, error, endpoint, hcases⟩ |
      ⟨⟨-, hroom⟩, result, endpoint, linkId, hcases, hresult⟩
  · rw [hcases] at hbegun
    have hframe : Frame [] _ s' := hbegun
    have hsame : Timed { s with outgoingDiscovery := none, endpoint } := h.of_same rfl rfl rfl rfl
    exact hsame.frame hframe
  · have h3 : 3 ≤ s.endpoint.transport.free := by
      unfold Begins at hbegins
      tauto
    rw [if_pos h3] at hresult
    subst hresult
    rw [hcases] at hbegun
    have hrefreshable : Refreshable { s with
        outgoingDiscovery := none
        endpoint
        core := { s.core.ensureIngress linkId with
          activeCall := some { linkId, remoteIdentity, call := .outgoing profile } } } := by
      refine ⟨h.config, ?_, ?_⟩
      · rintro _ ⟨⟩ ⟨⟩
      · rintro _ ⟨⟩ ⟨⟩
    have hframe : Frame [] _ s' := hbegun
    exact (hrefreshable.refreshed now).frame hframe

/-- Dropping an answering state that the active call does not need. -/
theorem Timed.dropAnswering (h : Timed s) {answering : TelephonyAnsweringState}
    (hanswering : s.answering = some answering)
    (hnot : ∀ active, s.core.activeCall = some active → active.linkId = answering.linkId →
      ¬ TelephonyRuntimeCore.Answering active) : Timed { s with answering := none } where
  config := h.config
  phased := h.phased
  armed := by
    intro active deadline hactive hneeds
    have hactive : s.core.activeCall = some active := hactive
    have harmed := h.armed active deadline hactive hneeds
    cases deadline with
    | timeout kind => exact harmed
    | answer =>
      obtain ⟨answering', expiresAt, hanswering', hlink, -⟩ := harmed
      cases hanswering.symm.trans hanswering'
      exact absurd ((h.phased active hactive).of_answer hneeds) (hnot active hactive hlink.symm)

theorem Timed.timedOut {now : Instant} {answering : TelephonyAnsweringState} (h : Timed s)
    (hanswering : s.answering = some answering) (htimedOut : TimedOut answering.linkId now s s') :
    Timed s' := by
  unfold TimedOut at htimedOut
  rcases s.core.timeoutAnswerActive_cases answering.linkId with
    ⟨⟨error, herror⟩, hnot⟩ | ⟨active, commands, core', -, hnone, -, hok⟩
  · rw [herror] at htimedOut
    rw [htimedOut]
    exact h.dropAnswering hanswering hnot
  · rw [hok] at htimedOut
    obtain ⟨endpoint, hframe⟩ := htimedOut
    exact .of_none (by rw [hframe.config]; exact h.config) (by rw [hframe.core]; exact hnone)

theorem Timed.retried (h : Timed s) (hretried : Retried s s') : Timed s' := by
  obtain ⟨nextRetryAt, hframe⟩ := hretried
  have hmoved : Timed { s with answering := s.answering.map fun answering =>
      { answering with nextRetryAt } } := by
    refine ⟨h.config, h.phased, fun active deadline hactive hneeds => ?_⟩
    have harmed := h.armed active deadline hactive hneeds
    cases deadline with
    | timeout kind => exact harmed
    | answer =>
      obtain ⟨answering, expiresAt, hanswering, hlink, hexpires⟩ := harmed
      refine ⟨{ answering with nextRetryAt }, expiresAt, ?_, hlink, hexpires⟩
      exact congrArg (Option.map _) hanswering
  exact hmoved.frame hframe

theorem Timed.dueAnswerRetry (h : Timed s) (now : Instant) :
    wp (handleDueAnswerRetry now) (fun _ => Timed) s := by
  refine wp_mono (handleDueAnswerRetry_cases now s) fun _ _ hcases => ?_
  rcases hcases with rfl | hretried | ⟨answering, hanswering, ⟨-, htimedOut⟩ | ⟨herror, rfl⟩⟩
  · exact h
  · exact h.retried hretried
  · exact h.timedOut hanswering htimedOut
  · exact h.dropAnswering hanswering (TelephonyRuntimeCore.retryAnswerActive_refused herror)

theorem Timed.dueTimeout (h : Timed s) (now : Instant) :
    wp (handleDueTimeout now) (fun _ => Timed) s := by
  refine wp_mono (handleDueTimeout_cases now s) fun _ _ hcases => ?_
  rcases hcases with ⟨-, rfl | ⟨hnone, rfl⟩ | hframe⟩ | ⟨timeout, -, hcontrolled⟩
  · exact h
  · exact .of_none h.config hnone
  · exact (h.refreshable.refreshed now).frame hframe
  · exact h.hungUp hcontrolled

/-- Link events that create no need of a deadline. -/
theorem Timed.inherited (h : Timed s) {last : TelephonyRnsEndpoint.Line rns}
    (hinherits : Inherits (fun _ => True) s.core last.core) :
    Timed { s with endpoint := last.endpoint, core := last.core } := by
  obtain ⟨hphased, hneeds⟩ := hinherits h.phased
  refine ⟨h.config, hphased, fun active' deadline hactive' hneeds' => ?_⟩
  obtain ⟨active, hactive, hlink, hneeded⟩ := hneeds active' deadline hactive' hneeds' trivial
  rw [← hlink]
  exact h.armed active deadline hactive hneeded

/-- Link events never create the need of an answer deadline. -/
theorem Timed.inherited_answer (h : Timed s) {last : TelephonyRnsEndpoint.Line rns}
    (hinherits : Inherits (· = .answer) s.core last.core) :
    Refreshable { s with endpoint := last.endpoint, core := last.core } := by
  obtain ⟨hphased, hneeds⟩ := hinherits h.phased
  refine ⟨h.config, hphased, fun active' hactive' hneeds' => ?_⟩
  obtain ⟨active, hactive, hlink, hneeded⟩ := hneeds active' .answer hactive' hneeds' rfl
  rw [← hlink]
  exact h.armed active .answer hactive hneeded

theorem Refreshable.frame {links : List LinkId} (h : Refreshable s) (hframe : Frame links s s') :
    Refreshable s' where
  config := hframe.config ▸ h.config
  phased := hframe.core ▸ h.phased
  answer active hactive hneeds := by
    rw [hframe.core] at hactive
    have hanswer := h.answer active hactive hneeds
    rwa [HasDeadline, hframe.answering]

/-- A turn that neither fails nor completes a step lets nobody in. -/
theorem not_admitsCaller {line : TelephonyRnsEndpoint.Line rns}
    (hok : TelephonyRnsEndpoint.turnError line = none)
    (hidle : TelephonyRnsEndpoint.completedStep line = none) : ¬ AdmitsCaller line := by
  rintro ⟨event, hevent, -⟩
  rcases TelephonyRnsEndpoint.tryDriveOnce_core line with ⟨-, -, hnone⟩ | ⟨_, -, -, hcompletes⟩
  · exact hnone event hevent
  · exact hcompletes hok hidle

/-- No batch of link events fails that has let a caller in. -/
def Settles (fuel : Nat) (s : TelephonyService rns audio) : Prop :=
  ∀ turns last, TelephonyRnsEndpoint.driveTurns fuel s.line = some (turns, last) →
    (∀ line ∈ turns, TelephonyRnsEndpoint.turnError line = none) ∨
      ∀ line ∈ turns, ¬ AdmitsCaller line

theorem Timed.driven {fuel : Nat} {now : Instant} (h : Timed s) (hsettles : Settles fuel s)
    {result : Except Error (List TelephonyDriveStep)} {last : TelephonyRnsEndpoint.Line rns}
    (hdriven : TelephonyRnsEndpoint.tryDriveReady fuel s.line = some (result, last))
    (hpublished : Driven result last now s true s') : Timed s' := by
  rw [TelephonyRnsEndpoint.tryDriveReady_eq] at hdriven
  obtain ⟨⟨turns, last'⟩, hturns, houtcome⟩ := Option.map_eq_some_iff.mp hdriven
  cases houtcome
  have hcalm (hnone : ∀ line ∈ turns, ¬ AdmitsCaller line) :
      Timed { s with endpoint := last.endpoint, core := last.core } :=
    h.inherited (.of_turns hturns fun _ => hnone)
  have hrefreshable : Refreshable { s with endpoint := last.endpoint, core := last.core } :=
    h.inherited_answer (.of_turns hturns nofun)
  dsimp only [Driven, TelephonyRnsEndpoint.outcome] at hpublished
  cases herror : TelephonyRnsEndpoint.firstError turns with
  | some error =>
    rw [herror] at hpublished
    have hframe : Frame [] _ s' := hpublished
    refine (hcalm ?_).frame hframe
    refine (hsettles turns last hturns).resolve_left fun hok => ?_
    cases herror.symm.trans (TelephonyRnsEndpoint.firstError_eq_none_iff.mpr hok)
  | none =>
    rw [herror] at hpublished
    obtain ⟨s₁, hsteps, ⟨hempty, hframe⟩ | hframe⟩ := hpublished
    · -- nothing was driven, so nobody was let in
      have hidle := TelephonyRnsEndpoint.completed_eq_nil_iff.mp (hempty rfl)
      have hok := TelephonyRnsEndpoint.firstError_eq_none_iff.mp herror
      refine ((hcalm fun line hline => ?_).frame hsteps).frame hframe
      exact not_admitsCaller (hok line hline) (hidle line hline)
    · exact ((hrefreshable.frame hsteps).refreshed now).frame hframe

/-! ## Runs -/

/-- An outgoing call does not fail after it was registered, and no batch of link events fails that
has let a caller in. -/
def Arms (s : TelephonyService rns audio) : Activity rns audio → Prop
  | .internal event _ _ => ∀ remoteIdentity profile peer,
    Discovers event s remoteIdentity profile peer → Begins s
  | .driveReady fuel _ => Settles fuel s
  | _ => True

theorem Timed.continues {activity : Activity rns audio} (h : Timed s) (harms : Arms s activity)
    (hperforms : Continues s activity s') : Timed s' := by
  unfold Continues at hperforms
  cases activity with
  | control control now entropy => exact of_performed hperforms (h.control control now entropy)
  | internal event now entropy =>
    rcases of_performed hperforms (handleInternal_cases event now entropy s) with
      hframe | ⟨remoteIdentity, profile, peer, hdiscovers, hbegun⟩
    · exact h.frame hframe
    · exact h.begun (harms remoteIdentity profile peer hdiscovers) hbegun
  | tickReticulum =>
    cases hperforms
    exact h.of_same rfl rfl rfl rfl
  | dueAnnounce now entropy =>
    exact h.frame (of_performed hperforms (handleDueAnnounce_frame now entropy s))
  | driveReady fuel now =>
    obtain ⟨result, last, hdriven, hpublished⟩ := driveReady_cases hperforms
    exact h.driven harms hdriven hpublished
  | dueAnswerRetry now => exact of_performed hperforms (h.dueAnswerRetry now)
  | dueTimeout now => exact of_performed hperforms (h.dueTimeout now)
  | pumpOpusStream now => exact h.frame (of_performed hperforms (pumpOpusStream_frame now s))
  | outside endpoint media =>
    cases hperforms
    exact h.of_same rfl rfl rfl rfl
  | stop now => cases hperforms

/-- **In every run of a service that starts without an unestablished call**, an active call that is
not established has its deadline after each activity, if all activities of the run arm. -/
theorem deadline_armed {endpoint : TelephonyRnsEndpoint rns} {core : TelephonyRuntimeCore}
    {config : TelephonyServiceConfig} {eventsLeft : Option Nat} {now : Instant}
    {s' : TelephonyService rns audio}
    {ts : List (Machine.Transition (TelephonyService rns audio) (Activity rns audio))}
    (hconfig : Configured config)
    (hcore : ∀ active, core.activeCall = some active → active.call.status = .established)
    (h : Machine.Trace Continues (withConfig endpoint core config eventsLeft now) ts s')
    (harms : ∀ t ∈ ts, Arms t.before t.input) : ∀ t ∈ ts, Armed t.after := by
  intro t ht
  have hstart : Timed (withConfig endpoint core config eventsLeft now : TelephonyService rns audio) :=
    .of_established hconfig hcore
  exact (h.transition (fun _ _ _ h harms hperforms => h.continues harms hperforms) hstart harms t
    ht).2.2.armed

theorem configured_default : Configured .default :=
  ⟨⟨_, rfl, by decide⟩, ⟨_, rfl, by decide⟩, ⟨_, rfl, by decide⟩⟩

/-- A caller is let in, and the call rings until its time is up. -/
theorem deadline_armed_ringing : ∃ ts s',
    Machine.Trace Continues (calledBy 8 []) ts s' ∧ ts.length = 2 ∧ ∀ t ∈ ts, Armed t.after := by
  have hrun : (((calledBy 8 []).perform (.driveReady 6 0)).bind fun first =>
      (first.2.perform (.dueTimeout (fromSecs 61))).map fun second => (first.1, second.1)) =
        some (true, true) := by decide +kernel
  have hok : (TelephonyRnsEndpoint.driveTurns 6 (calledBy 8 []).line).map
      (fun turns => TelephonyRnsEndpoint.firstError turns.1) = some none := by decide +kernel
  obtain ⟨⟨_, s⟩, hring, hrun⟩ := Option.bind_eq_some_iff.mp hrun
  obtain ⟨⟨_, s'⟩, htimeout, htrue⟩ := Option.map_eq_some_iff.mp hrun
  cases htrue
  have htrace : Machine.Trace Continues (calledBy 8 [])
      [⟨calledBy 8 [], .driveReady 6 0, s⟩, ⟨s, .dueTimeout (fromSecs 61), s'⟩] s' :=
    .cons hring (.cons htimeout (.nil s'))
  have hsettles : Settles 6 (calledBy 8 []) := fun turns last hturns => by
    rw [hturns, Option.map_some, Option.some_inj] at hok
    exact .inl (TelephonyRnsEndpoint.firstError_eq_none_iff.mp hok)
  have hidle (active : ActiveCall) (hactive : TelephonyRuntimeCore.new.activeCall = some active) :
      active.call.status = .established := by cases hactive
  exact ⟨_, s', htrace, rfl, deadline_armed configured_default hidle htrace
    (List.forall_mem_cons.mpr ⟨hsettles, List.forall_mem_singleton.mpr trivial⟩)⟩

/-- A packet of an unknown link right after the caller is let in: the call rings without a
timeout. -/
theorem failed_batch_unarmed :
    ¬ ∀ (rns : Rns) (audio : Audio) (endpoint : TelephonyRnsEndpoint rns)
      (core : TelephonyRuntimeCore) (config : TelephonyServiceConfig) (eventsLeft : Option Nat)
      (now : Instant) (s' : TelephonyService rns audio)
      (ts : List (Machine.Transition (TelephonyService rns audio) (Activity rns audio))),
      Configured config → core = .new →
        Machine.Trace Continues (withConfig endpoint core config eventsLeft now) ts s' →
          ∀ t ∈ ts, Armed t.after := fun hall => by
  have hrun : ((calledBy 8 [([], .replicate 16 2)]).perform (.driveReady 6 0)).map (fun result =>
      (result.1, result.2.core.activeCall.map (neededDeadline ·.call), result.2.activeTimeout)) =
        some (true, some (some (.timeout .incomingRing)), none) := by decide +kernel
  obtain ⟨⟨_, s⟩, hring, hresult⟩ := Option.map_eq_some_iff.mp hrun
  obtain ⟨htrue, hresult⟩ := Prod.mk.inj hresult
  obtain ⟨hneeds, htimeout⟩ := Prod.mk.inj hresult
  cases htrue
  obtain ⟨active, hactive, hneeds⟩ := Option.map_eq_some_iff.mp hneeds
  have harmed := hall _ _ _ _ _ _ _ s [⟨_, .driveReady 6 0, s⟩] configured_default rfl
    (.cons hring (.nil s)) _ (List.mem_singleton_self _) active _ hactive hneeds
  obtain ⟨timeout, hsome, -⟩ := harmed
  cases hsome.symm.trans htimeout

end TelephonyService

end Lxst.Telephony
