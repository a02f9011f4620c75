import RsLxst.Telephony.Proof.Drive
import RsLxst.Telephony.Proof.Handlers
import RsLxst.Telephony.Proof.Outgoing

/-!
# The end of a call is reported

A call ends by hangup, by a timeout, by a signal, by the closure of its link or by the end of the
service, and its commands are executed before they are published. `performs_accounts`: an
activity reports exactly the calls that it ends, unless the endpoint refuses the commands of a
hangup, a timeout or a shutdown, or a batch of link events fails that has ended a call. An answer
timeout is published although the endpoint refuses its commands.
-/

set_option autoImplicit false

namespace Lxst.Telephony

variable {rns : Rns} {audio : Audio}

/-- The link of the active call. -/
def TelephonyRuntimeCore.activeLink (self : TelephonyRuntimeCore) : Option LinkId :=
  self.activeCall.map (·.linkId)

/-- The link of an active call that is gone or gave way to a call on another link. -/
def endedCall (core core' : TelephonyRuntimeCore) : List LinkId :=
  if core'.activeLink = core.activeLink then [] else core.activeLink.toList

/-- The call that the turn from this state ends. -/
def endedIn (line : TelephonyRnsEndpoint.Line rns) : List LinkId :=
  endedCall line.core (TelephonyRnsEndpoint.tryDriveOnce line).2.core

namespace TelephonyService

open Program

/-- The calls that an activity ends, in order: `drive_ready` applies many link events. -/
def endedCalls (s : TelephonyService rns audio) (activity : Activity rns audio)
    (s' : TelephonyService rns audio) : List LinkId :=
  match activity with
  | .driveReady fuel _ =>
    ((TelephonyRnsEndpoint.driveTurns fuel s.line).map fun turns => turns.1.flatMap endedIn).getD []
  | _ => endedCall s.core s'.core

/-- The events emitted terminate these calls. -/
def Reports (links : List LinkId) (s s' : TelephonyService rns audio) : Prop :=
  ∃ new, s'.events = s.events ++ new ∧ terminations new = links

/-- The commands that end a call are executed, and no batch of link events that ends a call
fails. -/
def Publishes (s : TelephonyService rns audio) : Activity rns audio → Prop
  | .control (.hangup ringTimeout) _ _ =>
    s.outgoingDiscovery = none → Executes (s.core.hangupActive ringTimeout).1 s
  | .dueTimeout now => ∀ timeout, Due now s timeout →
    Executes (s.core.hangupActive (timeout.kind = .incomingRing)).1 s
  | .stop _ => s.core.activeCall.isSome → Executes (.ok s.core.shutdown.1) s
  | .driveReady fuel _ => ∀ turns last,
    TelephonyRnsEndpoint.driveTurns fuel s.line = some (turns, last) →
      (∀ line ∈ turns, TelephonyRnsEndpoint.turnError line = none) ∨
        ∀ line ∈ turns, endedIn line = []
  | _ => True

/-! ## Ended calls -/

variable {s s' : TelephonyService rns audio} {core core' : TelephonyRuntimeCore}

theorem endedCall_same (h : core'.activeLink = core.activeLink) : endedCall core core' = [] :=
  if_pos h

/-- A call that goes on is on the same link. -/
theorem activeLink_kept {active : ActiveCall} {call : CallState} (h : core.activeCall = some active)
    (h' : core'.activeCall = some { active with call }) : core'.activeLink = core.activeLink := by
  rw [TelephonyRuntimeCore.activeLink, TelephonyRuntimeCore.activeLink, h, h']
  rfl

theorem endedCall_of_activeCall (h : core'.activeCall = core.activeCall) :
    endedCall core core' = [] := endedCall_same (congrArg (Option.map _) h)

theorem endedCall_none (h : core'.activeCall = none) :
    endedCall core core' = (core.activeCall.map (·.linkId)).toList := by
  unfold endedCall TelephonyRuntimeCore.activeLink
  rw [h]
  cases core.activeCall <;> rfl

theorem endedCall_of_none (h : core.activeCall = none) (core' : TelephonyRuntimeCore) :
    endedCall core core' = [] := by
  unfold endedCall TelephonyRuntimeCore.activeLink
  rw [h]
  split <;> rfl

/-- A net end is among the ends on the way. -/
theorem endedCall_sublist (core core' core'' : TelephonyRuntimeCore) :
    (endedCall core core'').Sublist (endedCall core core' ++ endedCall core' core'') := by
  unfold endedCall
  by_cases h : core'.activeLink = core.activeLink
  · rw [if_pos h, h, List.nil_append]
  · rw [if_neg h]
    refine .trans ?_ (List.sublist_append_left _ _)
    split
    · exact List.nil_sublist _
    · exact .refl _

/-- The commands of an event announce the end of the call that it ends. -/
theorem endedCall_of_step {event : TelephonyLinkEvent} {commands : Option (List TelephonyCommand)}
    (h : core.CallStep event commands core') :
    ∀ c ∈ commands, terminatedBy c = endedCall core core' := by
  cases h with
  | signals h =>
    cases h with
    | kept h hq => rwa [endedCall_of_activeCall h]
    | signalled h h' hr hq =>
      rwa [endedCall_same (activeLink_kept h h')]
    | ended h h' hq => rwa [endedCall_none h', h]
  | admitted he hknown hidle hallowed h' hq =>
    rwa [endedCall_of_none (TelephonyRuntimeCore.activeCall_of_idle hidle)]

/-! ## Link events -/

section
open TelephonyRnsEndpoint

/-- The step of a turn that does not fail announces the end of the call that the turn ends. -/
theorem terminatedBy_completedStep {line : Line rns} (h : turnError line = none) :
    ((completedStep line).toList.flatMap fun step => terminatedBy step.step.commands) =
      endedIn line := by
  rcases tryDriveOnce_core line with ⟨hcore, hnone, -⟩ | ⟨event, -, hstep, hcompleted⟩
  · rw [hnone, endedIn, hcore, endedCall_same rfl]
    rfl
  · obtain ⟨step, hsome⟩ := Option.ne_none_iff_exists'.mp (hcompleted h)
    rw [hsome] at hstep ⊢
    exact (List.append_nil _).trans (endedCall_of_step hstep _ rfl)

theorem terminatedBy_completed {turns : List (Line rns)}
    (h : ∀ line ∈ turns, turnError line = none) :
    ((completed turns).flatMap fun step => terminatedBy step.step.commands) =
      turns.flatMap endedIn := by
  have hsteps : completed turns = turns.flatMap fun line => (completedStep line).toList :=
    List.filterMap_eq_flatMap_toList completedStep turns
  rw [hsteps, List.flatMap_assoc]
  exact List.flatMap_congr fun line hline => terminatedBy_completedStep (h line hline)

theorem driveTurns_ended {fuel : Nat} {line last : Line rns} {turns : List (Line rns)}
    (h : driveTurns fuel line = some (turns, last)) :
    (endedCall line.core last.core).Sublist (turns.flatMap endedIn) := by
  refine driveTurns_induction (P := fun core turns core' =>
    (endedCall core core').Sublist (turns.flatMap endedIn)) (fun core => ?_)
    (fun line turns core hrest => ?_) h
  · rw [endedCall_same rfl]
    exact .refl _
  · rw [List.flatMap_cons]
    exact (endedCall_sublist _ _ _).trans (List.Sublist.append (.refl _) hrest)

end

/-! ## Accounts -/

/-- The terminations told between `s` and `s'` are those of the `ended` calls exactly if `p`. -/
def Accounts (ended : List LinkId) (p : Prop) (s s' : TelephonyService rns audio) : Prop :=
  ∃ links, Tells links s s' ∧ (ended = links ↔ p)

theorem Accounts.reports_iff {ended : List LinkId} {p : Prop} (h : Accounts ended p s s')
    (hopen : s.eventsLeft = none) : Reports ended s s' ↔ p := by
  obtain ⟨links, htells, hiff⟩ := h
  obtain ⟨-, new, hnew, hlinks⟩ := htells hopen
  rw [← hiff]
  constructor
  · rintro ⟨new', hnew', rfl⟩
    rw [← hlinks, List.append_cancel_left (hnew'.symm.trans hnew)]
  · rintro rfl
    exact ⟨new, hnew, hlinks⟩

/-- What an activity ends is told. -/
theorem Tells.accounts {ended : List LinkId} {p : Prop} (h : Tells ended s s') (hp : p) :
    Accounts ended p s s' := ⟨ended, h, iff_of_true rfl hp⟩

/-- An activity that leaves the active call's link alone and tells nothing. -/
theorem Tells.accounts_same {p : Prop} (h : Tells [] s s')
    (hcore : s'.core.activeLink = s.core.activeLink) (hp : p) :
    Accounts (endedCall s.core s'.core) p s s' :=
  ⟨[], h, iff_of_true (endedCall_same hcore) hp⟩

theorem Frame.accounts {p : Prop} (h : Frame [] s s') (hp : p) :
    Accounts (endedCall s.core s'.core) p s s' := h.tells.accounts_same (congrArg _ h.core) hp

/-- An ended call that is told on a condition. -/
theorem Accounts.of_outcome {ended : List LinkId} {p : Prop}
    (h : p ∧ Tells ended s s' ∨ ¬ p ∧ Tells [] s s') (hne : ended ≠ []) :
    Accounts ended p s s' := by
  rcases h with ⟨hp, htells⟩ | ⟨hp, htells⟩
  · exact htells.accounts hp
  · exact ⟨[], htells, iff_of_false hne hp⟩

/-- Commands keep the core, and are published exactly if the endpoint executes them. -/
theorem Controlled.outcome {list : List TelephonyCommand} {now : Instant}
    {t : TelephonyService rns audio} (h : Controlled (.ok list) now t s') : s'.core = t.core ∧
      (Executes (.ok list) t ∧ Tells (terminatedBy list) t s' ∨
        ¬ Executes (.ok list) t ∧ Tells [] t s') := by
  dsimp only [Controlled] at h
  split at h
  · rename_i herror
    refine ⟨h.core, .inr ⟨fun hexecutes => ?_, h.tells⟩⟩
    obtain ⟨effects, hok⟩ := hexecutes list rfl
    rw [herror] at hok
    cases hok
  · rename_i effects endpoint hok
    refine ⟨h.core, .inl ⟨?_, h.tells⟩⟩
    rintro _ ⟨⟩
    exact ⟨effects, by rw [hok]⟩

/-- The hangup of an active call is told exactly if its commands are executed. -/
theorem Controlled.hangup_accounts {ringTimeout : Bool} {now : Instant}
    {activeTimeout : Option TelephonyServiceTimeout}
    (h : Controlled (s.core.hangupActive ringTimeout).1 now
      { s with activeTimeout, core := (s.core.hangupActive ringTimeout).2 } s') :
    Accounts (endedCall s.core s'.core) (Executes (s.core.hangupActive ringTimeout).1 s) s s' := by
  rcases s.core.hangupActive_cases ringTimeout with
    ⟨hnone, hhangup⟩ | ⟨active, commands, core', hactive, hnone, hlinks, hhangup⟩
  · rw [hhangup] at h ⊢
    have hquiet : Frame [] _ s' := h
    exact Tells.accounts_same hquiet.tells (congrArg _ hquiet.core) nofun
  · rw [hhangup] at h ⊢
    obtain ⟨hcore, houtcome⟩ := h.outcome
    rw [endedCall_none (by rw [hcore]; exact hnone), hactive]
    rw [hlinks] at houtcome
    exact .of_outcome houtcome nofun

/-! ## Handlers -/

theorem Answered.accounts {linkId : LinkId} {now : Instant} (h : Answered linkId now s s') :
    Accounts (endedCall s.core s'.core) True s s' := by
  rcases h with h | ⟨commands, core, endpoint, hanswer, h⟩
  · exact h.accounts trivial
  rcases s.core.answerActive_cases linkId with
    ⟨error, herror⟩ | ⟨active, commands', hactive, -, -, -, hquiet, hok⟩
  · cases herror.symm.trans hanswer
  · cases hok.symm.trans hanswer
    rw [hquiet] at h
    refine Tells.accounts_same h.tells ?_ trivial
    rw [h.core]
    exact activeLink_kept hactive rfl

theorem Controlled.switchProfile_accounts {profile : Profile} {now : Instant}
    (h : Controlled (s.core.switchActiveProfile profile).1 now
      { s with core := (s.core.switchActiveProfile profile).2 } s') :
    Accounts (endedCall s.core s'.core) True s s' := by
  rcases s.core.switchActiveProfile_cases profile with
    ⟨error, herror⟩ | ⟨active, commands, hactive, -, hquiet, hok⟩
  · rw [herror] at h
    have hquiet : Frame [] s s' := h
    exact hquiet.accounts trivial
  · rw [hok] at h
    obtain ⟨hcore, houtcome⟩ := h.outcome
    rw [hquiet] at houtcome
    have htells : Tells [] s s' := houtcome.elim (·.2) (·.2)
    refine htells.accounts_same ?_ trivial
    rw [hcore]
    exact activeLink_kept hactive rfl

/-- An outgoing call is begun only on an idle line. -/
theorem Begun.accounts {remoteIdentity : IdentityHash} {profile : Option Profile}
    {peer : RemoteTelephonyPeer} {entropy : Nat} {now : Instant}
    (h : Begun remoteIdentity profile peer entropy now { s with outgoingDiscovery := none } s') :
    Accounts (endedCall s.core s'.core) True s s' := by
  dsimp only [Begun] at h
  rcases s.endpoint.beginOutgoing_cases s.core remoteIdentity peer.publicKey profile peer.hops
    entropy with ⟨-, error, endpoint, hbegun⟩ | ⟨⟨hnone, -⟩, result, endpoint, linkId, hbegun, -⟩
  · rw [hbegun] at h
    have hframe : Frame [] _ s' := h
    exact Tells.accounts_same hframe.tells (congrArg _ hframe.core) trivial
  · rw [hbegun] at h
    have htells : Tells [] s s' := by
      cases result with
      | error error =>
        have hframe : Frame [] _ s' := h
        exact hframe.tells
      | ok linkId =>
        have hframe : Frame [] _ s' := h
        exact hframe.tells
    exact ⟨[], htells, iff_of_true (endedCall_of_none hnone _) trivial⟩

theorem TimedOut.accounts {linkId : LinkId} {now : Instant} (h : TimedOut linkId now s s') :
    Accounts (endedCall s.core s'.core) True s s' := by
  unfold TimedOut at h
  rcases s.core.timeoutAnswerActive_cases linkId with
    ⟨⟨error, herror⟩, -⟩ | ⟨active, commands, core', ⟨hactive, -⟩, hnone, hlinks, hok⟩
  · rw [herror] at h
    rw [h]
    exact Tells.accounts_same (.of_events rfl rfl) rfl trivial
  · rw [hok] at h
    obtain ⟨endpoint, h⟩ := h
    rw [endedCall_none (by rw [h.core]; exact hnone), hactive]
    rw [hlinks] at h
    exact Tells.accounts h.tells trivial

theorem ShutDown.accounts {now : Instant} (h : ShutDown now s s') :
    Accounts (endedCall s.core s'.core)
      (s.core.activeCall.isSome → Executes (.ok s.core.shutdown.1) s) s s' := by
  obtain ⟨s₁, hcommands, hclosed⟩ := h
  obtain ⟨hnone, hlinks⟩ := s.core.shutdown_cases
  have hcore : s₁.core = s.core.shutdown.2 := by
    rcases hcommands with ⟨-, rfl⟩ | h
    · rfl
    · exact h.outcome.1
  rw [endedCall_none (by rw [hclosed.core, hcore]; exact hnone)]
  cases hactive : s.core.activeCall with
  | none =>
    rw [hactive] at hlinks
    have htells : Tells [] s s₁ := by
      rcases hcommands with ⟨-, rfl⟩ | h
      · exact .of_events rfl rfl
      · have htells := h.outcome.2
        rw [hlinks] at htells
        exact htells.elim (·.2) (·.2)
    exact (htells.trans hclosed.tells).accounts nofun
  | some active =>
    rw [hactive] at hlinks
    rcases hcommands with ⟨hnil, -⟩ | h
    · rw [hnil] at hlinks
      cases hlinks
    have houtcome := h.outcome.2
    rw [hlinks] at houtcome
    have houtcome : Executes (.ok s.core.shutdown.1) s ∧ Tells [active.linkId] s s' ∨
        ¬ Executes (.ok s.core.shutdown.1) s ∧ Tells [] s s' :=
      houtcome.imp (fun h => ⟨h.1, Tells.trans h.2 hclosed.tells⟩)
        fun h => ⟨h.1, Tells.trans h.2 hclosed.tells⟩
    rw [Option.isSome_some, eq_self, true_imp_iff]
    exact .of_outcome houtcome nofun

/-- A batch of link events is told unless it fails. -/
theorem Driven.accounts {fuel : Nat} {now : Instant} {sent : Bool}
    {result : Except Error (List TelephonyRnsEndpoint.TelephonyDriveStep)}
    {last : TelephonyRnsEndpoint.Line rns}
    (hdriven : TelephonyRnsEndpoint.tryDriveReady fuel s.line = some (result, last))
    (h : Driven result last now s sent s') :
    Accounts (endedCalls s (.driveReady fuel now) s') (Publishes s (.driveReady fuel now)) s s' := by
  rw [TelephonyRnsEndpoint.tryDriveReady_eq] at hdriven
  obtain ⟨⟨turns, last'⟩, hturns, houtcome⟩ := Option.map_eq_some_iff.mp hdriven
  cases houtcome
  have hended : endedCalls s (.driveReady fuel now) s' = turns.flatMap endedIn := by
    rw [endedCalls, hturns]
    rfl
  have hpublishes : Publishes s (.driveReady fuel now) ↔
      (∀ line ∈ turns, TelephonyRnsEndpoint.turnError line = none) ∨
        ∀ line ∈ turns, endedIn line = [] := by
    constructor
    · intro hpublishes
      exact hpublishes turns last hturns
    · intro hgood turns' last' hturns'
      cases hturns.symm.trans hturns'
      exact hgood
  rw [Accounts, hended, hpublishes, ← TelephonyRnsEndpoint.firstError_eq_none_iff,
    ← List.flatMap_eq_nil_iff]
  dsimp only [Driven, TelephonyRnsEndpoint.outcome] at h
  cases herror : TelephonyRnsEndpoint.firstError turns with
  | some error =>
    rw [herror] at h
    have hframe : Frame [] _ s' := h
    exact ⟨[], hframe.tells, .inr, fun h => h.resolve_left nofun⟩
  | none =>
    rw [herror] at h
    obtain ⟨s₁, hsteps, hrest⟩ := h
    rw [terminatedBy_completed (TelephonyRnsEndpoint.firstError_eq_none_iff.mp herror)] at hsteps
    have hrest : Tells [] s₁ s' := hrest.elim (·.2.tells) (·.tells)
    have htells := hsteps.tells.trans hrest
    rw [List.append_nil] at htells
    exact ⟨_, htells, iff_of_true rfl (.inl rfl)⟩

theorem handleControl_accounts (control : TelephonyControl audio) (now : Instant) (entropy : Nat)
    (s : TelephonyService rns audio) : wp (handleControl control now entropy) (fun _ s' =>
      Accounts (endedCall s.core s'.core) (Publishes s (.control control now entropy)) s s') s := by
  cases hcontrol : changesCore control with
  | false =>
    refine wp_mono (handleControl_frame hcontrol now entropy s) fun _ s' h => h.accounts ?_
    cases control <;> trivial
  | true =>
    cases control with
    | answer linkId => exact wp_mono (handleAnswer_cases linkId now s) fun _ _ h => h.accounts
    | hangup ringTimeout =>
      refine wp_mono (handleHangup_cases ringTimeout now s) fun _ _ h => ?_
      rcases h with ⟨hdiscovery, h⟩ | ⟨hdiscovery, h⟩
      · exact h.accounts fun hnone => absurd hnone hdiscovery
      · obtain ⟨links, htells, hiff⟩ := h.hangup_accounts
        exact ⟨links, htells, hiff.trans
          ⟨fun hexecutes _ => hexecutes, fun hpublishes => hpublishes hdiscovery⟩⟩
    | switchProfile profile =>
      exact wp_mono (handleSwitchProfile_cases profile now s) fun _ _ h => h.switchProfile_accounts
    | setExternalBusy busy =>
      exact wp_mono (handleSetExternalBusy_cases busy now s) fun _ _ h =>
        Tells.accounts_same h.tells (by rw [h.core]; rfl) trivial
    | setAccessPolicy access => exact Tells.accounts_same (.of_events rfl rfl) rfl trivial
    | _ => cases hcontrol

theorem handleDueTimeout_accounts (now : Instant) (s : TelephonyService rns audio) :
    wp (handleDueTimeout now) (fun _ s' =>
      Accounts (endedCall s.core s'.core) (Publishes s (.dueTimeout now)) s s') s := by
  refine wp_mono (handleDueTimeout_cases now s) fun _ s' h => ?_
  rcases h with ⟨hnot, h⟩ | ⟨timeout, hdue, h⟩
  · have hpublishes : Publishes s (.dueTimeout now) := fun timeout hdue =>
      absurd hdue (hnot timeout)
    rcases h with rfl | ⟨-, rfl⟩ | h
    · exact (Frame.refl s').accounts hpublishes
    · exact Tells.accounts_same (.of_events rfl rfl) rfl hpublishes
    · exact Tells.accounts_same h.tells (congrArg _ h.core) hpublishes
  · obtain ⟨links, htells, hiff⟩ := h.hangup_accounts
    refine ⟨links, htells, hiff.trans ⟨fun hexecutes timeout' hdue' => ?_, fun hpublishes => ?_⟩⟩
    · rw [hdue.unique hdue']
      exact hexecutes
    · exact hpublishes timeout hdue

/-- **What an activity tells**: the calls that it ends, exactly if it publishes. -/
theorem performs_accounts {activity : Activity rns audio} (h : Performs s activity s') :
    Accounts (endedCalls s activity s') (Publishes s activity) s s' := by
  obtain ⟨continues, h⟩ := h
  cases activity with
  | control control now entropy =>
    exact of_performed h (handleControl_accounts control now entropy s)
  | internal event now entropy =>
    rcases of_performed h (handleInternal_cases event now entropy s) with
      h | ⟨remoteIdentity, profile, peer, -, h⟩
    · exact h.accounts trivial
    · exact h.accounts
  | tickReticulum =>
    cases h
    exact Tells.accounts_same (.of_events rfl rfl) rfl trivial
  | dueAnnounce now entropy =>
    exact (of_performed h (handleDueAnnounce_frame now entropy s)).accounts trivial
  | driveReady fuel now =>
    obtain ⟨result, last, hdriven, h⟩ := driveReady_cases h
    exact h.accounts hdriven
  | dueAnswerRetry now =>
    rcases of_performed h (handleDueAnswerRetry_cases now s) with
      rfl | ⟨nextRetryAt, h⟩ | ⟨answering, -, ⟨-, h⟩ | ⟨-, rfl⟩⟩
    · exact (Frame.refl s').accounts trivial
    · exact Tells.accounts_same h.tells (congrArg _ h.core) trivial
    · exact h.accounts
    · exact Tells.accounts_same (.of_events rfl rfl) rfl trivial
  | dueTimeout now => exact of_performed h (handleDueTimeout_accounts now s)
  | pumpOpusStream now => exact (of_performed h (pumpOpusStream_frame now s)).accounts trivial
  | outside endpoint media =>
    cases h
    exact Tells.accounts_same (.of_events rfl rfl) rfl trivial
  | stop now =>
    cases h
    exact (stop_cases now s).accounts

/-- The service never closes the event channel itself. -/
theorem Performs.keepsOpen {activity : Activity rns audio} (h : Performs s activity s')
    (hopen : s.eventsLeft = none) : s'.eventsLeft = none := by
  obtain ⟨links, htells, -⟩ := performs_accounts h
  exact (htells hopen).1

theorem endedCall_sublist_endedCalls {activity : Activity rns audio}
    (h : Performs s activity s') :
    (endedCall s.core s'.core).Sublist (endedCalls s activity s') := by
  cases activity with
  | driveReady fuel now =>
    obtain ⟨continues, h⟩ := h
    obtain ⟨result, last, hdriven, h⟩ := driveReady_cases h
    rw [TelephonyRnsEndpoint.tryDriveReady_eq] at hdriven
    obtain ⟨⟨turns, last'⟩, hturns, houtcome⟩ := Option.map_eq_some_iff.mp hdriven
    cases houtcome
    have hcore : s'.core = last.core := by
      dsimp only [Driven] at h
      split at h
      · exact h.core
      · obtain ⟨s₁, hsteps, hrest⟩ := h
        have hsame : s'.core = s₁.core := hrest.elim (·.2.core) (·.core)
        exact hsame.trans hsteps.core
    rw [endedCalls, hturns, hcore]
    exact driveTurns_ended hturns
  | _ => exact .refl _

/-- **In every run whose event channel stays open, an activity reports the calls that it ends**, in
their order and nothing else, exactly if it publishes. -/
theorem run_reports_iff {s s' : TelephonyService rns audio}
    {ts : List (Machine.Transition (TelephonyService rns audio) (Activity rns audio))}
    (h : Machine.Trace Performs s ts s') (hopen : s.eventsLeft = none) :
    ∀ t ∈ ts,
      (endedCall t.before.core t.after.core).Sublist (endedCalls t.before t.input t.after) ∧
        (Reports (endedCalls t.before t.input t.after) t.before t.after ↔
          Publishes t.before t.input) := by
  intro t ht
  obtain ⟨hopen, hperforms, -⟩ := h.transition (G := fun _ _ => True)
    (fun _ _ _ hopen _ h => h.keepsOpen hopen) hopen (fun _ _ => trivial) t ht
  exact ⟨endedCall_sublist_endedCalls hperforms, (performs_accounts hperforms).reports_iff hopen⟩

theorem run_reports_iff_hangup : ∃ ts s',
    Machine.Trace Performs (calledBy 4 []) ts s' ∧ ts.length = 2 ∧ ∀ t ∈ ts,
      (endedCall t.before.core t.after.core).Sublist (endedCalls t.before t.input t.after) ∧
        (Reports (endedCalls t.before t.input t.after) t.before t.after ↔
          Publishes t.before t.input) := by
  have hrun : (((calledBy 4 []).perform (.driveReady 6 0)).bind fun first =>
      first.2.perform (.control (.hangup false) 1 0)).isSome = true := by decide +kernel
  obtain ⟨⟨_, s'⟩, hrun⟩ := Option.isSome_iff_exists.mp hrun
  obtain ⟨⟨_, s⟩, hring, hhangup⟩ := Option.bind_eq_some_iff.mp hrun
  have htrace : Machine.Trace Performs (calledBy 4 [])
      [⟨calledBy 4 [], .driveReady 6 0, s⟩, ⟨s, .control (.hangup false) 1 0, s'⟩] s' :=
    .cons ⟨_, hring⟩ (.cons ⟨_, hhangup⟩ (.nil s'))
  exact ⟨_, s', htrace, rfl, run_reports_iff htrace rfl⟩

/-- With two slots, the transport queue is full when the ringing call is rejected: the hangup ends
the call, fails and reports nothing. -/
theorem hangup_unreported :
    ¬ ∀ (rns : Rns) (audio : Audio) (s s' : TelephonyService rns audio)
      (ts : List (Machine.Transition (TelephonyService rns audio) (Activity rns audio))),
      Machine.Trace Performs s ts s' → s.eventsLeft = none → ∀ t ∈ ts,
        Reports (endedCalls t.before t.input t.after) t.before t.after := fun hall => by
  have hrun : (((calledBy 2 []).perform (.driveReady 6 0)).bind fun first =>
      (first.2.perform (.control (.hangup false) 1 0)).map fun second =>
        (endedCall first.2.core second.2.core, terminations second.2.events)) =
      some ([.replicate 16 1], []) := by decide +kernel
  obtain ⟨⟨_, s⟩, hring, hrun⟩ := Option.bind_eq_some_iff.mp hrun
  obtain ⟨⟨_, s'⟩, hhangup, hends⟩ := Option.map_eq_some_iff.mp hrun
  obtain ⟨hended, hsilent⟩ := Prod.mk.inj hends
  have htrace : Machine.Trace Performs (calledBy 2 [])
      [⟨calledBy 2 [], .driveReady 6 0, s⟩, ⟨s, .control (.hangup false) 1 0, s'⟩] s' :=
    .cons ⟨_, hring⟩ (.cons ⟨_, hhangup⟩ (.nil s'))
  obtain ⟨new, hnew, hlinks⟩ := hall _ _ _ _ _ htrace rfl ⟨s, .control (.hangup false) 1 0, s'⟩
    (by simp)
  rw [hnew, terminations_append] at hsilent
  rw [(List.append_eq_nil_iff.mp hsilent).2] at hlinks
  cases hlinks.trans hended

end TelephonyService

end Lxst.Telephony
