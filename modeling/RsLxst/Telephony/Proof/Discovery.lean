import RsLxst.Telephony.Discovery
import RsLxst.Telephony.Proof.Mute

/-!
# A discovery resolves its own call

The service takes the report of a discovery for its pending call's if the identity and the profile
are the same. `Resolves` follows a run with the task that the pending call has spawned. It holds of
every run in which no call begins while the task of an earlier call with its identity and profile
is on its way (`discovery_resolves_own`); a redial shows that it can fail (`redial_confused`).
-/

set_option autoImplicit false

namespace Lxst.Telephony

open Program

variable {rns : Rns} {audio : Audio}

namespace TelephonyService

variable {s s' : TelephonyService rns audio}

/-! ## What the three handlers say -/

/-- An event right after a change of the pending call. -/
theorem emit_marked (event : TelephonyServiceEvent audio) (discovery : Option OutgoingDiscoveryState)
    (s : TelephonyService rns audio) :
    wp (emitServiceEvent event) (fun sent s' => s'.outgoingDiscovery = discovery ∧
      Marked (if sent then event.mark.toList else []) s s')
      { s with outgoingDiscovery := discovery } := by
  refine wp_mono (emitServiceEvent_marked _ _) fun sent s₁ h => ⟨h.1, ?_⟩
  cases sent with
  | true => exact h.2
  | false =>
    cases h.2
    exact .of_events rfl

/-- A call pends if it is accepted and its event is sent. -/
theorem startOutgoingDiscovery_marked (remoteIdentity : IdentityHash) (profile : Option Profile)
    (s : TelephonyService rns audio) :
    wp (startOutgoingDiscovery remoteIdentity profile) (fun sent s' =>
      if s.core.lineBusy ∨ s.outgoingDiscovery.isSome then Mute s s'
      else s'.outgoingDiscovery = some { remoteIdentity, profile } ∧
        Marked (if sent then [.pending] else []) s s') s := by
  unfold startOutgoingDiscovery
  rw [wp_bind, wp_get]
  split
  · exact wp_mono ((Mute.refl s).error _) fun _ _ h => h
  · rw [wp_bind, wp_set]
    exact emit_marked _ _ s

/-- A hangup resolves the pending call if its event is sent. -/
theorem handleHangup_marked (ringTimeout : Bool) (now : Instant)
    (s : TelephonyService rns audio) :
    wp (handleHangup ringTimeout now) (fun sent s' =>
      if s.outgoingDiscovery.isSome then
        s'.outgoingDiscovery = none ∧ Marked (if sent then [.resolved] else []) s s'
      else Mute s s') s := by
  unfold handleHangup
  rw [wp_bind, wp_get]
  split
  · rename_i hdiscovery
    rw [wp_bind, wp_set, hdiscovery]
    exact emit_marked _ _ s
  · rename_i hdiscovery
    have hcommands : Mute s { s with core := (s.core.hangupActive ringTimeout).2 } :=
      .keep (.refl s) rfl rfl
    dsimp only
    rw [wp_bind, wp_set]
    refine wp_mono (reportControl_steady (Mute.steady s) _ now hcommands) fun _ s₁ h => ?_
    rwa [hdiscovery, if_neg nofun]

/-- An event that resolves the pending call is sent, or nothing is. -/
theorem emit_resolved {event : TelephonyServiceEvent audio} (hmark : event.mark = some .resolved)
    (h : Mute s s') : wp (emitServiceEvent event) (fun sent s'' =>
      s''.outgoingDiscovery = s.outgoingDiscovery ∧
        Marked (if sent then [.resolved] else []) s s'') s' := by
  refine wp_mono (emitServiceEvent_marked event s') fun sent s₁ ⟨hdiscovery, hsent⟩ => ?_
  refine ⟨hdiscovery.trans h.discovery, ?_⟩
  rw [hmark] at hsent
  cases sent with
  | true => exact h.marked.trans hsent
  | false =>
    cases hsent
    exact h.marked

/-- A report that is not of the pending identity and profile is ignored. -/
theorem handleInternal_other {remoteIdentity : IdentityHash} {profile : Option Profile}
    (h : s.outgoingDiscovery ≠ some { remoteIdentity, profile })
    (result : Except Error RemoteTelephonyPeer) (now : Instant) (entropy : Nat) :
    wp (handleInternal (.outgoingDiscoveryCompleted remoteIdentity profile result) now entropy)
      (fun _ s' => s' = s) s := by
  unfold handleInternal
  rw [wp_bind, wp_get, if_pos h]
  rfl

theorem beginOutgoing_mute (remoteIdentity : IdentityHash) (profile : Option Profile)
    (result : Except Error RemoteTelephonyPeer) (entropy : Nat) (s : TelephonyService rns audio) :
    wp (beginOutgoing remoteIdentity profile result entropy) (fun _ => Mute s) s := by
  unfold beginOutgoing wp
  cases result with
  | error error => exact .refl s
  | ok peer => exact .keep (.refl s) rfl rfl

/-- A report of the pending identity and profile resolves the call, unless the loop ends. -/
theorem handleInternal_marked {remoteIdentity : IdentityHash} {profile : Option Profile}
    (h : s.outgoingDiscovery = some { remoteIdentity, profile })
    (result : Except Error RemoteTelephonyPeer) (now : Instant) (entropy : Nat) :
    wp (handleInternal (.outgoingDiscoveryCompleted remoteIdentity profile result) now entropy)
      (fun continues s' => s'.outgoingDiscovery = none ∧
        (Marked [.resolved] s s' ∨ continues = false ∧ Marked [] s s')) s := by
  unfold handleInternal
  rw [wp_bind, wp_get, if_neg (not_not.mpr h), wp_bind, wp_set, wp_bind]
  refine wp_mono (beginOutgoing_mute remoteIdentity profile result entropy _) fun result s₁ h₁ => ?_
  cases result with
  | error error =>
    refine wp_mono (emit_resolved rfl h₁) fun sent s₂ h₂ => ⟨h₂.1, ?_⟩
    cases sent with
    | true => exact .inl h₂.2
    | false => exact .inr ⟨rfl, h₂.2⟩
  | ok linkId =>
    dsimp only
    rw [wp_bind]
    refine wp_mono (refreshAndEmit_mute now h₁) fun sent s₂ h₂ => ?_
    cases sent with
    | false => exact ⟨h₂.discovery, .inr ⟨rfl, h₂.marked⟩⟩
    | true =>
      rw [if_pos rfl, wp_bind]
      refine wp_mono (emit_resolved rfl h₂) fun sent s₃ h₃ => ?_
      cases sent with
      | false => exact ⟨h₃.1, .inr ⟨rfl, h₃.2⟩⟩
      | true =>
        refine wp_mono (emitSnapshot_mute (.refl s₃)) fun _ s₄ h₄ => ?_
        exact ⟨h₄.discovery.trans h₃.1, .inl (Marked.trans h₃.2 h₄.marked)⟩

/-- Every other activity of the loop tells nothing of outgoing calls. -/
theorem performs_mute {activity : Activity rns audio} {continues : Bool}
    (h : s.perform activity = some (continues, s')) (hinternal : ¬ activity.isInternal)
    (hcontrol : ∀ control now entropy, activity = .control control now entropy →
      keepsDiscovery control) (hstop : ∀ now, activity ≠ .stop now) : Mute s s' := by
  have hrefl := Mute.refl s
  cases activity with
  | control control now entropy =>
    exact of_performed h (handleControl_mute (hcontrol control now entropy rfl) now entropy hrefl)
  | internal event now entropy => exact absurd rfl hinternal
  | tickReticulum =>
    cases h
    exact hrefl.onEndpoint _
  | dueAnnounce now entropy =>
    exact of_performed h (handleDueAnnounce_steady (Mute.steady s) now entropy hrefl)
  | driveReady fuel now =>
    obtain ⟨⟨result, line⟩, -, hpublished⟩ := Option.map_eq_some_iff.mp h
    exact of_performed (congrArg some hpublished)
      (publishDriven_mute result now (.keep hrefl rfl rfl))
  | dueAnswerRetry now =>
    exact of_performed h (handleDueAnswerRetry_steady (Mute.steady s) now hrefl)
  | dueTimeout now => exact of_performed h (handleDueTimeout_steady (Mute.steady s) now hrefl)
  | pumpOpusStream now => exact of_performed h (pumpOpusStream_mute now hrefl)
  | outside endpoint media =>
    cases h
    exact hrefl.keep rfl rfl
  | stop now => exact absurd rfl (hstop now)

end TelephonyService

namespace DiscoveringService

/-! ## Resolutions -/

abbrev Transitions (rns : Rns) (audio : Audio) : Type :=
  List (Machine.Transition (DiscoveringService rns audio) (DiscoveryActivity rns audio))

/-- The marks of the events that the transition has emitted. -/
def emitted (t : Machine.Transition (DiscoveringService rns audio) (DiscoveryActivity rns audio)) :
    List OutgoingMark :=
  marks (t.after.service.events.drop t.before.service.events.length)

/-- The task that the activity spawns. -/
def spawnedBy (s : DiscoveringService rns audio) :
    DiscoveryActivity rns audio → Option DiscoveryTask
  | .activity activity => s.spawns activity
  | .completed .. => none

def HangsUp (activity : DiscoveryActivity rns audio) : Prop :=
  ∃ ringTimeout now entropy, activity = .activity (.control (.hangup ringTimeout) now entropy)

/-- The activity is the report of the task. -/
def Reports (task : DiscoveryTask) (activity : DiscoveryActivity rns audio) : Prop :=
  ∃ result now entropy, activity = .completed task result now entropy

/-- The task of the pending call before and after a transition, by what it has emitted. -/
inductive Answers : Option DiscoveryTask →
    Machine.Transition (DiscoveringService rns audio) (DiscoveryActivity rns audio) →
    Option DiscoveryTask → Prop
  | silent {pending : Option DiscoveryTask}
    {t : Machine.Transition (DiscoveringService rns audio) (DiscoveryActivity rns audio)}
    (hemitted : emitted t = []) : Answers pending t pending
  | pends {pending : Option DiscoveryTask} {task : DiscoveryTask}
    {t : Machine.Transition (DiscoveringService rns audio) (DiscoveryActivity rns audio)}
    (hemitted : emitted t = [.pending]) (hspawned : spawnedBy t.before t.input = some task) :
    Answers pending t (some task)
  /-- By a hangup, or by the report of the call's own task. -/
  | resolved {task : DiscoveryTask}
    {t : Machine.Transition (DiscoveringService rns audio) (DiscoveryActivity rns audio)}
    (hemitted : emitted t = [.resolved]) (hinput : HangsUp t.input ∨ Reports task t.input) :
    Answers (some task) t none

/-- Every call is resolved at most once before the next one pends, and by its own task or a hangup;
the report of any other task changes nothing. -/
def Resolves : Option DiscoveryTask → Transitions rns audio → Prop
  | _, [] => True
  | pending, t :: ts =>
    (∀ task, Reports task t.input → pending ≠ some task → t.after.service = t.before.service) ∧
      ∃ next, Answers pending t next ∧ Resolves next ts

/-- No call begins while a task of its identity and profile is on its way. -/
def Fresh (s : DiscoveringService rns audio) (activity : DiscoveryActivity rns audio) : Prop :=
  ∀ task, spawnedBy s activity = some task → ∀ other ∈ s.tasks, other.discovery ≠ task.discovery

/-- The pending call is the one that has spawned the task, and no other task can be taken for it. -/
structure Awaits (pending : Option DiscoveryTask) (s : DiscoveringService rns audio) : Prop where
  discovery : s.service.outgoingDiscovery = pending.map (·.discovery)
  own : ∀ task, pending = some task → ∀ other ∈ s.tasks,
    other.discovery = task.discovery → other = task

variable {s s' : DiscoveringService rns audio} {pending : Option DiscoveryTask}
  {activity : DiscoveryActivity rns audio}

theorem emitted_eq {said : List OutgoingMark}
    (h : TelephonyService.Marked said s.service s'.service) :
    emitted ⟨s, activity, s'⟩ = said := by
  obtain ⟨new, hnew, rfl⟩ := h
  rw [emitted, hnew, List.drop_left]

theorem spawns_of_keepsDiscovery {control : TelephonyControl audio}
    (h : TelephonyService.keepsDiscovery control) (now : Instant) (entropy : Nat) :
    s.spawns (.control control now entropy) = none := by
  cases control <;> first | rfl | cases h

/-- What an activity of the loop makes of the service and its tasks. -/
theorem advances_activity {activity : Activity rns audio}
    (h : Advances s (.activity activity) s') :
    s.running = true ∧ ¬ activity.isInternal ∧
      s.service.perform activity = some (s'.running, s'.service) ∧
      (s.spawns activity = none → s'.tasks = s.tasks) ∧
      ∀ task, s.spawns activity = some task → s'.running → s'.tasks = s.tasks ++ [task] := by
  unfold Advances advance at h
  dsimp only at h
  split at h
  · rename_i hruns
    obtain ⟨⟨running, service⟩, hperforms, rfl⟩ := Option.map_eq_some_iff.mp h
    refine ⟨hruns.1, hruns.2, ?_⟩
    dsimp only
    cases hspawns : s.spawns activity with
    | none => exact ⟨hperforms, fun _ => rfl, nofun⟩
    | some task =>
      cases running with
      | false => exact ⟨hperforms, nofun, fun _ _ hrunning => by cases hrunning⟩
      | true =>
        refine ⟨hperforms, nofun, ?_⟩
        rintro _ ⟨⟩ -
        rfl
  · cases h

/-- What a report makes of the service and its tasks. -/
theorem advances_completed {task : DiscoveryTask} {result : Except Error RemoteTelephonyPeer}
    {now : Instant} {entropy : Nat} (h : Advances s (.completed task result now entropy) s') :
    s.running = true ∧ task ∈ s.tasks ∧
      s.service.perform (report task result now entropy) = some (s'.running, s'.service) ∧
      s'.tasks = s.tasks.erase task := by
  unfold Advances advance at h
  dsimp only at h
  split at h
  · rename_i hruns
    obtain ⟨⟨running, service⟩, hperforms, rfl⟩ := Option.map_eq_some_iff.mp h
    exact ⟨hruns.1, hruns.2, hperforms, rfl⟩
  · cases h

theorem Awaits.keep (h : Awaits pending s)
    (hdiscovery : s'.service.outgoingDiscovery = s.service.outgoingDiscovery)
    (htasks : ∀ task ∈ s'.tasks, task ∈ s.tasks) : Awaits pending s' :=
  ⟨hdiscovery.trans h.discovery, fun task hsome other hother =>
    h.own task hsome other (htasks other hother)⟩

theorem Awaits.of_none (h : s.service.outgoingDiscovery = none) : Awaits none s := ⟨h, nofun⟩

/-- The task of the pending call. -/
theorem Awaits.task (h : Awaits pending s) {discovery : OutgoingDiscoveryState}
    (hdiscovery : s.service.outgoingDiscovery = some discovery) :
    ∃ task, pending = some task ∧ task.discovery = discovery :=
  Option.map_eq_some_iff.mp (h.discovery.symm.trans hdiscovery)

/-- The report of a task resolves its own call or changes nothing. -/
theorem Awaits.completed {task : DiscoveryTask} {result : Except Error RemoteTelephonyPeer}
    {now : Instant} {entropy : Nat} (h : Awaits pending s)
    (hadvances : Advances s (.completed task result now entropy) s') :
    (pending ≠ some task → s'.service = s.service) ∧
      ∃ next, Answers pending ⟨s, .completed task result now entropy, s'⟩ next ∧
        (s'.running → Awaits next s') := by
  obtain ⟨-, hmem, hperforms, htasks⟩ := advances_completed hadvances
  by_cases hdiscovery : s.service.outgoingDiscovery = some task.discovery
  · obtain ⟨own, rfl, hsame⟩ := h.task hdiscovery
    cases h.own own rfl task hmem hsame.symm
    refine ⟨fun hne => absurd rfl hne, ?_⟩
    obtain ⟨hnone, hresolved | ⟨hends, hsilent⟩⟩ := TelephonyService.of_performed hperforms
      (TelephonyService.handleInternal_marked hdiscovery result now entropy)
    · exact ⟨none, .resolved (emitted_eq hresolved) (.inr ⟨result, now, entropy, rfl⟩),
        fun _ => .of_none hnone⟩
    · refine ⟨_, .silent (emitted_eq hsilent), fun hruns => ?_⟩
      cases hends.symm.trans hruns
  · have hsame := TelephonyService.of_performed hperforms
      (TelephonyService.handleInternal_other hdiscovery result now entropy)
    refine ⟨fun _ => hsame, pending, .silent (emitted_eq (.of_events (by rw [hsame]))), fun _ => ?_⟩
    exact h.keep (by rw [hsame]) fun other hother =>
      List.mem_of_mem_erase (htasks ▸ hother)

/-- What tells nothing of outgoing calls goes on awaiting. -/
theorem Awaits.mute (h : Awaits pending s) (hmute : TelephonyService.Mute s.service s'.service)
    (htasks : s'.tasks = s.tasks) :
    ∃ next, Answers pending ⟨s, activity, s'⟩ next ∧ (s'.running → Awaits next s') :=
  ⟨pending, .silent (emitted_eq hmute.marked),
    fun _ => h.keep hmute.discovery fun _ hother => htasks ▸ hother⟩

/-- An event of outgoing calls is sent, or the loop ends. -/
theorem answers_or_ends {said : OutgoingMark} {next : Option DiscoveryTask}
    (h : TelephonyService.Marked (if s'.running then [said] else []) s.service s'.service)
    (hnext : emitted ⟨s, activity, s'⟩ = [said] → s'.running = true →
      Answers pending ⟨s, activity, s'⟩ next ∧ Awaits next s') :
    ∃ next, Answers pending ⟨s, activity, s'⟩ next ∧ (s'.running → Awaits next s') := by
  cases hruns : s'.running with
  | true =>
    rw [hruns, if_pos rfl] at h
    obtain ⟨hanswers, hawaits⟩ := hnext (emitted_eq h) hruns
    exact ⟨next, hanswers, fun _ => hawaits⟩
  | false =>
    rw [hruns, if_neg nofun] at h
    exact ⟨pending, .silent (emitted_eq h), nofun⟩

theorem Awaits.call {remoteIdentity : IdentityHash} {profile : Option Profile} {now : Instant}
    {entropy : Nat} (h : Awaits pending s)
    (hfresh : Fresh s (.activity (.control (.call remoteIdentity profile) now entropy)))
    (hadvances : Advances s (.activity (.control (.call remoteIdentity profile) now entropy)) s') :
    ∃ next, Answers pending
      ⟨s, .activity (.control (.call remoteIdentity profile) now entropy), s'⟩ next ∧
        (s'.running → Awaits next s') := by
  obtain ⟨-, -, hperforms, hquiet, hspawned⟩ := advances_activity hadvances
  have hcases := TelephonyService.of_performed hperforms
    (TelephonyService.startOutgoingDiscovery_marked remoteIdentity profile s.service)
  by_cases hbusy : s.service.core.lineBusy ∨ s.service.outgoingDiscovery.isSome
  · rw [if_pos hbusy] at hcases
    exact h.mute hcases (hquiet (if_pos hbusy))
  · rw [if_neg hbusy] at hcases
    have hspawns : s.spawns (.control (.call remoteIdentity profile) now entropy) =
        some { id := s.spawned, discovery := { remoteIdentity, profile } } := if_neg hbusy
    refine answers_or_ends hcases.2 fun hemitted hruns => ⟨.pends hemitted hspawns, hcases.1, ?_⟩
    rintro _ ⟨⟩ other hother hsame
    rw [hspawned _ hspawns hruns, List.mem_append, List.mem_singleton] at hother
    rcases hother with hother | hother
    · exact absurd hsame (hfresh _ hspawns other hother)
    · exact hother

theorem Awaits.hangup {ringTimeout : Bool} {now : Instant} {entropy : Nat} (h : Awaits pending s)
    (hadvances : Advances s (.activity (.control (.hangup ringTimeout) now entropy)) s') :
    ∃ next, Answers pending
      ⟨s, .activity (.control (.hangup ringTimeout) now entropy), s'⟩ next ∧
        (s'.running → Awaits next s') := by
  obtain ⟨-, -, hperforms, hquiet, -⟩ := advances_activity hadvances
  have hcases := TelephonyService.of_performed hperforms
    (TelephonyService.handleHangup_marked ringTimeout now s.service)
  cases hdiscovery : s.service.outgoingDiscovery with
  | none =>
    rw [hdiscovery, if_neg nofun] at hcases
    exact h.mute hcases (hquiet rfl)
  | some discovery =>
    rw [hdiscovery, if_pos Option.isSome_some] at hcases
    obtain ⟨task, rfl, -⟩ := h.task hdiscovery
    exact answers_or_ends hcases.2 fun hemitted _ =>
      ⟨.resolved hemitted (.inl ⟨ringTimeout, now, entropy, rfl⟩), .of_none hcases.1⟩

/-- **One activity of a service whose pending call is awaited.** -/
theorem Awaits.advances (h : s.running → Awaits pending s) (hfresh : Fresh s activity)
    (hadvances : Advances s activity s') :
    (∀ task, Reports task activity → pending ≠ some task → s'.service = s.service) ∧
      ∃ next, Answers pending ⟨s, activity, s'⟩ next ∧ (s'.running → Awaits next s') := by
  cases activity with
  | completed task result now entropy =>
    obtain ⟨hother, hnext⟩ :=
      Awaits.completed (h (advances_completed hadvances).1) hadvances
    refine ⟨?_, hnext⟩
    rintro _ ⟨_, _, _, ⟨⟩⟩
    exact hother
  | activity activity =>
    obtain ⟨hruns, hinternal, hperforms, hquiet, -⟩ := advances_activity hadvances
    have hawaits := h hruns
    refine ⟨fun _ ⟨_, _, _, hreport⟩ => (by cases hreport), ?_⟩
    cases activity with
    | control control now entropy =>
      cases hkeeps : TelephonyService.keepsDiscovery control with
      | true =>
        refine hawaits.mute (TelephonyService.performs_mute hperforms hinternal ?_ nofun)
          (hquiet (spawns_of_keepsDiscovery hkeeps now entropy))
        rintro _ _ _ ⟨⟩
        exact hkeeps
      | false =>
        cases control with
        | call remoteIdentity profile => exact hawaits.call hfresh hadvances
        | hangup ringTimeout => exact hawaits.hangup hadvances
        | _ => cases hkeeps
    | stop now =>
      obtain ⟨hends, hservice⟩ := Prod.mk.inj (Option.some.inj hperforms)
      refine ⟨pending, .silent (emitted_eq ?_), fun hruns => by cases hends.trans hruns⟩
      rw [← hservice]
      exact TelephonyService.stop_marked now s.service
    | _ =>
      exact hawaits.mute (TelephonyService.performs_mute hperforms hinternal nofun nofun)
        (hquiet rfl)

/-- **A discovery resolves its own call** in every run of a service in which no call begins while a
task of an earlier call with its identity and profile is on its way: from each call that pends to
the next there is at most one resolution, and it comes from a hangup or from the report of the task
that this call has spawned; every other report changes nothing. -/
theorem discovery_resolves_own {endpoint : TelephonyRnsEndpoint rns} {core : TelephonyRuntimeCore}
    {config : TelephonyServiceConfig} {eventsLeft : Option Nat} {start : Instant}
    {ts : Transitions rns audio}
    (h : Machine.Trace Advances (idle (.withConfig endpoint core config eventsLeft start)) ts s)
    (hfresh : ∀ t ∈ ts, Fresh t.before t.input) : Resolves none ts := by
  suffices ∀ (u : DiscoveringService rns audio) (pending : Option DiscoveryTask),
      (u.running → Awaits pending u) → Machine.Trace Advances u ts s → Resolves pending ts from
    this _ none (fun _ => ⟨rfl, nofun⟩) h
  clear h
  intro u pending hawaits h
  induction h generalizing pending with
  | nil => trivial
  | cons head tail ih =>
    obtain ⟨hfirst, hrest⟩ := List.forall_mem_cons.mp hfresh
    obtain ⟨hother, next, hanswers, hnext⟩ := Awaits.advances hawaits hfirst head
    exact ⟨hother, next, hanswers, ih hrest next hnext⟩

/-- A call to one identity, for runs on fixed inputs. -/
def dial (now : Instant) : DiscoveryActivity rns audio :=
  .activity (.control (.call (.replicate 16 7) none) now 0)

/-- The report that the discovery of this identity has found no peer. -/
def missed (id : Nat) (now : Instant) : DiscoveryActivity rns audio :=
  .completed ⟨id, .replicate 16 7, none⟩ (.error .remoteTelephonyPeerNotDiscovered) now 0

/-- A call whose discovery finds no peer. -/
theorem discovery_resolves_own_missed : ∃ s₁ s₂, Resolves none
    [⟨idle (TelephonyService.calledBy 8 []), dial 0, s₁⟩, ⟨s₁, missed 0 15, s₂⟩] := by
  have hrun : ((idle (TelephonyService.calledBy 8 [])).advance (dial 0)).bind (fun s₁ =>
      (s₁.advance (missed 0 15)).map fun s₂ => (s₁.running, s₂.running)) = some (true, true) := by
    decide +kernel
  obtain ⟨s₁, hdial, hrun⟩ := Option.bind_eq_some_iff.mp hrun
  obtain ⟨s₂, hmissed, -⟩ := Option.map_eq_some_iff.mp hrun
  refine ⟨s₁, s₂, discovery_resolves_own (.cons hdial (.cons hmissed (.nil s₂))) ?_⟩
  refine List.forall_mem_cons.mpr ⟨?_, List.forall_mem_singleton.mpr nofun⟩
  rintro _ - _ ⟨⟩

/-- A call is cancelled and dialled again; the report of the cancelled discovery fails the second
call. -/
theorem redial_confused :
    ¬ ∀ (rns : Rns) (audio : Audio) (endpoint : TelephonyRnsEndpoint rns)
      (core : TelephonyRuntimeCore) (config : TelephonyServiceConfig) (eventsLeft : Option Nat)
      (start : Instant) (s : DiscoveringService rns audio) (ts : Transitions rns audio),
      Machine.Trace Advances (idle (.withConfig endpoint core config eventsLeft start)) ts s →
        Resolves none ts := fun hall => by
  have hrun : ((idle (TelephonyService.calledBy 8 [])).advance (dial 0)).bind (fun s₁ =>
      (s₁.advance (.activity (.control (.hangup false) 1 0))).bind fun s₂ =>
        (s₂.advance (dial 2)).bind fun s₃ => (s₃.advance (missed 0 15)).map fun s₄ =>
          ((emitted ⟨s₃, missed 0 15, s₄⟩, emitted ⟨s₂, dial 2, s₃⟩),
            (spawnedBy s₂ (dial 2)).map (·.id))) =
        some (([.resolved], [.pending]), some 1) := by decide +kernel
  obtain ⟨s₁, hdial, hrun⟩ := Option.bind_eq_some_iff.mp hrun
  obtain ⟨s₂, hhangup, hrun⟩ := Option.bind_eq_some_iff.mp hrun
  obtain ⟨s₃, hredial, hrun⟩ := Option.bind_eq_some_iff.mp hrun
  obtain ⟨s₄, hmissed, hrun⟩ := Option.map_eq_some_iff.mp hrun
  obtain ⟨hemitted, hspawned⟩ := Prod.mk.inj hrun
  obtain ⟨hresolved, hpending⟩ := Prod.mk.inj hemitted
  obtain ⟨-, _, -, -, _, -, -, next, hthird, -, _, hfourth, -⟩ :=
    hall _ _ _ _ _ _ _ s₄ _ (.cons hdial (.cons hhangup (.cons hredial (.cons hmissed (.nil s₄)))))
  cases hthird with
  | silent hsilent => cases hsilent.symm.trans hpending
  | resolved hother => cases hother.symm.trans hpending
  | pends _ hspawns =>
    cases hfourth with
    | silent hsilent => cases hsilent.symm.trans hresolved
    | pends hother => cases hother.symm.trans hresolved
    | resolved _ hinput =>
      rcases hinput with ⟨_, _, _, hinput⟩ | ⟨_, _, _, hinput⟩
      · cases hinput
      · cases hinput
        rw [hspawns] at hspawned
        cases hspawned

end DiscoveringService

end Lxst.Telephony
