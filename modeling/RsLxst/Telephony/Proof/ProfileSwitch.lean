import RsLxst.Core.Proof.CallState
import RsLxst.Telephony.Proof.Handlers
import RsLxst.Telephony.Proof.Teardowns

/-!
# A profile switch that the endpoint refuses

`switch_active_profile` puts the new profile into the call before the preferred-profile signal is
sent, and nothing takes it back when the endpoint refuses the signal
(`handleSwitchProfile_refused`). `switch_kept_iff` says when a switch that fails leaves the call's
profile as it was.
-/

set_option autoImplicit false

namespace Lxst.Telephony

open Program

variable {rns : Rns} {audio : Audio}

/-! ## The commands of a switch -/

/-- The call with another profile. -/
def ActiveCall.switched (profile : Profile) (active : ActiveCall) : ActiveCall :=
  { active with call := { active.call with profile := some profile } }

theorem TelephonyRuntimeCore.switchActiveProfile_established {core : TelephonyRuntimeCore}
    {active : ActiveCall} (hactive : core.activeCall = some active)
    (hstatus : active.call.status = .established) (profile : Profile) :
    core.switchActiveProfile profile =
      if active.call.profile = some profile then (.ok [], core)
      else (.ok [.sendSignal active.linkId (.preferredProfile profile),
          .switchProfile active.linkId profile],
        { core with activeCall := some (active.switched profile) }) := by
  unfold switchActiveProfile
  rw [hactive]
  simp only [hstatus, ne_eq, not_true_eq_false, if_false]
  rw [CallState.switchProfile_established hstatus]
  split
  · rw [← hactive]
    rfl
  · rfl

namespace TelephonyRnsEndpoint

/-- The commands of a switch fail exactly if the endpoint refuses the signal. -/
theorem executeCommands_switch (self : TelephonyRnsEndpoint rns) (linkId : LinkId)
    (profile : Profile) :
    (executeCommands [.sendSignal linkId (.preferredProfile profile),
      .switchProfile linkId profile] self).1.isOk =
        !self.refuses (.sendSignal linkId (.preferredProfile profile)) := by
  rw [← executeCommand_isOk]
  rcases hsend : executeCommand (.sendSignal linkId (.preferredProfile profile)) self with
    ⟨error | effect, after⟩
  · rw [executeCommands_error self hsend]
    rfl
  · show (Prod.fst ((ExceptT.bindCont _ (executeCommand _ self).1 : EndpointM rns _) _)).isOk = _
    rw [hsend]
    rfl

end TelephonyRnsEndpoint

/-! ## The control -/

namespace TelephonyService

variable {s s' : TelephonyService rns audio}

/-- The core accepts the switch, and the endpoint fails its commands. -/
def SwitchRefused (profile : Profile) (s : TelephonyService rns audio) : Prop :=
  ∃ commands error, (s.core.switchActiveProfile profile).1 = .ok commands ∧
    (TelephonyRnsEndpoint.executeCommands commands s.endpoint).1 = .error error

/-- The installed streams are of the call's link and profile. -/
def StreamsMatch (s : TelephonyService rns audio) : Prop :=
  ∀ active, s.core.activeCall = some active →
    (∀ stream, s.media.opusTransmitStream = some stream →
      stream.linkId = active.linkId ∧ some stream.profile = active.call.profile) ∧
    ∀ stream, s.media.opusReceiveStream = some stream →
      stream.linkId = active.linkId ∧ some stream.profile = active.call.profile

/-- The call has the profile it had, and streams that matched it still do. -/
structure SwitchKept (s s' : TelephonyService rns audio) : Prop where
  profile : s'.core.activeCall.map (·.call.profile) = s.core.activeCall.map (·.call.profile)
  streams : StreamsMatch s → StreamsMatch s'

variable {active : ActiveCall} {profile : Profile}

theorem switchRefused_iff (hactive : s.core.activeCall = some active)
    (hstatus : active.call.status = .established) :
    SwitchRefused profile s ↔ active.call.profile ≠ some profile ∧
      s.endpoint.refuses (.sendSignal active.linkId (.preferredProfile profile)) = true := by
  have hcommands := TelephonyRuntimeCore.switchActiveProfile_established hactive hstatus profile
  constructor
  · rintro ⟨commands, error, hswitch, hfailed⟩
    by_cases hsame : active.call.profile = some profile
    · rw [hcommands, if_pos hsame] at hswitch
      cases hswitch
      cases hfailed
    · rw [hcommands, if_neg hsame] at hswitch
      cases hswitch
      have hrefused := s.endpoint.executeCommands_switch active.linkId profile
      rw [hfailed] at hrefused
      refine ⟨hsame, ?_⟩
      simpa [TelephonyRnsEndpoint.isOk_error] using hrefused.symm
  · rintro ⟨hother, hrefused⟩
    have hfailed := s.endpoint.executeCommands_switch active.linkId profile
    rw [hrefused] at hfailed
    rw [SwitchRefused, hcommands, if_neg hother]
    cases hresult : (TelephonyRnsEndpoint.executeCommands
        [.sendSignal active.linkId (.preferredProfile profile),
          .switchProfile active.linkId profile] s.endpoint).1 with
    | ok effects =>
      rw [hresult] at hfailed
      cases hfailed
    | error error => exact ⟨_, error, rfl, hresult⟩

/-- The call keeps the profile that the peer was not told. -/
theorem handleSwitchProfile_refused (hactive : s.core.activeCall = some active)
    (hstatus : active.call.status = .established) (hrefused : SwitchRefused profile s)
    (now : Instant) :
    (handleSwitchProfile profile now s).2.core.activeCall =
      some (active.switched profile) := by
  obtain ⟨hother, -⟩ := (switchRefused_iff hactive hstatus).1 hrefused
  obtain ⟨commands, error, hswitch, hfailed⟩ := hrefused
  have hcases := handleSwitchProfile_cases profile now s
  unfold wp Controlled at hcases
  rw [TelephonyRuntimeCore.switchActiveProfile_established hactive hstatus, if_neg hother]
    at hswitch hcases
  cases hswitch
  simp only at hcases
  split at hcases
  · rw [hcases.core]
  · rename_i hok
    rw [hok] at hfailed
    cases hfailed

/-- **A switch that the endpoint fails leaves the call's profile and its streams as they were**
exactly if there is nothing to switch or the endpoint takes the signal. -/
theorem switch_kept_iff (hactive : s.core.activeCall = some active)
    (hstatus : active.call.status = .established) (now : Instant) :
    (SwitchRefused profile s → SwitchKept s (handleSwitchProfile profile now s).2) ↔
      active.call.profile = some profile ∨
        s.endpoint.refuses (.sendSignal active.linkId (.preferredProfile profile)) = false := by
  constructor
  · intro hkept
    by_contra hnot
    obtain ⟨hother, htaken⟩ := not_or.1 hnot
    have hrefused : SwitchRefused profile s :=
      (switchRefused_iff hactive hstatus).2 ⟨hother, by simpa using htaken⟩
    have hprofile := (hkept hrefused).profile
    rw [handleSwitchProfile_refused hactive hstatus hrefused, hactive] at hprofile
    exact hother (Option.some.inj hprofile).symm
  · intro hcondition hrefused
    obtain ⟨hother, hrefused⟩ := (switchRefused_iff hactive hstatus).1 hrefused
    rcases hcondition with hsame | htaken
    · exact absurd hsame hother
    · rw [htaken] at hrefused
      cases hrefused

def mediumCall : ActiveCall :=
  { linkId := .replicate 16 7
    remoteIdentity := .replicate 16 9
    call := { CallState.outgoing none with
      status := .established, profile := some .qualityMedium } }

/-- The established call with a transmit stream; the transport queue holds one message already. -/
def calling (capacity : Nat) : TelephonyService Rns.plain Audio.plain :=
  { withConfig
      { TelephonyRnsEndpoint.congested with
        transport := ⟨[.requestPath (.replicate 16 1)], capacity, false⟩ }
      { TelephonyRuntimeCore.new with activeCall := some mediumCall } .default none 0 with
    media.opusTransmitStream := some
      { linkId := .replicate 16 7, profile := .qualityMedium, framesRx := ⟨[], true⟩,
        gate := none, gateSerial := 0 } }

theorem switch_kept_iff_room :
    (SwitchRefused .qualityHigh (calling 2) →
        SwitchKept (calling 2) (handleSwitchProfile .qualityHigh 0 (calling 2)).2) ↔
      mediumCall.call.profile = some .qualityHigh ∨
        (calling 2).endpoint.refuses
          (.sendSignal mediumCall.linkId (.preferredProfile .qualityHigh)) = false := by
  have hactive : (calling 2).core.activeCall = some mediumCall := rfl
  exact switch_kept_iff hactive rfl 0

/-- With a full queue the call goes on with a profile that the peer was not told. -/
theorem switch_kept_full :
    ¬ ∀ (rns : Rns) (audio : Audio) (s : TelephonyService rns audio) (active : ActiveCall)
      (profile : Profile) (now : Instant), s.core.activeCall = some active →
        active.call.status = .established → SwitchRefused profile s →
          SwitchKept s (handleSwitchProfile profile now s).2 := by
  intro hall
  have hrefused : SwitchRefused .qualityHigh (calling 1) :=
    ⟨_, .transportFull, rfl, by decide⟩
  have hprofile := (hall _ _ (calling 1) _ .qualityHigh 0 rfl rfl hrefused).profile
  rw [handleSwitchProfile_refused rfl rfl hrefused] at hprofile
  cases hprofile

end TelephonyService

end Lxst.Telephony
