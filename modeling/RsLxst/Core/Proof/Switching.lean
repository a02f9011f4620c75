import RsLxst.Core.Proof.Handshake
import RsLxst.Core.Switching
import RsLxst.Lib.Register

/-!
# Profile switches of two peers: agreement and its failure

The profile of a call is a register kept at both ends. From the moment the caller starts ringing,
`SwitchInv.agree` says that both copies will be the same once everything in flight has arrived.
It survives every step but a switch that crosses a different profile on its way to the side that
switches; with no crossed switch `profiles_agree` follows, and `crossed_switches_diverge` is two
crossed switches that leave the peers with each other's profile for good.
-/

set_option autoImplicit false

namespace Lxst.Handshake

open CallState Register

/-- The profiles in flight, as values of the register. -/
def profilesIn (ms : List Signal) : List (Option Profile) := (profilesOf ms).map some

/-- The start of the call that the caller has not seen yet. -/
inductive Pending (h : Handshake) : Prop
  | calling (rest : List Signal) : h.caller.status = .calling →
      h.toCaller = .status .available :: .status .ringing :: rest → Pending h
  | available (rest : List Signal) : h.caller.status = .available →
      h.toCaller = .status .ringing :: rest → Pending h

/-- The caller has processed `ringing`. -/
def Rung (c : CallState) : Prop := SignallingStatus.ringing.rank ≤ c.status.rank

structure SwitchInv (h : Handshake) : Prop where
  callerRole : h.caller.role = .outgoing
  calleeRole : h.callee.role = .incoming
  calleeStage : h.callee.answered = false ∧ h.callee.status = .ringing ∨
    h.callee.answered = true ∧ h.callee.InCall
  toCallee : ∀ m ∈ h.toCallee, ToCalleeOk h.caller m
  echoed : h.callee.status = .established → h.caller.InCall
  pending : h.Pending ∧ profilesOf h.toCaller = [] ∧ h.toCallee = [] ∨ Rung h.caller
  profiled : Rung h.caller → h.caller.profile ≠ none
  agree : Rung h.caller →
    Agree h.caller.profile (profilesIn h.toCaller) h.callee.profile (profilesIn h.toCallee)

theorem profilesIn_append (ms ns : List Signal) :
    profilesIn (ms ++ ns) = profilesIn ms ++ profilesIn ns := by
  simp [profilesIn]

theorem profilesIn_other {m : Signal} (h : ∀ p, m ≠ .preferredProfile p) (ms : List Signal) :
    profilesIn (m :: ms) = profilesIn ms := by
  cases m with
  | preferredProfile p => exact absurd rfl (h p)
  | status st => rfl
  | raw v => rfl

theorem profilesIn_eq_nil {ms : List Signal} (h : profilesOf ms = []) : profilesIn ms = [] := by
  rw [profilesIn, h, List.map_nil]

theorem last_profilesIn_ne_none (ms : List Signal) {o : Option Profile} (ho : o ≠ none) :
    Channel.last (profilesIn ms) o ≠ none := by
  unfold profilesIn
  induction profilesOf ms generalizing o with
  | nil => exact ho
  | cons p ps ih => rw [List.map_cons, Channel.last_cons]; exact ih nofun

/-- A default for a copy that is not set matters only if nothing is in flight to it. -/
theorem agree_default {a b : Option Profile} {toA : List (Option Profile)} {ms : List Signal}
    (ha : Channel.last toA a ≠ none) (h : Agree a toA b (profilesIn ms)) (p : Profile) :
    Agree a toA (some (b.getD p)) (profilesIn ms) := by
  cases b with
  | some q => exact h
  | none =>
    rw [Agree] at h ⊢
    unfold profilesIn at h ⊢
    cases hp : profilesOf ms with
    | nil => rw [hp] at h; exact absurd h ha
    | cons q qs => rw [hp] at h; exact h

theorem Rung.of_inCall {c : CallState} (h : c.InCall) : Rung c := Nat.le_trans (by decide) h

theorem Rung.receiveSignal {c : CallState} (h : Rung c) (m : Signal) :
    Rung (c.receiveSignal m).1 := Nat.le_trans h (receiveSignal_rank c m)

theorem Pending.not_rung {h : Handshake} (hp : h.Pending) : ¬ Rung h.caller := by
  cases hp with
  | calling _ hs => unfold Rung; rw [hs]; decide
  | available _ hs => unfold Rung; rw [hs]; decide

theorem switchInv_start (p : Option Profile) : SwitchInv (start p) := by
  refine ⟨rfl, rfl, .inl ⟨rfl, rfl⟩, nofun, fun h => ?_, .inl ⟨?_, ?_, rfl⟩, fun h => ?_,
    fun h => ?_⟩
  · simp [start, callerIdentified_admitted] at h
  · refine .calling [] rfl ?_
    simp [start, callerIdentified_admitted, CallState.incomingLinkEstablished, signalsOf]
  · simp [start, callerIdentified_admitted, CallState.incomingLinkEstablished, signalsOf,
      profilesOf]
  · exact absurd h (by simp [start, Rung, CallState.outgoing]; decide)
  · exact absurd h (by simp [start, Rung, CallState.outgoing]; decide)

/-! ## Deliveries -/

/-- A caller that has rung sends no profile in return. -/
theorem profilesOf_reply {c : CallState} (hr : c.role = .outgoing) (hc : Rung c) (m : Signal) :
    profilesOf (signalsOf (c.receiveSignal m).2) = [] := by
  rw [receiveSignal_signals_outgoing hr]
  split
  · rw [if_pos (show SignallingStatus.ringing.rank ≤ c.status.rank from hc)]; rfl
  · rfl
  · rfl

/-- Taking a signal that was in flight keeps the copies consistent. -/
theorem agree_deliver {c : CallState} {b : Option Profile} {m : Signal} {rest : List Signal}
    {toB : List (Option Profile)} (hc : Rung c)
    (h : Agree c.profile (profilesIn (m :: rest)) b toB) :
    Agree (c.receiveSignal m).1.profile (profilesIn rest) b toB := by
  by_cases hm : ∃ p, m = .preferredProfile p
  · obtain ⟨p, rfl⟩ := hm
    rw [receiveSignal_preferredProfile_profile]
    exact h.receive
  · have hm' : ∀ p, m ≠ .preferredProfile p := fun p he => hm ⟨p, he⟩
    rwa [receiveSignal_profile_of_ringing hc hm', ← profilesIn_other hm' rest]

/-- What the caller takes before it has rung. -/
theorem switchInv_callerPending {h : Handshake} (hi : SwitchInv h) (hp : h.Pending)
    (hs : profilesOf h.toCaller = []) (hc : h.toCallee = []) {m : Signal} {rest : List Signal}
    (hm : h.toCaller = m :: rest) : SwitchInv (h.callerReceives m rest) := by
  obtain ⟨hcr, hce, hst, hok, hec, -, -, -⟩ := hi
  have hlis : h.caller.Listens := .of_outgoing hcr
  have hquiet : h.callee.status ≠ .established := fun he =>
    hp.not_rung (.of_inCall (hec he))
  cases hp with
  | calling r hcal hr =>
    obtain ⟨rfl, rfl⟩ : m = .status .available ∧ rest = .status .ringing :: r := by
      rw [hr] at hm; cases hm; exact ⟨rfl, rfl⟩
    have he := receiveSignal_available hlis
    rw [if_neg (by rw [hcal]; decide)] at he
    refine ⟨by simpa [callerReceives] using hcr, hce, hst, ?_, fun h => absurd h hquiet,
      .inl ⟨.available r ?_ rfl, ?_, ?_⟩, fun h => ?_, fun h => ?_⟩
    · simp [callerReceives, he, hc, signalsOf]
    · simp [callerReceives, he]
    · simpa [callerReceives, hr] using hs
    · simp [callerReceives, he, hc, signalsOf]
    · exact absurd h (by simp [callerReceives, he, Rung]; decide)
    · exact absurd h (by simp [callerReceives, he, Rung]; decide)
  | available r hav hr =>
    obtain ⟨rfl, rfl⟩ : m = .status .ringing ∧ rest = r := by
      rw [hr] at hm; cases hm; exact ⟨rfl, rfl⟩
    have he := receiveSignal_ringing hlis
    rw [if_neg (by rw [hav]; decide)] at he
    have hsr : profilesOf rest = [] := by simpa [hr] using hs
    refine ⟨by simpa [callerReceives] using hcr, hce, hst, ?_, fun h => absurd h hquiet,
      .inr ?_, fun _ => ?_, fun _ => ?_⟩
    · simp [callerReceives, he, hc, signalsOf, ToCalleeOk]
    · simp [callerReceives, he, Rung]
    · simp [callerReceives, he]
    · simp [callerReceives, he, hc, signalsOf, profilesIn, hsr, Agree, Channel.last]

theorem switchInv_callerReceives {h : Handshake} (hi : SwitchInv h) {m : Signal}
    {rest : List Signal} (hm : h.toCaller = m :: rest) : SwitchInv (h.callerReceives m rest) := by
  rcases hi.pending with ⟨hp, hs, hc⟩ | hrung
  · exact switchInv_callerPending hi hp hs hc hm
  obtain ⟨hcr, hce, hst, hok, hec, -, hpr, hag⟩ := hi
  have hreply := profilesOf_reply hcr hrung m
  refine ⟨by simpa [callerReceives] using hcr, hce, hst, fun x hx => ?_,
    fun he => (hec he).receiveSignal m, .inr (hrung.receiveSignal m), fun _ => ?_, fun _ => ?_⟩
  · simp only [callerReceives, List.mem_append] at hx
    rcases hx with hx | hx
    · exact (hok x hx).receive m
    · exact toCalleeOk_reply hcr m x hx
  · by_cases hp : ∃ p, m = .preferredProfile p
    · obtain ⟨p, rfl⟩ := hp
      simp [callerReceives]
    · rw [callerReceives, receiveSignal_profile_of_ringing hrung fun p hp' => hp ⟨p, hp'⟩]
      exact hpr hrung
  · simp only [callerReceives, profilesIn_append, profilesIn_eq_nil hreply, List.append_nil]
    exact agree_deliver hrung (by rw [← hm]; exact hag hrung)

/-- The callee has rung from the start. -/
theorem SwitchInv.calleeRung {h : Handshake} (hi : SwitchInv h) : Rung h.callee := by
  rcases hi.calleeStage with ⟨-, hs⟩ | ⟨-, hc⟩
  · exact Nat.le_of_eq (by rw [hs])
  · exact .of_inCall hc

theorem switchInv_calleeReceives {h : Handshake} (hi : SwitchInv h) {m : Signal}
    {rest : List Signal} (hm : h.toCallee = m :: rest) : SwitchInv (h.calleeReceives m rest) := by
  have hcrung := hi.calleeRung
  obtain ⟨hcr, hce, hst, hok, hec, hpe, hpr, hag⟩ := hi
  have hm' : ToCalleeOk h.caller m := hok m (by simp [hm])
  have hans : h.callee.answered = true → h.callee.InCall := fun ha => by
    rcases hst with ⟨hn, -⟩ | ⟨-, hc⟩
    · rw [ha] at hn; cases hn
    · exact hc
  have hreply := receiveSignal_signals_incoming hce hans m
  have hrung : Rung h.caller := by
    rcases hpe with ⟨-, -, hc⟩ | hr
    · rw [hm] at hc; cases hc
    · exact hr
  have hstatus := receiveSignal_status h.callee m
  refine ⟨hcr, by simpa [calleeReceives] using hce, ?_,
    fun x hx => hok x (by rw [hm]; exact List.mem_cons_of_mem _ hx), fun he => ?_, .inr hrung, hpr,
    fun _ => ?_⟩
  · rcases hst with ⟨ha, hs⟩ | ⟨ha, hc⟩
    · refine .inl ⟨by simpa [calleeReceives] using ha, ?_⟩
      rcases hstatus with he | ⟨_, -, hl, -⟩
      · exact he.trans hs
      · rw [hl hce] at ha; cases ha
    · exact .inr ⟨by simpa [calleeReceives] using ha, hc.receiveSignal m⟩
  · rcases hm' with ⟨p, rfl⟩ | ⟨-, hc⟩
    · rcases hstatus with hs | ⟨_, h1, -⟩
      · exact hec (hs.symm.trans he)
      · cases h1
    · exact hc
  · simp only [calleeReceives, hreply, List.append_nil]
    exact (agree_deliver hcrung (by rw [← hm]; exact (hag hrung).symm)).symm

/-! ## The answer -/

theorem switchInv_answer {h : Handshake} (hi : SwitchInv h) : SwitchInv h.answer := by
  by_cases hs : h.callee.status = .ringing
  · obtain ⟨hcr, hce, hst, hok, hec, hpe, hpr, hag⟩ := hi
    have he := answer_ringing hce hs
    have hsent : signalsOf h.callee.answer.2 = [.status .connecting, .status .established] := by
      simp [he, signalsOf]
    refine ⟨hcr, ?_, .inr ⟨?_, ?_⟩, hok, fun h => ?_, ?_, hpr, fun hr => ?_⟩
    · simpa [answer, he] using hce
    · simp [answer, he]
    · simp [answer, he, InCall]
    · simp [answer, he] at h
    · rcases hpe with ⟨hp, hn, hc⟩ | hr
      · refine .inl ⟨?_, by simp [answer, hsent, hn], hc⟩
        cases hp with
        | calling r h1 h2 => exact .calling (r ++ _) h1 (by simp only [answer, h2]; rfl)
        | available r h1 h2 => exact .available (r ++ _) h1 (by simp only [answer, h2]; rfl)
      · exact .inr hr
    · have hprof : profilesIn h.answer.toCaller = profilesIn h.toCaller := by
        simp only [answer, hsent, profilesIn_append]
        exact List.append_nil _
      have hset : h.answer.callee.profile = some (h.callee.profile.getD Profile.DEFAULT) := by
        simp only [answer, he]
      rw [hprof, hset]
      exact agree_default (last_profilesIn_ne_none _ (hpr hr)) (hag hr) _
  · have he : h.answer = h := by simp [answer, answer_other (.inr hs)]
    rw [he]
    exact hi

theorem switchInv_retryAnswer {h : Handshake} (hi : SwitchInv h) : SwitchInv h.retryAnswer := by
  obtain ⟨hcr, hce, hst, hok, hec, hpe, hpr, hag⟩ := hi
  have hsent : profilesOf (signalsOf h.callee.retryAnswer) = [] := by
    by_cases ho : h.callee.answered = true ∧ h.callee.status = .connecting
    · rw [retryAnswer_offer hce ho.1 ho.2]; rfl
    · rw [retryAnswer_other (.inr (by grind))]; rfl
  refine ⟨hcr, hce, hst, hok, hec, ?_, hpr, fun hr => ?_⟩
  · rcases hpe with ⟨hp, hn, hc⟩ | hr
    · refine .inl ⟨?_, by simp [retryAnswer, hsent, hn], hc⟩
      cases hp with
      | calling r h1 h2 => exact .calling (r ++ _) h1 (by simp only [retryAnswer, h2]; rfl)
      | available r h1 h2 => exact .available (r ++ _) h1 (by simp only [retryAnswer, h2]; rfl)
    · exact .inr hr
  · simp only [retryAnswer, profilesIn_append, profilesIn_eq_nil hsent, List.append_nil]
    exact hag hr

/-! ## Switches -/

/-- A switch of an established call, as a write of its copy. -/
theorem agree_switch {c : CallState} {inbox outbox : List Signal} {b : Option Profile}
    {p : Profile} (hs : c.status = .established) (hu : SwitchUncrossed c inbox p)
    (h : Agree c.profile (profilesIn inbox) b (profilesIn outbox)) :
    Agree (c.switchProfile p).1.profile (profilesIn inbox) b
      (profilesIn (outbox ++ signalsOf (c.switchProfile p).2)) := by
  rw [switchProfile_established hs]
  split
  · simpa [signalsOf] using h
  · rename_i hne
    have hsent : profilesIn
        (outbox ++ signalsOf [.sendSignal (.preferredProfile p), .switchProfile p]) =
        profilesIn outbox ++ [some p] := by
      rw [profilesIn_append]; rfl
    rw [hsent, agree_write_iff]
    rcases hu with hu | hu | hu
    · exact absurd hu hne
    · exact .inl (profilesIn_eq_nil hu)
    · exact .inr (by simp [profilesIn, hu])

theorem switchProfile_profile_ne_none {c : CallState} (hs : c.status = .established)
    (h : c.profile ≠ none) (p : Profile) : (c.switchProfile p).1.profile ≠ none := by
  rw [switchProfile_established hs]
  split
  · exact h
  · nofun

theorem mem_signalsOf_switch {c : CallState} (hs : c.status = .established) {p : Profile}
    {m : Signal} (hm : m ∈ signalsOf (c.switchProfile p).2) : m = .preferredProfile p := by
  rw [switchProfile_established hs] at hm
  split at hm
  · cases hm
  · simpa [signalsOf] using hm

theorem switchInv_callerSwitches {h : Handshake} (hi : SwitchInv h) {p : Profile}
    (hs : h.caller.status = .established) (hu : SwitchUncrossed h.caller h.toCaller p) :
    SwitchInv (h.callerSwitches p) := by
  obtain ⟨hcr, hce, hst, hok, hec, hpe, hpr, hag⟩ := hi
  have hin : h.caller.InCall := inCall_iff.2 (.inr hs)
  have hin' : (h.callerSwitches p).caller.InCall := by
    unfold InCall at hin ⊢
    rwa [callerSwitches, switchProfile_status]
  refine ⟨by simpa [callerSwitches] using hcr, hce, hst, fun m hm => ?_, fun _ => hin',
    .inr (.of_inCall hin'), fun _ => ?_, fun _ => ?_⟩
  · simp only [callerSwitches, List.mem_append] at hm
    rcases hm with hm | hm
    · rcases hok m hm with hk | ⟨hk, -⟩
      · exact .inl hk
      · exact .inr ⟨hk, hin'⟩
    · exact .inl ⟨p, mem_signalsOf_switch hs hm⟩
  · exact switchProfile_profile_ne_none hs (hpr (.of_inCall hin)) p
  · exact agree_switch hs hu (hag (.of_inCall hin))

theorem switchInv_calleeSwitches {h : Handshake} (hi : SwitchInv h) {p : Profile}
    (hs : h.callee.status = .established) (hu : SwitchUncrossed h.callee h.toCallee p) :
    SwitchInv (h.calleeSwitches p) := by
  obtain ⟨hcr, hce, hst, hok, hec, hpe, hpr, hag⟩ := hi
  have hrung : Rung h.caller := .of_inCall (hec hs)
  refine ⟨hcr, by simpa [calleeSwitches] using hce, ?_, hok, fun _ => hec hs, .inr hrung, hpr,
    fun _ => (agree_switch hs hu (hag hrung).symm).symm⟩
  rcases hst with ⟨-, hn⟩ | ⟨ha, hc⟩
  · rw [hs] at hn; cases hn
  · refine .inr ⟨by simpa [calleeSwitches] using ha, ?_⟩
    unfold InCall at hc ⊢
    rwa [calleeSwitches, switchProfile_status]

theorem switchInv_act {h : Handshake} (a : Act) (hi : SwitchInv h) (hu : Uncrossed h a) :
    SwitchInv (h.act a) := by
  cases a with
  | answer => exact switchInv_answer hi
  | retryAnswer => exact switchInv_retryAnswer hi
  | deliverToCaller =>
    cases hm : h.toCaller with
    | nil => rw [act, hm]; exact hi
    | cons m rest => rw [act, hm]; exact switchInv_callerReceives hi hm
  | deliverToCallee =>
    cases hm : h.toCallee with
    | nil => rw [act, hm]; exact hi
    | cons m rest => rw [act, hm]; exact switchInv_calleeReceives hi hm
  | callerSwitches p => exact switchInv_callerSwitches hi hu.1 hu.2
  | calleeSwitches p => exact switchInv_calleeSwitches hi hu.1 hu.2

/-- **Profiles agree when no switch is crossed**: in every run from the start of the call in which
no side switches while a different profile is on its way to it, two established peers with
nothing in flight have the same profile. -/
theorem profiles_agree {p : Option Profile} {acts : List Act}
    (h : Machine.Admits Uncrossed act (start p) acts) :
    let h := acts.foldl act (start p)
    h.caller.status = .established → h.callee.status = .established →
      h.toCaller = [] → h.toCallee = [] → h.caller.profile = h.callee.profile := by
  intro k hs _ h1 h2
  have hi : SwitchInv k :=
    h.invariant (fun _ a hi hu => switchInv_act a hi hu) (switchInv_start p)
  have hag := hi.agree (.of_inCall (inCall_iff.2 (.inr hs)))
  rw [h1, h2] at hag
  exact hag.quiet

/-- The call is set up and answered, and both sides are established with nothing in flight. -/
def setUp : List Act :=
  [.deliverToCaller, .deliverToCaller, .deliverToCallee, .answer, .deliverToCaller,
    .deliverToCaller, .deliverToCallee]

/-- Two switches, the second after the first has arrived. -/
theorem profiles_agree_in_turn :
    let h := (setUp ++ [Act.callerSwitches .qualityHigh, .deliverToCallee,
      .calleeSwitches .qualityMax, .deliverToCaller]).foldl act (start none)
    h.caller.profile = some .qualityMax ∧ h.caller.profile = h.callee.profile :=
  ⟨by decide, profiles_agree (by decide) (by decide) (by decide) (by decide) (by decide)⟩

/-- **Crossed switches diverge**: each side adopts the other's profile and neither answers. -/
theorem crossed_switches_diverge :
    ¬ ∀ (p : Option Profile) (acts : List Act), Machine.Admits Enabled act (start p) acts →
      let h := acts.foldl act (start p)
      h.caller.status = .established → h.callee.status = .established →
        h.toCaller = [] → h.toCallee = [] → h.caller.profile = h.callee.profile := fun h =>
  absurd (h none (setUp ++ [.callerSwitches .qualityHigh, .calleeSwitches .qualityMax,
    .deliverToCaller, .deliverToCallee]) (by decide) (by decide) (by decide) (by decide)
    (by decide)) (by decide)

end Lxst.Handshake
