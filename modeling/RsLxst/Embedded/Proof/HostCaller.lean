import RsLxst.Embedded.HostCaller
import RsLxst.Embedded.Proof.Admission
import RsLxst.Lib.Register

/-!
# Profile convergence of an embedded callee and a host caller

The session's profile is the primary copy of a register (`Register.Settles`): it echoes every
profile it adopts, so crossed offers settle on it. `ConvInv` holds from the construction of the
session on and counts the profile signals on the wire; `profiles_converge` reads both results off.
-/

set_option autoImplicit false

namespace Lxst.Embedded

@[simp] theorem sentOf_nil : sentOf [] = [] := rfl

@[simp] theorem sentOf_append (es fs : Events) : sentOf (es ++ fs) = sentOf es ++ sentOf fs :=
  List.filterMap_append

@[simp] theorem sentOf_flushMedia (es : Events) : sentOf (.flushMedia :: es) = sentOf es := rfl

@[simp] theorem sentOf_capture (on : Bool) (es : Events) :
    sentOf (.capture on :: es) = sentOf es := rfl

@[simp] theorem sentOf_sendSignal (m : Signal) (es : Events) :
    sentOf (.transition (.sendSignal m) :: es) = m :: sentOf es := rfl

@[simp] theorem sentOf_transitions (as : Actions) :
    sentOf (as.map .transition) = signalsOf as := by
  induction as with
  | nil => rfl
  | cons a as ih => cases a <;> simp_all [sentOf, signalsOf]

@[simp] theorem sentOf_stopped (s : Session) : sentOf s.stopped = [] := by
  unfold Session.stopped
  split <;> rfl

namespace Session

/-- What a tick that ends nothing puts on the wire: nothing, or the answer offer once more. -/
theorem ticked_sent (s : Session) (now : UInt64) :
    sentOf ((s.limitTalk now).1.retryOffer (s.limitTalk now).2 now).2 = [] ∨
      s.call.answered = true ∧
        sentOf ((s.limitTalk now).1.retryOffer (s.limitTalk now).2 now).2 =
          [.status .connecting, .status .established] := by
  have hl : (s.limitTalk now).1.call = s.call ∧ sentOf (s.limitTalk now).2 = [] := by
    rcases limitTalk_cases s now with hl | hl <;> rw [hl]
    · exact ⟨rfl, rfl⟩
    · exact ⟨rfl, by simp⟩
  rcases retryOffer_cases (s.limitTalk now).1 (s.limitTalk now).2 now with hr | ⟨hg, hr⟩
  · exact .inl (by rw [hr]; exact hl.2)
  · obtain ⟨h1, h2, h3, -⟩ := hg
    refine .inr ⟨by rw [← hl.1]; exact h2, ?_⟩
    rw [hr, CallState.retryAnswer_offer h1 h2 h3, sentOf_append, hl.2]
    rfl

/-- What the embedder's own operations do to a session that is waiting for its peer. -/
theorem trans_waiting {s s' : Session} {op : Op} {es : Events} (hf : Fresh .incoming s)
    (h : Trans s op s' es) (hv : s.verified = false) (he' : s'.ended = none) :
    s'.call.profile = s.call.profile ∧
      (s'.verified = false ∧ (∀ m ∈ sentOf es, m = .status .available) ∨
        s'.verified = true ∧ s'.linked = true ∧
          sentOf es = [.status .ringing, .preferredProfile s.config.preferred]) := by
  have hopen : ¬ s.Open := fun ho => by rw [ho.verified] at hv; cases hv
  cases h with
  | linked he hl =>
    refine ⟨rfl, .inl ⟨hv, ?_⟩⟩
    rw [if_pos hf.role]
    simp [CallState.incomingLinkEstablished]
  | callerVerified now he hl _ hr =>
    rw [CallState.callerIdentified_admitted]
    exact ⟨rfl, .inr ⟨rfl, hl, rfl⟩⟩
  | calleeVerified now he hl _ hr => rw [hf.role] at hr; cases hr
  | answered now he hv' => rw [hv] at hv'; cases hv'
  | ended op r he => rw [end_eq he] at he'; cases he'
  | refused p now ho => exact absurd ho hopen
  | adopted p now ho => exact absurd ho hopen
  | confirmed p now ho => exact absurd ho hopen
  | staged st now ho => exact absurd ho hopen
  | ignoredRaw v now ho => exact absurd ho hopen
  | confirmedByMedia p now ho => exact absurd ho hopen
  | ticked now he =>
    obtain ⟨_, _, _, -, hs⟩ := ticked_eq s now
    rw [hs]
    rcases ticked_sent s now with hn | ⟨ha, -⟩
    · exact ⟨rfl, .inl ⟨hv, by simp [hn]⟩⟩
    · rw [hf.answered hv] at ha; cases ha
  | _ => exact ⟨rfl, .inl ⟨hv, by simp⟩⟩

/-- What the embedder's own operations do once the peer is verified. -/
theorem trans_own {s s' : Session} {op : Op} {es : Events} (h : Trans s op s' es)
    (hop : Peers.isReceiveSignal op = false) (ho : s.Open) (he' : s'.ended = none)
    {q : Profile} (hq : s.call.profile = some q) :
    s'.Open ∧ s'.call.profile = some q ∧ profilesOf (sentOf es) = [] := by
  have hv := ho.verified
  cases h with
  | idle => exact ⟨ho, hq, rfl⟩
  | linked he hl => rw [ho.linked] at hl; cases hl
  | callerVerified now he hl hn => rw [hv] at hn; cases hn
  | calleeVerified now he hl hn => rw [hv] at hn; cases hn
  | answered now he _ hr hst =>
    rw [CallState.answer_ringing hr hst, hq]
    exact ⟨⟨he, ho.linked, hv⟩, rfl, rfl⟩
  | ended op r he => rw [end_eq he] at he'; cases he'
  | ticked now he =>
    obtain ⟨_, _, _, -, hs⟩ := ticked_eq s now
    rw [hs]
    refine ⟨⟨he, ho.linked, hv⟩, hq, ?_⟩
    rcases ticked_sent s now with hn | ⟨-, hn⟩ <;> rw [hn] <;> rfl
  | refused | adopted | confirmed | staged | ignoredRaw => cases hop
  | _ => exact ⟨⟨ho.ended, ho.linked, hv⟩, hq, by simp⟩

/-- A status or raw signal leaves an incoming session's profile alone and makes it send none. -/
theorem trans_hears {s s' : Session} {m : Signal} {now : UInt64} {es : Events}
    (h : Trans s (.receiveSignal m now) s' es) (ho : s.Open) (hr : s.call.role = .incoming)
    (he' : s'.ended = none) {q : Profile} (hq : s.call.profile = some q)
    (hm : ∀ p, m ≠ .preferredProfile p) :
    s'.Open ∧ s'.call.profile = some q ∧ profilesOf (sentOf es) = [] := by
  have hv := ho.verified
  cases h with
  | idle => exact ⟨ho, hq, rfl⟩
  | ended op r he => rw [end_eq he] at he'; cases he'
  | refused p | adopted p | confirmed p => exact absurd rfl (hm p)
  | staged st now ho' hal =>
    have hst : s.call.answered = true ∧ st = .established := by
      simpa [statusAllowed, hr] using hal
    obtain ⟨hans, rfl⟩ := hst
    refine ⟨⟨ho.ended, ho.linked, hv⟩, CallState.receiveSignal_profile hq _, ?_⟩
    rw [sentOf_transitions, CallState.receiveSignal_established fun _ => hans]
    split <;> rfl
  | ignoredRaw v now => exact ⟨ho, hq, rfl⟩

/-- An allowed profile is adopted, and echoed if it is new. -/
theorem hears_profile {s : Session} {p q : Profile} (now : UInt64) (ho : s.Open)
    (hr : s.call.role = .incoming) (hq : s.call.profile = some q)
    (hc : s.config.allowed.contains p = true) :
    (s.step (.receiveSignal (.preferredProfile p) now)).1.Open ∧
      (s.step (.receiveSignal (.preferredProfile p) now)).1.call.profile = some p ∧
      profilesOf (sentOf (s.step (.receiveSignal (.preferredProfile p) now)).2) =
        if q = p then [] else [p] := by
  simp only [step]
  by_cases hp : q = p
  · rw [receiveProfile_confirmed ho hc (by rw [hq, hp]), if_pos hp]
    exact ⟨⟨ho.ended, ho.linked, ho.verified⟩, by rw [← hp]; exact hq, rfl⟩
  · rw [receiveProfile_adopted ho hc (by rw [hq]; exact fun h => hp (Option.some.inj h)),
      if_neg hp]
    refine ⟨⟨ho.ended, ho.linked, ho.verified⟩,
      CallState.receiveSignal_preferredProfile_profile _ p, ?_⟩
    simp [hr]

end Session

namespace Peers

open Register

/-- `s` is waiting for its peer: nothing but `available` has reached the wire. -/
structure Waiting (h : Peers) (preferred : Profile) : Prop where
  verified : h.session.verified = false
  profile : h.session.call.profile = some preferred
  toSession : h.toSession = []
  toCaller : ∀ m ∈ h.toCaller, m = .status .available
  caller : h.caller.status.rank < SignallingStatus.ringing.rank
  sent : ∀ m ∈ h.sessionSent, m = .status .available

/-- The session hears its caller: its profile `ps` and the caller's `pc` settle. -/
structure Talking (h : Peers) (ps : Profile) : Prop where
  isOpen : h.session.Open
  profile : h.session.call.profile = some ps
  settles : ∃ pc, h.caller.profile = some pc ∧
    Settles ps (profilesOf h.toSession) pc (profilesOf h.toCaller)
  count : (profilesOf h.sessionSent).length + (profilesOf h.toSession).length ≤
    (profilesOf h.callerSent).length + 1

structure ConvInv (cfg : SessionConfig) (h : Peers) : Prop where
  fresh : Session.Fresh .incoming h.session
  config : h.session.config = cfg
  isOpen : h.session.ended = none
  callerRole : h.caller.role = .outgoing
  preferred : cfg.allowed.contains cfg.preferred = true
  offer : ∃ pc, h.caller.profile = some pc ∧ cfg.allowed.contains pc = true
  offered : ∀ p ∈ profilesOf h.toSession, cfg.allowed.contains p = true
  echoed : ∀ p ∈ profilesOf h.toCaller, cfg.allowed.contains p = true
  phase : h.Waiting cfg.preferred ∨ ∃ ps, h.Talking ps

theorem profilesOf_available {ms : List Signal} (h : ∀ m ∈ ms, m = .status .available) :
    profilesOf ms = [] := by
  induction ms with
  | nil => rfl
  | cons m ms ih =>
    rw [h m (by simp), profilesOf_status]
    exact ih fun m hm => h m (by simp [hm])

theorem convInv_start {cfg : SessionConfig} {now : UInt64} {s₀ : Session} {offer : Profile}
    (hs : Session.new .incoming cfg now = .ok s₀) (ho : cfg.allowed.contains offer = true) :
    ConvInv cfg (start s₀ offer) := by
  have hf := (Session.new_fresh hs).1
  obtain ⟨hp, rfl⟩ := Session.new_eq hs
  refine ⟨hf, rfl, rfl, rfl, hp, ⟨offer, rfl, ho⟩, nofun, nofun, .inl ?_⟩
  exact ⟨rfl, rfl, rfl, nofun, by simp only [start, CallState.outgoing]; decide, nofun⟩

/-! ## The session's steps -/

theorem convInv_session {cfg : SessionConfig} {h : Peers} {op : Session.Op}
    (hi : ConvInv cfg h) (hop : isReceiveSignal op = false)
    (he : (h.sessionDoes op h.toSession).session.ended = none) :
    ConvInv cfg (h.sessionDoes op h.toSession) := by
  obtain ⟨hf, hcf, hop', hcr, hpref, hof, hofs, hec, hph⟩ := hi
  have htr := Session.step_trans h.session op
  have hf' := Session.fresh_trans hf htr
  have hcf' := (Session.trans_config htr).trans hcf
  rcases hph with hw | ⟨ps, ht⟩
  · obtain ⟨hp, hk⟩ := Session.trans_waiting hf htr hw.verified he
    rcases hk with ⟨hv, hsent⟩ | ⟨hv, hl, hsent⟩
    · have hnil := profilesOf_available hsent
      refine ⟨hf', hcf', he, hcr, hpref, hof, hofs, ?_, .inl ⟨hv, hp.trans hw.profile, hw.toSession,
        fun m hm => ?_, hw.caller, fun m hm => ?_⟩⟩
      · simpa [sessionDoes, hnil] using hec
      · simp only [sessionDoes, List.mem_append] at hm
        rcases hm with hm | hm
        · exact hw.toCaller m hm
        · exact hsent m hm
      · simp only [sessionDoes, List.mem_append] at hm
        rcases hm with hm | hm
        · exact hw.sent m hm
        · exact hsent m hm
    · obtain ⟨pc, hpc, hac⟩ := hof
      rw [hcf] at hsent
      refine ⟨hf', hcf', he, hcr, hpref, ⟨pc, hpc, hac⟩, hofs, ?_, .inr ⟨cfg.preferred, ?_⟩⟩
      · simp only [sessionDoes, hsent, profilesOf_append, profilesOf_status, profilesOf_profile,
          profilesOf_nil, List.mem_append, List.mem_singleton]
        rintro p (hp' | rfl)
        · exact hec p hp'
        · exact hpref
      · refine ⟨⟨he, hl, hv⟩, hp.trans hw.profile, ⟨pc, hpc, ?_⟩, ?_⟩
        · simp only [sessionDoes, hsent, profilesOf_append]
          exact Settles.adopt _ _ _ _
        · simp [sessionDoes, hsent, hw.toSession, profilesOf_available hw.sent]
  · obtain ⟨ho, hp, hsent⟩ := Session.trans_own htr hop ht.isOpen he ht.profile
    refine ⟨hf', hcf', he, hcr, hpref, hof, hofs, ?_, .inr ⟨ps, ho, hp, ?_, ?_⟩⟩
    · simpa [sessionDoes, hsent] using hec
    · simpa [sessionDoes, hsent] using ht.settles
    · simpa [sessionDoes, hsent] using ht.count

theorem convInv_deliverToSession {cfg : SessionConfig} {h : Peers} {m : Signal} {now : UInt64}
    {rest : List Signal} (hi : ConvInv cfg h) (hm : h.toSession = m :: rest)
    (he : (h.sessionDoes (.receiveSignal m now) rest).session.ended = none) :
    ConvInv cfg (h.sessionDoes (.receiveSignal m now) rest) := by
  obtain ⟨hf, hcf, hop', hcr, hpref, hof, hofs, hec, hph⟩ := hi
  have htr := Session.step_trans h.session (.receiveSignal m now)
  have hf' := Session.fresh_trans hf htr
  have hcf' := (Session.trans_config htr).trans hcf
  rcases hph with hw | ⟨ps, ht⟩
  · rw [hw.toSession] at hm; cases hm
  obtain ⟨pc, hpc, hset⟩ := ht.settles
  have hcount := ht.count
  by_cases hpm : ∃ p, m = .preferredProfile p
  · obtain ⟨p, rfl⟩ := hpm
    rw [hm, profilesOf_profile] at hset hcount hofs
    have hap : cfg.allowed.contains p = true := hofs p (by simp)
    obtain ⟨ho, hp, hsent⟩ := Session.hears_profile now ht.isOpen hf.role ht.profile
      (by rw [hcf]; exact hap)
    by_cases hq : ps = p
    · subst hq
      rw [if_pos rfl] at hsent
      refine ⟨hf', hcf', he, hcr, hpref, hof, fun q hq => hofs q (by simp_all [sessionDoes]), ?_,
        .inr ⟨ps, ho, hp, ⟨pc, hpc, ?_⟩, ?_⟩⟩
      · simpa [sessionDoes, hsent] using hec
      · simpa [sessionDoes, hsent] using hset.confirm
      · simp only [sessionDoes, profilesOf_append, hsent, List.append_nil]
        simp only [List.length_cons] at hcount
        omega
    · rw [if_neg hq] at hsent
      refine ⟨hf', hcf', he, hcr, hpref, hof, fun q hq => hofs q (by simp_all [sessionDoes]), ?_,
        .inr ⟨p, ho, hp, ⟨pc, hpc, ?_⟩, ?_⟩⟩
      · simp only [sessionDoes, profilesOf_append, hsent, List.mem_append, List.mem_singleton]
        rintro q (hq' | rfl)
        · exact hec q hq'
        · exact hap
      · simp only [sessionDoes, profilesOf_append, hsent]
        exact Settles.adopt _ _ _ _
      · simp only [sessionDoes, profilesOf_append, hsent, List.length_append, List.length_cons,
          List.length_nil] at hcount ⊢
        omega
  · have hpm' : ∀ p, m ≠ .preferredProfile p := fun p h => hpm ⟨p, h⟩
    obtain ⟨ho, hp, hsent⟩ := Session.trans_hears htr ht.isOpen hf.role he ht.profile hpm'
    have hrest : profilesOf h.toSession = profilesOf rest := by
      rw [hm]
      cases m with
      | preferredProfile p => exact absurd rfl (hpm' p)
      | status st => rfl
      | raw v => rfl
    rw [hrest] at hset hcount hofs
    refine ⟨hf', hcf', he, hcr, hpref, hof, hofs, ?_, .inr ⟨ps, ho, hp, ⟨pc, hpc, ?_⟩, ?_⟩⟩
    · simpa [sessionDoes, hsent] using hec
    · simpa [sessionDoes, hsent] using hset
    · simpa [sessionDoes, hsent] using hcount

/-! ## The caller's steps -/

/-- A caller that still waits for `ringing` takes what a waiting session has sent. -/
theorem convInv_callerWaits {cfg : SessionConfig} {h : Peers} {m : Signal} {rest : List Signal}
    (hi : ConvInv cfg h) (hw : h.Waiting cfg.preferred) (hm : h.toCaller = m :: rest) :
    ConvInv cfg (h.callerDoes (h.caller.receiveSignal m) rest) := by
  obtain ⟨hf, hcf, hop, hcr, hpref, ⟨pc, hpc, hac⟩, hofs, hec, -⟩ := hi
  obtain rfl : m = .status .available := hw.toCaller m (by simp [hm])
  have hsent : signalsOf (h.caller.receiveSignal (.status .available)).2 = [] := by
    rw [CallState.receiveSignal_signals_outgoing hcr]
  have hrank : (h.caller.receiveSignal (.status .available)).1.status.rank <
      SignallingStatus.ringing.rank := by
    rcases CallState.receiveSignal_status h.caller (.status .available) with hs | ⟨_, hs, -, h1, -⟩
    · rw [hs]; exact hw.caller
    · cases hs
      rw [h1]
      decide
  have hav : ∀ m ∈ rest, m = .status .available := fun m h' => hw.toCaller m (by simp [hm, h'])
  refine ⟨hf, hcf, hop, by simpa [callerDoes] using hcr, hpref, ⟨pc, ?_, hac⟩, ?_, fun p hp => ?_,
    .inl ⟨hw.verified, hw.profile, ?_, hav, hrank, hw.sent⟩⟩
  · exact CallState.receiveSignal_profile hpc _
  · simpa [callerDoes, hsent] using hofs
  · rw [show profilesOf (h.callerDoes _ rest).toCaller = [] from profilesOf_available hav] at hp
    cases hp
  · simp [callerDoes, hsent, hw.toSession]

/-- The caller takes a profile from the session. -/
theorem convInv_callerTakes {cfg : SessionConfig} {h : Peers} {p : Profile} {rest : List Signal}
    (hi : ConvInv cfg h) {ps : Profile} (ht : h.Talking ps)
    (hm : h.toCaller = .preferredProfile p :: rest) :
    ConvInv cfg (h.callerDoes (h.caller.receiveSignal (.preferredProfile p)) rest) := by
  obtain ⟨hf, hcf, hop, hcr, hpref, -, hofs, hec, -⟩ := hi
  obtain ⟨pc, hpc, hset⟩ := ht.settles
  rw [hm, profilesOf_profile] at hset hec
  have hsent := CallState.signalsOf_receive_preferredProfile h.caller p
  have hp := CallState.receiveSignal_preferredProfile_profile h.caller p
  refine ⟨hf, hcf, hop, by simpa [callerDoes] using hcr, hpref, ⟨p, hp, hec p (by simp)⟩, ?_,
    fun q hq => hec q (List.mem_cons_of_mem _ hq),
    .inr ⟨ps, ht.isOpen, ht.profile, ⟨p, hp, ?_⟩, ?_⟩⟩
  · simpa [callerDoes, hsent] using hofs
  · simpa [callerDoes, hsent] using hset.receiveSecondary
  · simpa [callerDoes, hsent] using ht.count

/-- A transition that keeps the profile sends none, or sends it. -/
theorem convInv_callerKeeps {cfg : SessionConfig} {h : Peers} {t : CallState × Actions}
    {rest : List Signal} (hi : ConvInv cfg h) {ps pc : Profile} (ht : h.Talking ps)
    (hrest : profilesOf h.toCaller = profilesOf rest) (hr : t.1.role = .outgoing)
    (hpc : t.1.profile = some pc) (hac : cfg.allowed.contains pc = true)
    (hsent : h.caller.profile = some pc ∧ profilesOf (signalsOf t.2) = [] ∨
      profilesOf (signalsOf t.2) = [pc]) :
    ConvInv cfg (h.callerDoes t rest) := by
  obtain ⟨hf, hcf, hop, hcr, hpref, -, hofs, hec, -⟩ := hi
  obtain ⟨pc₀, hpc₀, hset⟩ := ht.settles
  have hcount := ht.count
  rw [hrest] at hset hec
  rcases hsent with ⟨hsame, hsent⟩ | hsent
  · obtain rfl : pc₀ = pc := Option.some.inj (hpc₀.symm.trans hsame)
    refine ⟨hf, hcf, hop, hr, hpref, ⟨pc₀, hpc, hac⟩, ?_, hec,
      .inr ⟨ps, ht.isOpen, ht.profile, ⟨pc₀, hpc, ?_⟩, ?_⟩⟩
    · simpa [callerDoes, hsent] using hofs
    · simpa [callerDoes, hsent] using hset
    · simpa [callerDoes, hsent] using hcount
  · refine ⟨hf, hcf, hop, hr, hpref, ⟨pc, hpc, hac⟩, ?_, hec,
      .inr ⟨ps, ht.isOpen, ht.profile, ⟨pc, hpc, ?_⟩, ?_⟩⟩
    · simp only [callerDoes, profilesOf_append, hsent, List.mem_append, List.mem_singleton]
      rintro p (hp | rfl)
      · exact hofs p hp
      · exact hac
    · simp only [callerDoes, profilesOf_append, hsent]
      exact hset.writeSecondary pc
    · simp only [callerDoes, profilesOf_append, hsent, List.length_append, List.length_cons,
        List.length_nil]
      omega

theorem convInv_deliverToCaller {cfg : SessionConfig} {h : Peers} {m : Signal}
    {rest : List Signal} (hi : ConvInv cfg h) (hm : h.toCaller = m :: rest) :
    ConvInv cfg (h.callerDoes (h.caller.receiveSignal m) rest) := by
  rcases hi.phase with hw | ⟨ps, ht⟩
  · exact convInv_callerWaits hi hw hm
  obtain ⟨pc, hpc, hac⟩ := hi.offer
  have hreply := CallState.receiveSignal_signals_outgoing hi.callerRole m
  cases m with
  | preferredProfile p => exact convInv_callerTakes hi ht hm
  | status st =>
    refine convInv_callerKeeps hi ht (by rw [hm, profilesOf_status])
      (by simpa using hi.callerRole) (CallState.receiveSignal_profile hpc _) hac ?_
    rw [hreply]
    cases st with
    | ringing =>
      rw [hpc]
      dsimp only
      split
      · exact .inl ⟨rfl, rfl⟩
      · exact .inr rfl
    | _ => exact .inl ⟨hpc, rfl⟩
  | raw v =>
    refine convInv_callerKeeps hi ht (by rw [hm, profilesOf_raw])
      (by simpa using hi.callerRole) (CallState.receiveSignal_profile hpc _) hac ?_
    rw [hreply]
    exact .inl ⟨hpc, rfl⟩

theorem convInv_callerSwitches {cfg : SessionConfig} {h : Peers} {p : Profile}
    (hi : ConvInv cfg h) (hs : h.caller.status = .established)
    (hp : cfg.allowed.contains p = true) :
    ConvInv cfg (h.callerDoes (h.caller.switchProfile p) h.toCaller) := by
  rcases hi.phase with hw | ⟨ps, ht⟩
  · have := hw.caller
    rw [hs] at this
    exact absurd this (by decide)
  obtain ⟨pc, hpc, hac⟩ := hi.offer
  have hsw := CallState.switchProfile_established hs p
  by_cases heq : h.caller.profile = some p
  · rw [if_pos heq] at hsw
    rw [hsw]
    exact convInv_callerKeeps hi ht rfl hi.callerRole heq hp (.inl ⟨heq, rfl⟩)
  · rw [if_neg heq] at hsw
    rw [hsw]
    exact convInv_callerKeeps hi ht rfl hi.callerRole rfl hp (.inr rfl)

/-! ## Convergence -/

theorem convInv_act {cfg : SessionConfig} {h : Peers} (a : Act) (hi : ConvInv cfg h)
    (he : h.Enabled a) : ConvInv cfg (h.act a) := by
  cases a with
  | session op => exact convInv_session hi he.1 he.2
  | deliverToSession now =>
    cases hm : h.toSession with
    | nil => rw [act, hm]; exact hi
    | cons m rest =>
      rw [Enabled, act, hm] at he
      rw [act, hm]
      exact convInv_deliverToSession hi hm he
  | deliverToCaller =>
    cases hm : h.toCaller with
    | nil => rw [act, hm]; exact hi
    | cons m rest => rw [act, hm]; exact convInv_deliverToCaller hi hm
  | callerSwitches p =>
    obtain ⟨hs, hp⟩ := he
    rw [hi.config] at hp
    exact convInv_callerSwitches hi hs hp

/-- **Profiles converge**: in every run from the construction of an incoming session, whatever
its embedder does without ending it, an established caller switches and the channels deliver:
once the caller has taken `ringing` and nothing is in flight the two profiles are the same; and
the session has sent at most one profile more than the caller. -/
theorem profiles_converge {cfg : SessionConfig} {now : UInt64} {s₀ : Session} {offer : Profile}
    {acts : List Act} (hs : Session.new .incoming cfg now = .ok s₀)
    (ho : cfg.allowed.contains offer = true) (h : Machine.Admits Enabled act (start s₀ offer) acts) :
    let h := acts.foldl act (start s₀ offer)
    (SignallingStatus.ringing.rank ≤ h.caller.status.rank → h.toSession = [] → h.toCaller = [] →
      h.session.profile = h.caller.profile) ∧
    (profilesOf h.sessionSent).length ≤ (profilesOf h.callerSent).length + 1 := by
  intro k
  have hi : ConvInv cfg k :=
    h.invariant (fun _ a hi he => convInv_act a hi he) (convInv_start hs ho)
  rcases hi.phase with hw | ⟨ps, ht⟩
  · refine ⟨fun hr => absurd hr (Nat.not_le.2 hw.caller), ?_⟩
    rw [profilesOf_available hw.sent]
    exact Nat.zero_le _
  · refine ⟨fun _ h1 h2 => ?_, by have := ht.count; omega⟩
    obtain ⟨pc, hpc, hset⟩ := ht.settles
    rw [h1, h2] at hset
    rw [hpc, hset.quiet]
    exact ht.profile

/-- Crossed offers: the session prefers one profile, the caller offers another. -/
theorem profiles_converge_crossed : ∃ s₀,
    Session.new .incoming ⟨.CODEC2, .bandwidthLow, true, true⟩ 0 = .ok s₀ ∧
    let h := ([.session .linkEstablished, .session (.peerVerified 1), .deliverToCaller,
      .deliverToCaller, .deliverToCaller, .deliverToSession 2, .deliverToCaller] : List Act).foldl
        act (start s₀ .bandwidthVeryLow)
    h.session.profile = some .bandwidthVeryLow ∧ h.session.profile = h.caller.profile := by
  have hs : Session.new .incoming ⟨.CODEC2, .bandwidthLow, true, true⟩ 0 = .ok _ := rfl
  exact ⟨_, hs, by decide, (profiles_converge hs (by decide) (by decide)).1 (by decide) (by decide)
    (by decide)⟩

end Peers

end Lxst.Embedded
