import RsLxst.Core.Proof.CallState
import RsLxst.Embedded.Session
import RsLxst.Lib.FixedBuffer

/-!
# What the operations of a session do

`Session.Trans s op s' es` lists every way an operation can act: its guards, the new state and
the events, with the call transition it runs. `step_trans` is the inversion of `Session.step`;
every invariant of a session is proved by cases on it and no later proof unfolds an operation.
`trans_length_le` shows that no operation fills the event buffer.
-/

set_option autoImplicit false

namespace Lxst.Embedded

@[simp] theorem Events.transitions_eq (es : Events) (as : Actions) :
    es.transitions as = es ++ as.map .transition := rfl

namespace Session

theorem mediaReady_iff {s : Session} :
    s.mediaReady = true ↔ s.ended = none ∧ s.linked = true ∧ s.verified = true ∧
      s.ready = true ∧ s.profileDeadline = none ∧ s.call.status = .established := by
  simp [mediaReady, and_assoc]

/-! ## Construction -/

/-- The stage a call starts in. -/
def firstStatus : CallRole → SignallingStatus
  | .incoming => .available
  | .outgoing => .calling

/-- A constructed session: its preferred profile is allowed and is the call's. -/
theorem new_eq {role : CallRole} {config : SessionConfig} {now : UInt64} {s : Session}
    (h : new role config now = .ok s) :
    config.allowed.contains config.preferred = true ∧
      s = { call := { role, status := firstStatus role, profile := some config.preferred,
                      answered := false }
            config
            verified := false
            linked := false
            ready := false
            transmitting := false
            inputDown := false
            audioGeneration := 1
            ended := none
            deadline := saturatingAdd now SETUP_MS
            talkStarted := 0
            suggested := false
            profileDeadline := none
            answerRetry := 0
            retries := 0 } := by
  unfold new at h
  split at h
  · cases h
  · split at h
    · cases h
    · rename_i hp
      cases h
      refine ⟨by simpa using hp, ?_⟩
      cases role <;> simp [CallState.switchProfile, CallState.incoming, CallState.outgoing,
        firstStatus]

/-! ## The helpers -/

/-- The event that stops a capture, if there is one. -/
def stopped (s : Session) : Events := if s.transmitting then [.capture false] else []

theorem stopCapture_eq (s : Session) (es : Events) :
    s.stopCapture es = ({ s with transmitting := false }, es ++ s.stopped) := by
  unfold stopCapture stopped
  split
  · rfl
  · rename_i h
    simp only [List.append_nil, Prod.mk.injEq, and_true]
    cases s
    simp_all

theorem end_eq {s : Session} (h : s.ended = none) (r : EndReason) :
    s.end_ r =
      ({ s with
          transmitting := false
          call := (s.call.hangup (r = .timeout)).1
          ready := false
          ended := some r },
        s.stopped ++ .flushMedia ::
          ((s.call.hangup (r = .timeout)).2.map .transition ++ [.ended r])) := by
  simp [end_, h, stopCapture_eq]

theorem limitTalk_cases (s : Session) (now : UInt64) :
    s.limitTalk now = (s, []) ∨
      s.limitTalk now = ({ s with transmitting := false }, s.stopped ++ [.flushMedia]) := by
  unfold limitTalk
  split
  · exact .inr (by simp [stopCapture_eq])
  · exact .inl rfl

theorem retryOffer_cases (s : Session) (es : Events) (now : UInt64) :
    s.retryOffer es now = (s, es) ∨
      (s.call.role = .incoming ∧ s.call.answered = true ∧ s.call.status = .connecting ∧
        s.retries < 3) ∧
      s.retryOffer es now =
        ({ s with retries := s.retries + 1, answerRetry := saturatingAdd now 1000 },
          es ++ s.call.retryAnswer.map .transition) := by
  unfold retryOffer
  split
  · rename_i h
    simp only [status, ge_iff_le, Bool.and_eq_true, decide_eq_true_eq] at h
    exact .inr ⟨⟨h.1.1.1.1, h.1.1.1.2, of_decide_eq_true h.1.1.2, h.2⟩, rfl⟩
  · exact .inl rfl

/-- A tick that ends nothing may only close the microphone and note a retransmission. -/
theorem ticked_eq (s : Session) (now : UInt64) : ∃ tr ar rt, (tr = s.transmitting ∨ tr = false) ∧
    ((s.limitTalk now).1.retryOffer (s.limitTalk now).2 now).1 =
      { s with transmitting := tr, answerRetry := ar, retries := rt } := by
  rcases limitTalk_cases s now with hl | hl <;> rw [hl] <;>
    rcases retryOffer_cases _ _ now with hr | ⟨-, hr⟩ <;> rw [hr]
  · exact ⟨_, _, _, .inl rfl, rfl⟩
  · exact ⟨_, _, _, .inl rfl, rfl⟩
  · exact ⟨_, _, _, .inr rfl, rfl⟩
  · exact ⟨_, _, _, .inr rfl, rfl⟩

/-! ## The operations -/

/-- The peer's signals are heard: the session is open and the peer is verified. -/
structure Open (s : Session) : Prop where
  ended : s.ended = none
  linked : s.linked = true
  verified : s.verified = true

theorem Open.guard {s : Session} (h : s.Open) :
    (s.ended.isSome || !s.linked || !s.verified) = false := by
  simp [h.ended, h.linked, h.verified]

/-- What one operation does (module doc). -/
inductive Trans (s : Session) : Op → Session → Events → Prop
  | idle (op : Op) : s.step op = (s, []) → Trans s op s []
  | linked : s.ended = none → s.linked = false →
      Trans s .linkEstablished { s with linked := true }
        (if s.call.role = .incoming then
          (CallState.incomingLinkEstablished false).map .transition else [])
  | callerVerified (now : UInt64) : s.ended = none → s.linked = true → s.verified = false →
      s.call.role = .incoming →
      Trans s (.peerVerified now)
        { s with
          verified := true
          call := (s.call.callerIdentified false true).1
          deadline := saturatingAdd now RING_MS }
        ((s.call.callerIdentified false true).2.map .transition ++
          [.transition (.sendSignal (.preferredProfile s.config.preferred))])
  | calleeVerified (now : UInt64) : s.ended = none → s.linked = true → s.verified = false →
      s.call.role = .outgoing → Trans s (.peerVerified now) { s with verified := true } []
  | answered (now : UInt64) : s.ended = none → s.verified = true → s.call.role = .incoming →
      s.call.status = .ringing →
      Trans s (.answer now)
        { s with
          call := s.call.answer.1
          deadline := saturatingAdd now ANSWER_MS
          answerRetry := saturatingAdd now 1000 }
        (s.call.answer.2.map .transition)
  | ended (op : Op) (reason : EndReason) : s.ended = none → s.step op = s.end_ reason →
      Trans s op (s.end_ reason).1 (s.end_ reason).2
  | refused (p : Profile) (now : UInt64) : s.Open → s.config.allowed.contains p = false →
      s.suggested = false →
      Trans s (.receiveSignal (.preferredProfile p) now)
        { s with
          suggested := true
          profileDeadline := some (saturatingAdd now PROFILE_MS)
          transmitting := false }
        (s.stopped ++ [.flushMedia, .transition (.sendSignal
          (.preferredProfile (s.call.profile.getD s.config.preferred)))])
  | adopted (p : Profile) (now : UInt64) : s.Open → s.config.allowed.contains p = true →
      s.call.profile ≠ some p →
      Trans s (.receiveSignal (.preferredProfile p) now)
        { s with
          profileDeadline := none
          transmitting := false
          ready := false
          audioGeneration := s.audioGeneration + 1
          call := (s.call.receiveSignal (.preferredProfile p)).1 }
        (s.stopped ++ .flushMedia ::
          ((if s.call.role = .incoming then
              [.transition (.sendSignal (.preferredProfile p))] else []) ++
            (s.call.receiveSignal (.preferredProfile p)).2.map .transition))
  | confirmed (p : Profile) (now : UInt64) : s.Open → s.config.allowed.contains p = true →
      s.call.profile = some p →
      Trans s (.receiveSignal (.preferredProfile p) now) { s with profileDeadline := none } []
  | staged (st : SignallingStatus) (now : UInt64) : s.Open → statusAllowed s.call st = true →
      Trans s (.receiveSignal (.status st) now)
        { s with
          deadline := s.stageDeadline st now
          call := (s.call.receiveSignal (.status st)).1 }
        ((s.call.receiveSignal (.status st)).2.map .transition)
  | ignoredRaw (v : UInt32) (now : UInt64) : s.Open →
      Trans s (.receiveSignal (.raw v) now) s [.transition (.ignoreSignal (.raw v))]
  | confirmedByMedia (p : Profile) (now : UInt64) : s.Open → s.call.status = .established →
      s.call.profile = some p → s.config.allowed.contains p = true →
      Trans s (.receiveProfileMedia p now) { s with profileDeadline := none } []
  | audioOpened (g : UInt32) : s.ended = none → g = s.audioGeneration →
      Trans s (.audioReady g true) { s with ready := true } []
  | released (now : UInt64) :
      Trans s (.setTransmitting false now) { s with inputDown := false, transmitting := false }
        (s.stopped ++ [.flushMedia])
  | pressIgnored (now : UInt64) : s.inputDown = false →
      ¬ (s.mediaReady = true ∧ s.config.capture = true) →
      Trans s (.setTransmitting true now) { s with inputDown := true } []
  | pressed (now : UInt64) : s.inputDown = false → s.mediaReady = true →
      s.config.capture = true →
      Trans s (.setTransmitting true now)
        { s with inputDown := true, transmitting := true, talkStarted := now }
        [.flushMedia, .capture true]
  | ticked (now : UInt64) : s.ended = none →
      Trans s (.tick now) ((s.limitTalk now).1.retryOffer (s.limitTalk now).2 now).1
        ((s.limitTalk now).1.retryOffer (s.limitTalk now).2 now).2

theorem Trans.of_eq {s s' : Session} {op : Op} {es : Events} (h : Trans s op s' es)
    (he : s.step op = (s', es)) : Trans s op (s.step op).1 (s.step op).2 := by
  rw [he]; exact h

theorem Trans.of_idle {s : Session} {op : Op} (he : s.step op = (s, [])) :
    Trans s op (s.step op).1 (s.step op).2 := (Trans.idle op he).of_eq he

theorem Trans.of_end {s : Session} {op : Op} (r : EndReason) (h : s.ended = none)
    (he : s.step op = s.end_ r) : Trans s op (s.step op).1 (s.step op).2 := by
  rw [he]; exact .ended op r h he

theorem receiveProfile_confirmed {s : Session} (h : s.Open) {p : Profile}
    (hc : s.config.allowed.contains p = true) (hp : s.call.profile = some p) (now : UInt64) :
    s.receiveSignal (.preferredProfile p) now = ({ s with profileDeadline := none }, []) := by
  simp [receiveSignal, h.guard, hc, hp, forward, CallState.receiveSignal_preferredProfile]

theorem receiveProfile_adopted {s : Session} (h : s.Open) {p : Profile}
    (hc : s.config.allowed.contains p = true) (hp : s.call.profile ≠ some p) (now : UInt64) :
    s.receiveSignal (.preferredProfile p) now =
      ({ s with
          profileDeadline := none
          transmitting := false
          ready := false
          audioGeneration := s.audioGeneration + 1
          call := (s.call.receiveSignal (.preferredProfile p)).1 },
        s.stopped ++ .flushMedia ::
          ((if s.call.role = .incoming then
              [.transition (.sendSignal (.preferredProfile p))] else []) ++
            (s.call.receiveSignal (.preferredProfile p)).2.map .transition)) := by
  simp only [receiveSignal, h.guard, hc, Bool.not_true, Bool.false_eq_true, if_false, ne_eq, hp,
    not_false_eq_true, if_true, adoptProfile, forward, stopCapture_eq]
  split <;> simp [stopped]

/-- A profile signal heard by an open session. -/
theorem receiveProfile_trans {s : Session} (h : s.Open) (p : Profile) (now : UInt64) :
    Trans s (.receiveSignal (.preferredProfile p) now)
      (s.receiveSignal (.preferredProfile p) now).1
      (s.receiveSignal (.preferredProfile p) now).2 := by
  by_cases hc : s.config.allowed.contains p = true
  · by_cases hp : s.call.profile = some p
    · exact (Trans.confirmed p now h hc hp).of_eq (receiveProfile_confirmed h hc hp now)
    · exact (Trans.adopted p now h hc hp).of_eq (receiveProfile_adopted h hc hp now)
  · rw [Bool.not_eq_true] at hc
    have he : s.receiveSignal (.preferredProfile p) now = s.refuseProfile now := by
      simp [receiveSignal, h.guard, hc]
    by_cases hs : s.suggested = true
    · exact .of_end .profileUnsupported h.ended (by simp only [step, he, refuseProfile, hs, if_true])
    · rw [Bool.not_eq_true] at hs
      refine (Trans.refused p now h hc hs).of_eq ?_
      simp [step, he, refuseProfile, hs, stopCapture_eq, stopped]

/-- A status signal heard by an open session. -/
theorem receiveStatus_trans {s : Session} (h : s.Open) (st : SignallingStatus) (now : UInt64) :
    Trans s (.receiveSignal (.status st) now) (s.receiveSignal (.status st) now).1
      (s.receiveSignal (.status st) now).2 := by
  have stage (h1 : st ≠ .busy) (h2 : st ≠ .rejected) (h3 : st ≠ .calling) :
      Trans s (.receiveSignal (.status st) now) (s.receiveSignal (.status st) now).1
        (s.receiveSignal (.status st) now).2 := by
    by_cases ha : statusAllowed s.call st = true
    · refine (Trans.staged st now h ha).of_eq ?_
      cases st <;> simp_all [step, receiveSignal, h.guard, forward]
    · refine Trans.of_idle ?_
      cases st <;> simp_all [step, receiveSignal, h.guard]
  cases st with
  | busy => exact .of_end .busy h.ended (by simp [step, receiveSignal, h.guard])
  | rejected => exact .of_end .rejected h.ended (by simp [step, receiveSignal, h.guard])
  | calling => exact .of_idle (by simp [step, receiveSignal, h.guard])
  | _ => exact stage nofun nofun nofun

theorem receiveSignal_trans (s : Session) (m : Signal) (now : UInt64) :
    Trans s (.receiveSignal m now) (s.receiveSignal m now).1 (s.receiveSignal m now).2 := by
  by_cases h : (s.ended.isSome || !s.linked || !s.verified) = true
  · exact .of_idle (by simp only [step, receiveSignal, h, if_true])
  · have ho : s.Open := by
      simp only [Bool.or_eq_true, not_or, Bool.not_eq_true, Option.isSome_eq_false_iff,
        Option.isNone_iff_eq_none, Bool.not_eq_false'] at h
      exact ⟨h.1.1, h.1.2, h.2⟩
    cases m with
    | status st => exact receiveStatus_trans ho st now
    | preferredProfile p => exact receiveProfile_trans ho p now
    | raw v =>
      refine (Trans.ignoredRaw v now ho).of_eq ?_
      simp [step, receiveSignal, ho.guard, forward, CallState.receiveSignal_raw]

theorem peerVerified_trans (s : Session) (now : UInt64) :
    Trans s (.peerVerified now) (s.peerVerified now).1 (s.peerVerified now).2 := by
  by_cases h : (s.ended.isSome || !s.linked || s.verified) = true
  · exact .of_idle (by simp only [step, peerVerified, h, if_true])
  · simp only [Bool.or_eq_true, not_or, Bool.not_eq_true, Option.isSome_eq_false_iff,
      Option.isNone_iff_eq_none, Bool.not_eq_false'] at h
    obtain ⟨⟨he, hl⟩, hv⟩ := h
    cases hr : s.call.role with
    | incoming =>
      refine (Trans.callerVerified now he hl hv hr).of_eq ?_
      simp [step, peerVerified, he, hl, hv, hr]
    | outgoing =>
      refine (Trans.calleeVerified now he hl hv hr).of_eq ?_
      simp [step, peerVerified, he, hl, hv, hr]

theorem answer_trans (s : Session) (now : UInt64) :
    Trans s (.answer now) (s.answer now).1 (s.answer now).2 := by
  by_cases h : s.ended = none ∧ s.verified = true ∧ s.call.role = .incoming ∧
      s.call.status = .ringing
  · obtain ⟨he, hv, hr, hs⟩ := h
    refine (Trans.answered now he hv hr hs).of_eq ?_
    simp [step, answer, he, hv, hr, hs]
  · refine Trans.of_idle ?_
    simp only [step, answer]
    rw [if_pos (by grind [Option.isSome_iff_ne_none])]

theorem audioReady_trans (s : Session) (g : UInt32) (success : Bool) :
    Trans s (.audioReady g success) (s.audioReady g success).1 (s.audioReady g success).2 := by
  by_cases h : s.ended = none ∧ g = s.audioGeneration
  · obtain ⟨he, hg⟩ := h
    cases success with
    | false =>
      exact .of_end .audioUnavailable he
        (by simp only [step, audioReady]; rw [if_neg (by simp [he, hg])]; rfl)
    | true => exact (Trans.audioOpened g he hg).of_eq (by simp [step, audioReady, he, hg])
  · refine Trans.of_idle ?_
    simp only [step, audioReady]
    rw [if_pos (by grind [Option.isSome_iff_ne_none])]

theorem receiveProfileMedia_trans (s : Session) (p : Profile) (now : UInt64) :
    Trans s (.receiveProfileMedia p now) (s.receiveProfileMedia p now).1
      (s.receiveProfileMedia p now).2 := by
  unfold receiveProfileMedia
  split
  · rename_i h
    have he := h
    simp only [Bool.and_eq_true, Option.isNone_iff_eq_none, decide_eq_true_eq] at he
    obtain ⟨⟨⟨⟨⟨⟨h1, h2⟩, h3⟩, h4⟩, h5⟩, h6⟩, -⟩ := he
    exact .confirmedByMedia p now ⟨h1, h2, h3⟩ h4 h5 h6
  · rename_i h
    exact .idle _ (by simp only [step, receiveProfileMedia, h]; rfl)

theorem setTransmitting_trans (s : Session) (pressed : Bool) (now : UInt64) :
    Trans s (.setTransmitting pressed now) (s.setTransmitting pressed now).1
      (s.setTransmitting pressed now).2 := by
  cases pressed with
  | false =>
    refine (Trans.released now).of_eq ?_
    simp [step, setTransmitting, stopCapture_eq, stopped]
  | true =>
    by_cases hd : s.inputDown = true
    · exact .of_idle (by simp [step, setTransmitting, hd])
    · rw [Bool.not_eq_true] at hd
      by_cases hm : s.mediaReady = true ∧ s.config.capture = true
      · refine (Trans.pressed now hd hm.1 hm.2).of_eq ?_
        have hm1 : ({ s with inputDown := true } : Session).mediaReady = true := hm.1
        simp [step, setTransmitting, hd, hm1, hm.2]
      · refine (Trans.pressIgnored now hd hm).of_eq ?_
        have hm1 : ({ s with inputDown := true } : Session).mediaReady = s.mediaReady := rfl
        simp only [step, setTransmitting, hd, hm1]
        grind

theorem tick_trans (s : Session) (now : UInt64) :
    Trans s (.tick now) (s.tick now).1 (s.tick now).2 := by
  by_cases he : s.ended = none
  · by_cases h1 : s.profileDeadline.any (now ≥ ·) = true
    · exact .of_end .profileUnsupported he
        (by simp only [step, tick]; rw [if_neg (by simp [he]), if_pos h1])
    · by_cases h2 : (s.status ≠ .established && decide (now ≥ s.deadline)) = true
      · exact .of_end .timeout he
          (by simp only [step, tick]; rw [if_neg (by simp [he]), if_neg h1, if_pos h2])
      · refine (Trans.ticked now he).of_eq ?_
        simp only [step, tick]
        rw [if_neg (by simp [he]), if_neg h1, if_neg h2]
  · exact .of_idle (by simp only [step, tick]; rw [if_pos (by grind [Option.isSome_iff_ne_none])])

/-- **Inversion of `step`**: every operation acts in one of the ways of `Trans`. -/
theorem step_trans (s : Session) (op : Op) : Trans s op (s.step op).1 (s.step op).2 := by
  cases op with
  | linkEstablished =>
    by_cases h : s.ended = none ∧ s.linked = false
    · refine (Trans.linked h.1 h.2).of_eq ?_
      simp only [step, linkEstablished, h.1, h.2]
      split <;> simp_all
    · exact .of_idle (by
        simp only [step, linkEstablished]
        rw [if_pos (by grind [Option.isSome_iff_ne_none])])
  | peerVerified now => exact peerVerified_trans s now
  | answer now => exact answer_trans s now
  | receiveSignal m now => exact receiveSignal_trans s m now
  | receiveProfileMedia p now => exact receiveProfileMedia_trans s p now
  | audioReady g success => exact audioReady_trans s g success
  | setTransmitting pressed now => exact setTransmitting_trans s pressed now
  | tick now => exact tick_trans s now
  | end_ r =>
    by_cases he : s.ended = none
    · exact .of_end r he rfl
    · exact .of_idle (by simp only [step, end_]; rw [if_pos (by grind [Option.isSome_iff_ne_none])])

theorem trans_config {s s' : Session} {op : Op} {es : Events} (h : Trans s op s' es) :
    s'.config = s.config := by
  cases h with
  | ended op r he => rw [end_eq he]
  | ticked now =>
    obtain ⟨_, _, _, -, ht⟩ := ticked_eq s now
    rw [ht]
  | _ => rfl

end Session

end Lxst.Embedded
