import RsLxst.Core.CallState

/-!
# What the call transitions do

One equation per transition, so that later proofs never unfold them, and the facts about a
received signal that every later invariant uses:

* the role and the `answered` flag are untouched by a received signal, and the status only moves
  to the received status, upwards (`receiveSignal_status`, `receiveSignal_rank`);
* the signals a transition puts on the wire (`signalsOf`), for either role
  (`receiveSignal_signals_outgoing`, `receiveSignal_signals_incoming`);
* the profile after a received signal (`receiveSignal_profile`).
-/

set_option autoImplicit false

namespace Lxst

/-- The signals among the actions, in order: what goes on the wire. -/
def signalsOf (actions : Actions) : List Signal :=
  actions.filterMap fun
    | .sendSignal signal => some signal
    | _ => none

@[simp] theorem signalsOf_nil : signalsOf [] = [] := rfl

@[simp] theorem signalsOf_sendSignal (s : Signal) (as : Actions) :
    signalsOf (.sendSignal s :: as) = s :: signalsOf as := rfl

/-- The profiles among the signals, in order. -/
def profilesOf (signals : List Signal) : List Profile :=
  signals.filterMap fun
    | .preferredProfile p => some p
    | _ => none

@[simp] theorem profilesOf_nil : profilesOf [] = [] := rfl

@[simp] theorem profilesOf_profile (p : Profile) (ms : List Signal) :
    profilesOf (.preferredProfile p :: ms) = p :: profilesOf ms := rfl

@[simp] theorem profilesOf_status (st : SignallingStatus) (ms : List Signal) :
    profilesOf (.status st :: ms) = profilesOf ms := rfl

@[simp] theorem profilesOf_raw (v : UInt32) (ms : List Signal) :
    profilesOf (.raw v :: ms) = profilesOf ms := rfl

@[simp] theorem profilesOf_append (ms ns : List Signal) :
    profilesOf (ms ++ ns) = profilesOf ms ++ profilesOf ns := List.filterMap_append

/-- The wire value of a status, as the order of the stages of a call. -/
def SignallingStatus.rank (s : SignallingStatus) : Nat := s.wireValue.toNat

theorem SignallingStatus.wireValue_ge_iff (s t : SignallingStatus) :
    s.wireValue ≥ t.wireValue ↔ t.rank ≤ s.rank := UInt32.le_iff_toNat_le

theorem SignallingStatus.rank_le_established (s : SignallingStatus) :
    s.rank ≤ SignallingStatus.established.rank := by
  cases s <;> decide

namespace CallState

/-- The call has passed the answer: `connecting` or `established`. -/
def InCall (c : CallState) : Prop := SignallingStatus.connecting.rank ≤ c.status.rank

theorem inCall_iff {c : CallState} :
    c.InCall ↔ c.status = .connecting ∨ c.status = .established := by
  unfold InCall
  cases c.status <;> decide

/-- The call takes status signals: a caller always, a callee once it has answered. -/
def Listens (c : CallState) : Prop := c.role = .incoming → c.answered = true

theorem Listens.of_outgoing {c : CallState} (h : c.role = .outgoing) : c.Listens := by
  intro hi; rw [h] at hi; cases hi

/-! ## A received signal, case by case -/

/-- An incoming call that is not answered yet takes no status from its caller. -/
theorem receiveSignal_unanswered {c : CallState} (hr : c.role = .incoming)
    (ha : c.answered = false) (st : SignallingStatus) :
    c.receiveSignal (.status st) = (c, [.ignoreSignal (.status st)]) := by
  simp [receiveSignal, Signal.isStatus, hr, ha]

section
variable {c : CallState} (h : c.Listens)
include h

theorem receiveSignal_busy : c.receiveSignal (.status .busy) = (c, [.terminate (some .busy)]) := by
  unfold receiveSignal
  rw [if_neg (by rintro ⟨h1, h2, -⟩; simp [h h1] at h2)]

theorem receiveSignal_rejected :
    c.receiveSignal (.status .rejected) = (c, [.terminate (some .rejected)]) := by
  unfold receiveSignal
  rw [if_neg (by rintro ⟨h1, h2, -⟩; simp [h h1] at h2)]

theorem receiveSignal_calling :
    c.receiveSignal (.status .calling) = (c, [.ignoreSignal (.status .calling)]) := by
  unfold receiveSignal
  rw [if_neg (by rintro ⟨h1, h2, -⟩; simp [h h1] at h2)]

theorem receiveSignal_available :
    c.receiveSignal (.status .available) =
      if SignallingStatus.available.rank ≤ c.status.rank then
        (c, [.ignoreSignal (.status .available)])
      else ({ c with status := .available }, [.identifyLocalIdentity]) := by
  unfold receiveSignal
  rw [if_neg (by rintro ⟨h1, h2, -⟩; simp [h h1] at h2)]
  simp only [SignallingStatus.wireValue_ge_iff]

theorem receiveSignal_ringing :
    c.receiveSignal (.status .ringing) =
      if SignallingStatus.ringing.rank ≤ c.status.rank then
        (c, [.ignoreSignal (.status .ringing)])
      else ({ c with status := .ringing, profile := some (c.profile.getD Profile.DEFAULT) },
        [.selectProfile (c.profile.getD Profile.DEFAULT), .prepareDialingPipelines,
          .sendSignal (.preferredProfile (c.profile.getD Profile.DEFAULT)), .startDialTone]) := by
  unfold receiveSignal
  rw [if_neg (by rintro ⟨h1, h2, -⟩; simp [h h1] at h2)]
  simp only [SignallingStatus.wireValue_ge_iff, ensureProfile]
  rfl

theorem receiveSignal_connecting_incoming (hr : c.role = .incoming) :
    c.receiveSignal (.status .connecting) =
      if SignallingStatus.connecting.rank ≤ c.status.rank then
        (c, [.ignoreSignal (.status .connecting)])
      else ({ c with status := .connecting }, [.resetDialingPipelines, .openAudioPipelines]) := by
  unfold receiveSignal
  rw [if_neg (by rintro ⟨h1, h2, -⟩; simp [h h1] at h2)]
  simp [SignallingStatus.wireValue_ge_iff, hr]

theorem receiveSignal_established :
    c.receiveSignal (.status .established) =
      if c.status = .established then (c, [.ignoreSignal (.status .established)])
      else ({ c with status := .established }, [.startAudioPipelines]) := by
  unfold receiveSignal
  rw [if_neg (by rintro ⟨h1, h2, -⟩; simp [h h1] at h2)]

end

theorem receiveSignal_connecting_outgoing {c : CallState} (hr : c.role = .outgoing) :
    c.receiveSignal (.status .connecting) =
      if SignallingStatus.connecting.rank ≤ c.status.rank then
        (c, [.sendSignal (.status .established)])
      else ({ c with status := .connecting },
        [.resetDialingPipelines, .openAudioPipelines, .sendSignal (.status .established)]) := by
  unfold receiveSignal
  rw [if_neg (by rintro ⟨h1, -⟩; rw [hr] at h1; cases h1)]
  simp only [SignallingStatus.wireValue_ge_iff, hr, true_and, if_true]
  split <;> rfl

theorem receiveSignal_preferredProfile (c : CallState) (p : Profile) :
    c.receiveSignal (.preferredProfile p) =
      if c.profile = some p then (c, [])
      else ({ c with profile := some p },
        if c.status = .established then [.switchProfile p] else [.selectProfile p]) := by
  unfold receiveSignal
  rw [if_neg (by rintro ⟨-, -, h⟩; simp [Signal.isStatus] at h)]

theorem receiveSignal_raw (c : CallState) (v : UInt32) :
    c.receiveSignal (.raw v) = (c, [.ignoreSignal (.raw v)]) := by
  unfold receiveSignal
  rw [if_neg (by rintro ⟨-, -, h⟩; simp [Signal.isStatus] at h)]

/-! ## Effects of a received signal -/

theorem Listens.or_unanswered (c : CallState) :
    c.Listens ∨ (c.role = .incoming ∧ c.answered = false) := by
  by_cases hr : c.role = .incoming
  · cases ha : c.answered with
    | true => exact .inl fun _ => ha
    | false => exact .inr ⟨hr, rfl⟩
  · exact .inl fun h => absurd h hr

/-- **The state after a received signal**: unchanged, moved up to the received status (fixing the
profile when it is `ringing`), or with the received profile. -/
theorem receiveSignal_cases (c : CallState) (s : Signal) :
    (c.receiveSignal s).1 = c ∧ (∀ p, s ≠ .preferredProfile p) ∨
    (∃ st, s = .status st ∧ c.Listens ∧ c.status.rank < st.rank ∧ st ≠ .ringing ∧
      (c.receiveSignal s).1 = { c with status := st }) ∨
    (s = .status .ringing ∧ c.Listens ∧ c.status.rank < SignallingStatus.ringing.rank ∧
      (c.receiveSignal s).1 =
        { c with status := .ringing, profile := some (c.profile.getD Profile.DEFAULT) }) ∨
    (∃ p, s = .preferredProfile p ∧ (c.receiveSignal s).1 = { c with profile := some p }) := by
  rcases s with st | p | v
  · rcases Listens.or_unanswered c with h | ⟨hr, ha⟩
    · cases st with
      | busy => rw [receiveSignal_busy h]; exact .inl ⟨rfl, nofun⟩
      | rejected => rw [receiveSignal_rejected h]; exact .inl ⟨rfl, nofun⟩
      | calling => rw [receiveSignal_calling h]; exact .inl ⟨rfl, nofun⟩
      | available =>
        rw [receiveSignal_available h]
        split
        · exact .inl ⟨rfl, nofun⟩
        · exact .inr (.inl ⟨_, rfl, h, Nat.lt_of_not_le ‹_›, nofun, rfl⟩)
      | ringing =>
        rw [receiveSignal_ringing h]
        split
        · exact .inl ⟨rfl, nofun⟩
        · exact .inr (.inr (.inl ⟨rfl, h, Nat.lt_of_not_le ‹_›, rfl⟩))
      | connecting =>
        cases hr : c.role with
        | outgoing =>
          rw [receiveSignal_connecting_outgoing hr]
          split
          · exact .inl ⟨rfl, nofun⟩
          · exact .inr (.inl ⟨_, rfl, h, Nat.lt_of_not_le ‹_›, nofun, by rw [← hr]⟩)
        | incoming =>
          rw [receiveSignal_connecting_incoming h hr]
          split
          · exact .inl ⟨rfl, nofun⟩
          · exact .inr (.inl ⟨_, rfl, h, Nat.lt_of_not_le ‹_›, nofun, by rw [← hr]⟩)
      | established =>
        rw [receiveSignal_established h]
        split
        · exact .inl ⟨rfl, nofun⟩
        · rename_i hne
          refine .inr (.inl ⟨_, rfl, h, ?_, nofun, rfl⟩)
          revert hne
          cases c.status <;> decide
    · rw [receiveSignal_unanswered hr ha]; exact .inl ⟨rfl, nofun⟩
  · refine .inr (.inr (.inr ⟨p, rfl, ?_⟩))
    rw [receiveSignal_preferredProfile]
    split
    · rename_i hp; rw [← hp]
    · rfl
  · rw [receiveSignal_raw]; exact .inl ⟨rfl, nofun⟩

@[simp] theorem receiveSignal_role (c : CallState) (s : Signal) :
    (c.receiveSignal s).1.role = c.role := by
  rcases receiveSignal_cases c s with ⟨h, -⟩ | ⟨_, -, -, -, -, h⟩ | ⟨-, -, -, h⟩ | ⟨_, -, h⟩ <;>
    rw [h]

@[simp] theorem receiveSignal_answered (c : CallState) (s : Signal) :
    (c.receiveSignal s).1.answered = c.answered := by
  rcases receiveSignal_cases c s with ⟨h, -⟩ | ⟨_, -, -, -, -, h⟩ | ⟨-, -, -, h⟩ | ⟨_, -, h⟩ <;>
    rw [h]

/-- The status after a received signal: unchanged, or the received status, which is later. -/
theorem receiveSignal_status (c : CallState) (s : Signal) :
    (c.receiveSignal s).1.status = c.status ∨
      ∃ st, s = .status st ∧ c.Listens ∧ (c.receiveSignal s).1.status = st ∧
        c.status.rank < st.rank := by
  rcases receiveSignal_cases c s with ⟨h, -⟩ | ⟨st, hs, hl, hlt, -, h⟩ | ⟨hs, hl, hlt, h⟩ | ⟨_, -, h⟩
  · exact .inl (by rw [h])
  · exact .inr ⟨st, hs, hl, by rw [h], hlt⟩
  · exact .inr ⟨_, hs, hl, by rw [h], hlt⟩
  · exact .inl (by rw [h])

/-- A received signal never moves a call back. -/
theorem receiveSignal_rank (c : CallState) (s : Signal) :
    c.status.rank ≤ (c.receiveSignal s).1.status.rank := by
  rcases receiveSignal_status c s with h | ⟨st, -, -, h, hlt⟩
  · exact Nat.le_of_eq (by rw [h])
  · rw [h]; exact Nat.le_of_lt hlt

theorem InCall.receiveSignal {c : CallState} (h : c.InCall) (s : Signal) :
    (c.receiveSignal s).1.InCall := Nat.le_trans h (receiveSignal_rank c s)

/-- Every offer a caller receives leaves it past the answer. -/
theorem receiveSignal_connecting_inCall {c : CallState} (hr : c.role = .outgoing) :
    (c.receiveSignal (.status .connecting)).1.InCall := by
  rw [receiveSignal_connecting_outgoing hr]
  split
  · assumption
  · exact Nat.le_refl _

theorem receiveSignal_established_status {c : CallState} (h : c.Listens) :
    (c.receiveSignal (.status .established)).1.status = .established := by
  rw [receiveSignal_established h]
  split
  · assumption
  · rfl

/-- Only a profile signal changes the profile of a call that has one. -/
theorem receiveSignal_profile {c : CallState} {q : Profile} (hq : c.profile = some q) (s : Signal) :
    (c.receiveSignal s).1.profile =
      match s with
      | .preferredProfile p => some p
      | _ => some q := by
  rcases receiveSignal_cases c s with ⟨h, hp⟩ | ⟨_, rfl, -, -, -, h⟩ | ⟨rfl, -, -, h⟩ | ⟨p, rfl, h⟩
  · rw [h, hq]
    cases s with
    | preferredProfile p => exact absurd rfl (hp p)
    | _ => rfl
  · rw [h]; exact hq
  · rw [h, hq]; rfl
  · rw [h]

@[simp] theorem receiveSignal_preferredProfile_profile (c : CallState) (p : Profile) :
    (c.receiveSignal (.preferredProfile p)).1.profile = some p := by
  rw [receiveSignal_preferredProfile]
  split
  · assumption
  · rfl

/-- Once ringing, a call keeps its profile under every other signal. -/
theorem receiveSignal_profile_of_ringing {c : CallState}
    (hc : SignallingStatus.ringing.rank ≤ c.status.rank) {s : Signal}
    (hs : ∀ p, s ≠ .preferredProfile p) : (c.receiveSignal s).1.profile = c.profile := by
  rcases receiveSignal_cases c s with ⟨h, -⟩ | ⟨_, -, -, -, -, h⟩ | ⟨-, -, hlt, -⟩ | ⟨p, hp, -⟩
  · rw [h]
  · rw [h]
  · omega
  · exact absurd hp (hs p)

/-! ## Signals sent in return -/

/-- A received profile is adopted silently. -/
@[simp] theorem signalsOf_receive_preferredProfile (c : CallState) (p : Profile) :
    signalsOf (c.receiveSignal (.preferredProfile p)).2 = [] := by
  rw [receiveSignal_preferredProfile]
  repeat' split
  all_goals rfl

/-- What a caller sends in return: its profile when it starts ringing, an echo of `established`
for every offer. -/
theorem receiveSignal_signals_outgoing {c : CallState} (hr : c.role = .outgoing) (s : Signal) :
    signalsOf (c.receiveSignal s).2 =
      match s with
      | .status .ringing =>
        if SignallingStatus.ringing.rank ≤ c.status.rank then []
        else [.preferredProfile (c.profile.getD Profile.DEFAULT)]
      | .status .connecting => [.status .established]
      | _ => [] := by
  have h := Listens.of_outgoing hr
  rcases s with st | p | v
  · cases st with
    | busy => rw [receiveSignal_busy h]; rfl
    | rejected => rw [receiveSignal_rejected h]; rfl
    | calling => rw [receiveSignal_calling h]; rfl
    | available => rw [receiveSignal_available h]; split <;> rfl
    | ringing => rw [receiveSignal_ringing h]; split <;> simp_all [signalsOf]
    | connecting => rw [receiveSignal_connecting_outgoing hr]; split <;> rfl
    | established => rw [receiveSignal_established h]; split <;> rfl
  · exact signalsOf_receive_preferredProfile c p
  · rw [receiveSignal_raw]; rfl

/-- A callee that is past the answer, or not answered yet, sends nothing in return. -/
theorem receiveSignal_signals_incoming {c : CallState} (hr : c.role = .incoming)
    (ha : c.answered = true → c.InCall) (s : Signal) : signalsOf (c.receiveSignal s).2 = [] := by
  rcases s with st | p | v
  · rcases Listens.or_unanswered c with h | ⟨-, hu⟩
    · have hc : SignallingStatus.connecting.rank ≤ c.status.rank := ha (h hr)
      have hrg : SignallingStatus.ringing.rank ≤ c.status.rank := Nat.le_trans (by decide) hc
      cases st with
      | busy => rw [receiveSignal_busy h]; rfl
      | rejected => rw [receiveSignal_rejected h]; rfl
      | calling => rw [receiveSignal_calling h]; rfl
      | available => rw [receiveSignal_available h]; split <;> rfl
      | ringing => rw [receiveSignal_ringing h, if_pos hrg]; rfl
      | connecting => rw [receiveSignal_connecting_incoming h hr]; split <;> rfl
      | established => rw [receiveSignal_established h]; split <;> rfl
    · rw [receiveSignal_unanswered hr hu]; rfl
  · exact signalsOf_receive_preferredProfile c p
  · rw [receiveSignal_raw]; rfl

/-- The actions a received signal may be returned with: it never tears the link down, rings, or
sends a status other than the echo of `established`. -/
def inReply : TelephonyAction → Bool
  | .sendSignal (.preferredProfile _) | .sendSignal (.status .established) => true
  | .sendSignal _ | .teardownLink | .ringIncomingCall => false
  | _ => true

theorem receiveSignal_inReply (c : CallState) (s : Signal) :
    ∀ a ∈ (c.receiveSignal s).2, inReply a = true := by
  rcases s with st | p | v
  · rcases Listens.or_unanswered c with h | ⟨hr, ha⟩
    · cases st with
      | busy => simp [receiveSignal_busy h, inReply]
      | rejected => simp [receiveSignal_rejected h, inReply]
      | calling => simp [receiveSignal_calling h, inReply]
      | available => rw [receiveSignal_available h]; split <;> simp [inReply]
      | ringing => rw [receiveSignal_ringing h]; split <;> simp [inReply]
      | connecting =>
        cases hr : c.role with
        | outgoing => rw [receiveSignal_connecting_outgoing hr]; split <;> simp [inReply]
        | incoming => rw [receiveSignal_connecting_incoming h hr]; split <;> simp [inReply]
      | established => rw [receiveSignal_established h]; split <;> simp [inReply]
    · simp [receiveSignal_unanswered hr ha, inReply]
  · rw [receiveSignal_preferredProfile]
    split
    · simp
    · dsimp only
      split <;> simp [inReply]
  · simp [receiveSignal_raw, inReply]

/-! ## The callee's own transitions -/

theorem answer_ringing {c : CallState} (hr : c.role = .incoming) (hs : c.status = .ringing) :
    c.answer = ({ c with status := .connecting, profile := some (c.profile.getD Profile.DEFAULT),
                         answered := true },
      [.selectProfile (c.profile.getD Profile.DEFAULT), .sendSignal (.status .connecting),
        .openAudioPipelines, .sendSignal (.status .established)]) := by
  simp [answer, hr, hs, ensureProfile, pushStatusSignal, SignallingStatus.isAutoStatus,
    SignallingStatus.AUTO_STATUS_CODES]

theorem answer_other {c : CallState} (h : c.role ≠ .incoming ∨ c.status ≠ .ringing) :
    c.answer = (c, []) := by
  simp only [answer, if_pos h]

theorem callerIdentified_admitted (c : CallState) :
    c.callerIdentified false true =
      ({ c with status := .ringing },
        [.resetDialingPipelines, .sendSignal (.status .ringing), .ringIncomingCall]) := by
  simp [callerIdentified, pushStatusSignal, SignallingStatus.isAutoStatus,
    SignallingStatus.AUTO_STATUS_CODES]

theorem retryAnswer_offer {c : CallState} (hr : c.role = .incoming) (ha : c.answered = true)
    (hs : c.status = .connecting) :
    c.retryAnswer = [.sendSignal (.status .connecting), .sendSignal (.status .established)] := by
  simp [retryAnswer, hr, ha, hs]

theorem retryAnswer_other {c : CallState}
    (h : c.role ≠ .incoming ∨ c.answered = false ∨ c.status ≠ .connecting) :
    c.retryAnswer = [] := by
  simp only [retryAnswer]
  rw [if_pos (by simpa using h)]

theorem switchProfile_established {c : CallState} (h : c.status = .established) (p : Profile) :
    c.switchProfile p =
      if c.profile = some p then (c, [])
      else ({ c with profile := some p },
        [.sendSignal (.preferredProfile p), .switchProfile p]) := by
  simp only [switchProfile, h, if_true]

@[simp] theorem switchProfile_role (c : CallState) (p : Profile) :
    (c.switchProfile p).1.role = c.role := by
  unfold switchProfile
  split <;> rfl

@[simp] theorem switchProfile_status (c : CallState) (p : Profile) :
    (c.switchProfile p).1.status = c.status := by
  unfold switchProfile
  split <;> rfl

@[simp] theorem switchProfile_answered (c : CallState) (p : Profile) :
    (c.switchProfile p).1.answered = c.answered := by
  unfold switchProfile
  split <;> rfl

/-! ## The action buffer -/

/-- `actions` is what one transition of `c` returns. -/
inductive Emits (c : CallState) : Actions → Prop
  | incomingLinkEstablished (lineBusy : Bool) : Emits c (incomingLinkEstablished lineBusy)
  | callerIdentified (lineBusy allowed : Bool) : Emits c (c.callerIdentified lineBusy allowed).2
  | answer : Emits c c.answer.2
  | retryAnswer : Emits c c.retryAnswer
  | receiveSignal (s : Signal) : Emits c (c.receiveSignal s).2
  | switchProfile (p : Profile) : Emits c (c.switchProfile p).2
  | hangup (ringTimeout : Bool) : Emits c (c.hangup ringTimeout).2

theorem receiveSignal_length (c : CallState) (s : Signal) :
    (c.receiveSignal s).2.length ≤ Actions.CAPACITY := by
  unfold Actions.CAPACITY
  rcases s with st | p | v
  · rcases Listens.or_unanswered c with h | ⟨hr, ha⟩
    · cases st with
      | busy => simp [receiveSignal_busy h]
      | rejected => simp [receiveSignal_rejected h]
      | calling => simp [receiveSignal_calling h]
      | available => rw [receiveSignal_available h]; split <;> simp
      | ringing => rw [receiveSignal_ringing h]; split <;> simp
      | connecting =>
        cases hr : c.role with
        | outgoing => rw [receiveSignal_connecting_outgoing hr]; split <;> simp
        | incoming => rw [receiveSignal_connecting_incoming h hr]; split <;> simp
      | established => rw [receiveSignal_established h]; split <;> simp
    · simp [receiveSignal_unanswered hr ha]
  · rw [receiveSignal_preferredProfile]
    split
    · simp
    · dsimp only
      split <;> simp
  · simp [receiveSignal_raw]

/-- **No transition overruns the action buffer.** -/
theorem Emits.length_le {c : CallState} {actions : Actions} (h : c.Emits actions) :
    actions.length ≤ Actions.CAPACITY := by
  cases h with
  | receiveSignal s => exact c.receiveSignal_length s
  | incomingLinkEstablished lineBusy => cases lineBusy <;> decide
  | callerIdentified lineBusy allowed =>
    unfold CallState.callerIdentified
    split
    · simp [Actions.CAPACITY]
    · simp [pushStatusSignal, Actions.CAPACITY]
  | answer =>
    by_cases hc : c.role = .incoming ∧ c.status = .ringing
    · simp [answer_ringing hc.1 hc.2, Actions.CAPACITY]
    · rw [answer_other (by grind)]
      exact Nat.zero_le _
  | retryAnswer =>
    unfold CallState.retryAnswer
    split <;> simp [Actions.CAPACITY]
  | switchProfile p =>
    unfold CallState.switchProfile
    split
    · exact Nat.zero_le _
    · dsimp only
      split <;> simp [Actions.CAPACITY]
  | hangup ringTimeout =>
    unfold CallState.hangup
    dsimp only
    split <;> simp [Actions.CAPACITY]

end CallState

end Lxst
