import RsLxst.Embedded.Proof.Session

/-!
# A peer cannot postpone the timeouts of a session

Three measures that no operation raises: the `extensions` of the setup deadline that are left
(`trans_deadline`), the one offer of a profile (`trans_profileDeadline`) and the retransmissions
of the answer (`trans_offer`). They bound how often each happens in a run. An extension made in
time moves the deadline by at most its own allowance, so `Timely` bounds the deadline itself.
Together: `deadlines_bounded`.
-/

set_option autoImplicit false

namespace Lxst.Embedded

theorem saturatingAdd_toNat (a b : UInt64) :
    (saturatingAdd a b).toNat = min (a.toNat + b.toNat) (UInt64.size - 1) := by
  have ha := a.toNat_lt_size
  unfold saturatingAdd
  split
  · rename_i h
    rw [UInt64.toNat_add, Nat.mod_eq_of_lt h]
    omega
  · rw [UInt64.toNat_ofNat_of_lt' (by decide)]
    omega

theorem saturatingAdd_le_of_le (t : UInt64) {a b : UInt64} (h : a ≤ b) :
    saturatingAdd t a ≤ saturatingAdd t b := by
  rw [UInt64.le_iff_toNat_le] at h ⊢
  simp only [saturatingAdd_toNat]
  omega

/-- A deadline of `b` more, set before a deadline within `a` of `t`, is within `a + b` of `t`. -/
theorem saturatingAdd_extend {t now deadline a b : UInt64} (hlt : now < deadline)
    (hd : deadline ≤ saturatingAdd t a) (hab : a.toNat + b.toNat < UInt64.size) :
    saturatingAdd now b ≤ saturatingAdd t (a + b) := by
  rw [UInt64.lt_iff_toNat_lt] at hlt
  rw [UInt64.le_iff_toNat_le] at hd ⊢
  have hs : (a + b).toNat = a.toNat + b.toNat := by rw [UInt64.toNat_add, Nat.mod_eq_of_lt hab]
  simp only [saturatingAdd_toNat, hs] at hd ⊢
  omega

namespace Session

/-! ## The events of interest -/

/-- The clock reading an operation is called with. -/
def Op.time : Op → Option UInt64
  | .peerVerified now | .answer now | .receiveSignal _ now | .receiveProfileMedia _ now
  | .setTransmitting _ now | .tick now => some now
  | .linkEstablished | .audioReady _ _ | .end_ _ => none

def changesDeadline (s : Session) (op : Op) : Bool := (s.step op).1.deadline ≠ s.deadline

def setsProfileDeadline (s : Session) (op : Op) : Bool :=
  (s.step op).1.profileDeadline ≠ s.profileDeadline && (s.step op).1.profileDeadline.isSome

/-- The signal that opens the answer offer. -/
def offer : Event := .transition (.sendSignal (.status .connecting))

def Op.isAnswer : Op → Bool
  | .answer _ => true
  | _ => false

/-- Anything but the answer itself sends the answer offer. -/
def retransmitsOffer (s : Session) (op : Op) : Bool := !op.isAnswer && offer ∈ (s.step op).2

/-- An operation that changes the deadline happens before the deadline in force. -/
def InTime (s : Session) (op : Op) : Prop :=
  changesDeadline s op = true → op.time.all (· < s.deadline) = true

instance (s : Session) (op : Op) : Decidable (InTime s op) :=
  inferInstanceAs (Decidable (_ → _))

/-! ## The setup deadline -/

/-- The extensions of the setup deadline that are left. -/
def extensions (s : Session) : Nat :=
  if s.ended.isSome then 0
  else
    match s.call.role with
    | .incoming => if !s.verified then 2 else if s.call.status = .ringing then 1 else 0
    | .outgoing =>
      match s.call.status with
      | .ringing => 1
      | .connecting | .established => 0
      | _ => 2

/-- The extensions depend on the end, the verification and the stage of the call alone. -/
theorem extensions_congr {s s' : Session} (he : s'.ended = s.ended)
    (hv : s'.verified = s.verified) (hr : s'.call.role = s.call.role)
    (hst : s'.call.status = s.call.status) : extensions s' = extensions s := by
  simp only [extensions, he, hv, hr, hst]

/-- An extension of the deadline: the ring allowance uses up the first one, the answer allowance
the second one. -/
structure Extends (s s' : Session) (now : UInt64) : Prop where
  stages : extensions s = 2 ∧ extensions s' = 1 ∧ s'.deadline = saturatingAdd now RING_MS ∨
    extensions s = 1 ∧ extensions s' = 0 ∧ s'.deadline = saturatingAdd now ANSWER_MS

theorem stageDeadline_ringing {s : Session} (h : s.call.status = .available) (now : UInt64) :
    s.stageDeadline .ringing now = saturatingAdd now RING_MS := by
  unfold stageDeadline
  rw [h, if_neg nofun, if_pos (by decide)]

theorem stageDeadline_connecting {s : Session} (h : s.call.status = .ringing) (now : UInt64) :
    s.stageDeadline .connecting now = saturatingAdd now ANSWER_MS := by
  unfold stageDeadline
  rw [if_pos ⟨rfl, h⟩]

/-- A stage that an outgoing peer may announce extends the deadline or leaves it alone. -/
theorem staged_deadline {s : Session} (ho : s.Open) {st : SignallingStatus}
    (ha : statusAllowed s.call st = true) (now : UInt64) :
    let s' : Session := { s with
      deadline := s.stageDeadline st now
      call := (s.call.receiveSignal (.status st)).1 }
    s'.deadline = s.deadline ∧ extensions s' ≤ extensions s ∨ Extends s s' now := by
  have hen : s.ended.isSome = false := by rw [ho.ended]; rfl
  cases hr : s.call.role with
  | incoming =>
    have hl : s.call.answered = true ∧ st = .established := by simpa [statusAllowed, hr] using ha
    obtain ⟨hans, rfl⟩ := hl
    have hst := CallState.receiveSignal_established_status (c := s.call) fun _ => hans
    refine .inl ⟨by simp [stageDeadline], ?_⟩
    simp [extensions, hen, ho.verified, hr, hst]
  | outgoing =>
    have hlis := CallState.Listens.of_outgoing hr
    simp only [statusAllowed, hr] at ha
    cases st with
    | available =>
      refine .inl ⟨by simp [stageDeadline], ?_⟩
      have hc : s.call.status = .calling ∨ s.call.status = .available := by simpa using ha
      have hst : (s.call.receiveSignal (.status .available)).1.status = .available := by
        rw [CallState.receiveSignal_available hlis]
        rcases hc with hc | hc <;> simp [hc, SignallingStatus.rank, SignallingStatus.wireValue]
      rcases hc with hc | hc <;> simp [extensions, hen, hr, hst, hc]
    | ringing =>
      have hst : (s.call.receiveSignal (.status .ringing)).1.status = .ringing := by
        rw [CallState.receiveSignal_ringing hlis]
        have hc : s.call.status = .available ∨ s.call.status = .ringing := by simpa using ha
        rcases hc with hc | hc <;> simp [hc, SignallingStatus.rank, SignallingStatus.wireValue]
      by_cases hc : s.call.status = .ringing
      · refine .inl ⟨by simp [stageDeadline, hc], ?_⟩
        simp [extensions, hen, hr, hst, hc]
      · have hav : s.call.status = .available := by simpa [hc] using ha
        refine .inr ⟨.inl ⟨?_, ?_, ?_⟩⟩
        · simp [extensions, hen, hr, hav]
        · simp [extensions, hen, hr, hst]
        · exact stageDeadline_ringing hav now
    | connecting =>
      have hin := CallState.receiveSignal_connecting_inCall hr
      have hx : extensions { s with
          deadline := s.stageDeadline .connecting now
          call := (s.call.receiveSignal (.status .connecting)).1 } = 0 := by
        rcases CallState.inCall_iff.1 hin with h | h <;> simp [extensions, hen, hr, h]
      by_cases hc : s.call.status = .ringing
      · refine .inr ⟨.inr ⟨?_, hx, ?_⟩⟩
        · simp [extensions, hen, hr, hc]
        · exact stageDeadline_connecting hc now
      · exact .inl ⟨by simp [stageDeadline, hc], hx ▸ Nat.zero_le _⟩
    | established =>
      have hst := CallState.receiveSignal_established_status hlis
      refine .inl ⟨by simp [stageDeadline], ?_⟩
      simp [extensions, hen, hr, hst]
    | busy | rejected | calling => cases ha

/-- **One operation and the setup deadline**: it is left alone, or one extension is used up. -/
theorem trans_deadline {s s' : Session} {op : Op} {es : Events} (h : Trans s op s' es) :
    s'.deadline = s.deadline ∧ extensions s' ≤ extensions s ∨
      ∃ now, op.time = some now ∧ Extends s s' now := by
  cases h with
  | callerVerified now he hl hv hr =>
    refine .inr ⟨now, rfl, ⟨.inl ⟨?_, ?_, ?_⟩⟩⟩
    · simp [extensions, he, hv, hr]
    · simp [extensions, he, hr, CallState.callerIdentified_admitted]
    · dsimp only
  | calleeVerified now he hl hv hr =>
    refine .inl ⟨rfl, ?_⟩
    simp [extensions, he, hr]
  | answered now he hv hr hs =>
    refine .inr ⟨now, rfl, ⟨.inr ⟨?_, ?_, ?_⟩⟩⟩
    · simp [extensions, he, hv, hr, hs]
    · simp [extensions, he, hv, CallState.answer_ringing hr hs, hr]
    · dsimp only
  | ended op r he =>
    rw [end_eq he]
    refine .inl ⟨rfl, ?_⟩
    simp [extensions]
  | adopted p now ho hc hp =>
    refine .inl ⟨rfl, Nat.le_of_eq (extensions_congr rfl rfl (CallState.receiveSignal_role _ _) ?_)⟩
    rcases s.call.receiveSignal_status (.preferredProfile p) with h | ⟨_, h, -⟩
    · exact h
    · cases h
  | staged st now ho ha =>
    rcases staged_deadline ho ha now with h | h
    · exact .inl h
    · exact .inr ⟨now, rfl, h⟩
  | ticked now he =>
    obtain ⟨_, _, _, -, ht⟩ := ticked_eq s now
    rw [ht]
    exact .inl ⟨rfl, Nat.le_refl _⟩
  | _ => exact .inl ⟨rfl, Nat.le_refl _⟩

/-- How far past the construction the deadline may be, with `n` extensions left. -/
def reach : Nat → UInt64
  | 0 => SETUP_MS + RING_MS + ANSWER_MS
  | 1 => SETUP_MS + RING_MS
  | _ => SETUP_MS

theorem reach_zero : reach 0 = 130000 := by decide

theorem reach_anti {m n : Nat} (h : m ≤ n) : reach n ≤ reach m := by
  match m, n with
  | 0, 0 | 0, 1 | 0, _ + 2 | 1, 1 | 1, _ + 2 | _ + 2, _ + 2 => simp only [reach]; decide

/-- The deadline of a session constructed at `t` has been extended in time only. -/
def Timely (t : UInt64) (s : Session) : Prop := s.deadline ≤ saturatingAdd t (reach (extensions s))

theorem timely_step {t : UInt64} {s : Session} {op : Op} (hi : Timely t s) (ht : InTime s op) :
    Timely t (s.step op).1 := by
  have keep (he : (s.step op).1.deadline = s.deadline)
      (hx : extensions (s.step op).1 ≤ extensions s) : Timely t (s.step op).1 := by
    unfold Timely
    rw [he]
    exact UInt64.le_trans hi (saturatingAdd_le_of_le t (reach_anti hx))
  unfold Timely at hi
  rcases trans_deadline (step_trans s op) with ⟨he, hx⟩ | ⟨now, hop, hst⟩
  · exact keep he hx
  · by_cases he : (s.step op).1.deadline = s.deadline
    · exact keep he (by rcases hst.stages with h | h <;> omega)
    · have hlt : now < s.deadline := by
        have := ht (by simpa [changesDeadline] using he)
        rw [hop] at this
        simpa using this
      unfold Timely
      rcases hst.stages with ⟨h2, h1, hd⟩ | ⟨h1, h0, hd⟩
      · rw [h2] at hi
        rw [h1, hd]
        exact saturatingAdd_extend hlt hi (by decide)
      · rw [h1] at hi
        rw [h0, hd]
        exact saturatingAdd_extend hlt hi (by decide)

/-! ## The offer of a profile -/

/-- **One operation and the profile deadline**: it is kept or cleared, or set by the one offer. -/
theorem trans_profileDeadline {s s' : Session} {op : Op} {es : Events} (h : Trans s op s' es) :
    s'.suggested = s.suggested ∧
        (s'.profileDeadline = s.profileDeadline ∨ s'.profileDeadline = none) ∨
      s.suggested = false ∧ s'.suggested = true := by
  cases h with
  | refused p now ho hc hs => exact .inr ⟨hs, rfl⟩
  | adopted | confirmed | confirmedByMedia => exact .inl ⟨rfl, .inr rfl⟩
  | ended op r he =>
    rw [end_eq he]
    exact .inl ⟨rfl, .inl rfl⟩
  | ticked now he =>
    obtain ⟨_, _, _, -, ht⟩ := ticked_eq s now
    rw [ht]
    exact .inl ⟨rfl, .inl rfl⟩
  | _ => exact .inl ⟨rfl, .inl rfl⟩

/-! ## The retransmissions of the answer -/

/-- No received signal is returned with the answer offer. -/
theorem receiveSignal_offer (c : CallState) (m : Signal) :
    .sendSignal (.status .connecting) ∉ (c.receiveSignal m).2 := by
  intro h
  have := c.receiveSignal_inReply m _ h
  cases this

theorem offer_mem_transitions {as : Actions} :
    offer ∈ as.map Event.transition ↔ .sendSignal (.status .connecting) ∈ as := by
  simp [offer]

theorem offer_notMem_stopped (s : Session) : offer ∉ s.stopped := by
  unfold stopped
  split <;> simp [offer]

theorem offer_notMem_end {s : Session} (h : s.ended = none) (r : EndReason) :
    offer ∉ (s.end_ r).2 := by
  have hh : .sendSignal (.status .connecting) ∉ (s.call.hangup (r = .timeout)).2 := by
    simp only [CallState.hangup]
    split <;> simp
  rw [end_eq h]
  simp only [List.mem_append, List.mem_cons, offer_mem_transitions]
  simpa [hh, offer] using offer_notMem_stopped s

/-- A tick that ends nothing sends no offer, or uses up a retransmission. -/
theorem ticked_offer (s : Session) (now : UInt64) :
    let r := (s.limitTalk now).1.retryOffer (s.limitTalk now).2 now
    r.1.retries = s.retries ∧ offer ∉ r.2 ∨ s.retries < 3 ∧ r.1.retries = s.retries + 1 := by
  have hl : (s.limitTalk now).1.retries = s.retries ∧ offer ∉ (s.limitTalk now).2 := by
    rcases limitTalk_cases s now with h | h <;> rw [h]
    · exact ⟨rfl, by simp⟩
    · refine ⟨rfl, ?_⟩
      simp only [List.mem_append, not_or]
      exact ⟨offer_notMem_stopped s, by simp [offer]⟩
  rcases retryOffer_cases (s.limitTalk now).1 (s.limitTalk now).2 now with h | ⟨⟨-, -, -, hlt⟩, h⟩
  · rw [h]; exact .inl hl
  · rw [h]
    exact .inr ⟨hl.1 ▸ hlt, by simp [hl.1]⟩

/-- **One operation and the answer offer**: it is not sent, by the answer, or a retransmission is
used up. -/
theorem trans_offer {s s' : Session} {op : Op} {es : Events} (h : Trans s op s' es) :
    s'.retries = s.retries ∧ (offer ∈ es → ∃ now, op = .answer now) ∨
      s.retries < 3 ∧ s'.retries = s.retries + 1 := by
  have silent (hs : offer ∉ es) (he : s'.retries = s.retries) :
      s'.retries = s.retries ∧ (offer ∈ es → ∃ now, op = .answer now) ∨
        s.retries < 3 ∧ s'.retries = s.retries + 1 := .inl ⟨he, fun h => absurd h hs⟩
  cases h with
  | linked =>
    refine silent ?_ rfl
    split <;> simp [offer, CallState.incomingLinkEstablished]
  | callerVerified now he hl hv hr =>
    refine silent ?_ rfl
    simp [offer, CallState.callerIdentified_admitted]
  | answered now => exact .inl ⟨rfl, fun _ => ⟨now, rfl⟩⟩
  | ended op r he =>
    refine silent (offer_notMem_end he r) ?_
    rw [end_eq he]
  | refused p now =>
    refine silent ?_ rfl
    simp only [List.mem_append, not_or]
    exact ⟨offer_notMem_stopped s, by simp [offer]⟩
  | adopted p now =>
    refine silent ?_ rfl
    simp only [List.mem_append, List.mem_cons, not_or, offer_mem_transitions]
    refine ⟨offer_notMem_stopped s, by simp [offer], ?_,
      receiveSignal_offer s.call _⟩
    split <;> simp [offer]
  | staged st now =>
    refine silent ?_ rfl
    rw [offer_mem_transitions]
    exact receiveSignal_offer s.call _
  | released now =>
    refine silent ?_ rfl
    simp only [List.mem_append, not_or]
    exact ⟨offer_notMem_stopped s, by simp [offer]⟩
  | ticked now he =>
    rcases ticked_offer s now with ⟨h, ho⟩ | h
    · exact silent ho h
    · exact .inr h
  | _ => exact silent (by simp [offer]) rfl

/-! ## Runs -/

theorem changesDeadline_le (s : Session) (ops : List Op) :
    Machine.occurrences step changesDeadline s ops ≤ extensions s := by
  refine Nat.le_trans (Nat.le_add_right _ _)
    (Machine.occurrences_le step (f := extensions) (fun s op => ?_) (fun s op hp => ?_) s ops)
  · rcases trans_deadline (step_trans s op) with ⟨-, h⟩ | ⟨_, -, ⟨h | h⟩⟩ <;> omega
  · rcases trans_deadline (step_trans s op) with ⟨h, -⟩ | ⟨_, -, ⟨h | h⟩⟩
    · simp [changesDeadline, h] at hp
    · omega
    · omega

theorem setsProfileDeadline_le (s : Session) (ops : List Op) :
    Machine.occurrences step setsProfileDeadline s ops ≤ 1 := by
  have hm (s : Session) : (if s.suggested then 0 else 1) ≤ 1 := by split <;> decide
  refine Nat.le_trans (Nat.le_trans (Nat.le_add_right _ _)
    (Machine.occurrences_le step (f := fun s => if s.suggested then 0 else 1)
      (fun s op => ?_) (fun s op hp => ?_) s ops)) (hm s)
  · rcases trans_profileDeadline (step_trans s op) with ⟨h, -⟩ | ⟨-, h⟩ <;> simp [h]
  · rcases trans_profileDeadline (step_trans s op) with ⟨-, h | h⟩ | ⟨h1, h2⟩
    · simp [setsProfileDeadline, h] at hp
    · simp [setsProfileDeadline, h] at hp
    · simp [h1, h2]

theorem retransmitsOffer_le (s : Session) (ops : List Op) :
    Machine.occurrences step retransmitsOffer s ops ≤ 3 := by
  have up {s s' : Session} (h : s.retries < 3) (h' : s'.retries = s.retries + 1) :
      3 - s'.retries.toNat < 3 - s.retries.toNat := by
    have hlt : s.retries.toNat < 3 := UInt8.lt_iff_toNat_lt.1 h
    have : s'.retries.toNat = s.retries.toNat + 1 := by
      rw [h', UInt8.toNat_add, UInt8.toNat_one]
      omega
    omega
  refine Nat.le_trans (Nat.le_trans (Nat.le_add_right _ _)
    (Machine.occurrences_le step (f := fun s => 3 - s.retries.toNat)
      (fun s op => ?_) (fun s op hp => ?_) s ops)) (Nat.sub_le _ _)
  · rcases trans_offer (step_trans s op) with ⟨h, -⟩ | ⟨h, h'⟩
    · exact Nat.le_of_eq (by rw [h])
    · exact Nat.le_of_lt (up h h')
  · rcases trans_offer (step_trans s op) with ⟨-, h⟩ | ⟨h, h'⟩
    · rw [retransmitsOffer, Bool.and_eq_true, decide_eq_true_eq] at hp
      obtain ⟨now, rfl⟩ := h hp.2
      cases hp.1
    · exact up h h'

/-- A tick at or after the deadline ends a session that is not established. -/
theorem tick_due {s : Session} {now : UInt64} (h : s.deadline ≤ now) :
    (s.step (.tick now)).1.status = .established ∨ (s.step (.tick now)).1.ended.isSome = true := by
  have hend (he : s.ended = none) (r : EndReason) : (s.end_ r).1.ended.isSome = true := by
    rw [end_eq he]
    rfl
  show (s.tick now).1.status = _ ∨ (s.tick now).1.ended.isSome = true
  cases he : s.ended with
  | some r => exact .inr (by simp [tick, he])
  | none =>
    by_cases hp : s.profileDeadline.any (now ≥ ·) = true
    · refine .inr ?_
      simp only [tick, he, hp, Option.isSome_none, Bool.false_eq_true, if_false, if_true]
      exact hend he _
    · by_cases hs : s.status = .established
      · obtain ⟨_, _, _, -, ht⟩ := ticked_eq s now
        refine .inl ?_
        simp only [tick, he, hp, hs, Option.isSome_none, Bool.false_eq_true, if_false, ne_eq,
          not_true_eq_false, decide_false, Bool.false_and, ht]
        exact hs
      · refine .inr ?_
        simp only [tick, he, hp, hs, Option.isSome_none, Bool.false_eq_true, if_false, ne_eq,
          not_false_eq_true, decide_true, Bool.true_and, ge_iff_le, h, if_true]
        exact hend he _

theorem new_deadline {role : CallRole} {config : SessionConfig} {now : UInt64} {s : Session}
    (h : new role config now = .ok s) :
    s.deadline = saturatingAdd now SETUP_MS ∧ extensions s = 2 := by
  obtain ⟨-, rfl⟩ := new_eq h
  refine ⟨by dsimp only, ?_⟩
  cases role <;> simp [extensions, firstStatus]

/-- **A peer cannot postpone the timeouts**, whatever it sends in a run of a session from its
construction at `t₀`: the setup deadline changes at most twice, the profile deadline is set at
most once and the answer offer is retransmitted at most three times. If the deadline is only ever
changed before it has passed, it stays within 130000 ms of the construction. A tick at or after
the deadline leaves the session established or ended. -/
theorem deadlines_bounded {role : CallRole} {config : SessionConfig} {t₀ : UInt64}
    {s₀ : Session} (h : new role config t₀ = .ok s₀) (ops : List Op) :
    let s := Machine.run step s₀ ops
    Machine.occurrences step changesDeadline s₀ ops ≤ 2 ∧
    Machine.occurrences step setsProfileDeadline s₀ ops ≤ 1 ∧
    Machine.occurrences step retransmitsOffer s₀ ops ≤ 3 ∧
    (Machine.Admits InTime (fun s op => (s.step op).1) s₀ ops →
      s.deadline ≤ saturatingAdd t₀ 130000) ∧
    ∀ now, s.deadline ≤ now →
      (s.step (.tick now)).1.status = .established ∨
        (s.step (.tick now)).1.ended.isSome = true := by
  obtain ⟨hd, hx⟩ := new_deadline h
  refine ⟨hx ▸ changesDeadline_le s₀ ops, setsProfileDeadline_le s₀ ops,
    retransmitsOffer_le s₀ ops, fun hin => ?_, fun now => tick_due⟩
  have h0 : Timely t₀ s₀ := by
    unfold Timely
    rw [hd, hx]
    exact UInt64.le_refl _
  have ht : Timely t₀ (Machine.run step s₀ ops) := by
    rw [Machine.run_eq_foldl]
    exact hin.invariant (fun s op hi => timely_step hi) h0
  rw [← reach_zero]
  exact UInt64.le_trans ht (saturatingAdd_le_of_le t₀ (reach_anti (Nat.zero_le _)))

/-- Two extensions, each in the last millisecond: the deadline is reached, and not passed. -/
theorem deadlines_bounded_incoming : ∃ s₀,
    new .incoming ⟨.CODEC2, .bandwidthLow, true, true⟩ 0 = .ok s₀ ∧
    let ops : List Op := [.linkEstablished, .peerVerified 29999, .answer 119998]
    (Machine.run step s₀ ops).deadline = 129998 ∧
      (Machine.run step s₀ ops).deadline ≤ saturatingAdd 0 130000 := by
  have h : new .incoming ⟨.CODEC2, .bandwidthLow, true, true⟩ 0 = .ok _ := rfl
  exact ⟨_, h, by decide +kernel, (deadlines_bounded h _).2.2.2.1 (by decide +kernel)⟩

end Session

end Lxst.Embedded
