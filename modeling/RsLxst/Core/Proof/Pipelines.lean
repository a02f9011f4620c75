import RsLxst.Core.Proof.CallState
import RsLxst.Lib.EventOrder
import RsLxst.Lib.Machine

/-!
# Audio pipelines open before they start

The pipelines among the actions of a run. An incoming call opens them with its answer and starts
them with the caller's echo of `established` (`Rung`). An outgoing call opens them with the first
`connecting` it receives and starts them with the first `established` (`Dialed`), so they are in
order exactly when no `established` arrives before `connecting`: `pipelines_in_order_iff`.
-/

set_option autoImplicit false

namespace Lxst.CallState

open EventOrder

/-- Opened at most once, started at most once, and opened before they are started. -/
def PipelinesInOrder (actions : Actions) : Prop :=
  actions.count .openAudioPipelines ≤ 1 ∧ actions.count .startAudioPipelines ≤ 1 ∧
    Precedes .openAudioPipelines .startAudioPipelines actions

instance (actions : Actions) : Decidable (PipelinesInOrder actions) :=
  inferInstanceAs (Decidable (_ ∧ _ ∧ _))

/-- How a call is set up, with the actions of its admission: dialed, or let in. -/
inductive Started : CallState → Actions → Prop
  | outgoing (p : Option Profile) : Started (outgoing p) []
  | incoming : Started (incoming.callerIdentified false true).1
      (incoming.callerIdentified false true).2

/-- `connecting` was received before every `established`. -/
def ConnectingFirst (ops : List Op) : Prop :=
  Precedes (.receiveSignal (.status .connecting)) (.receiveSignal (.status .established)) ops

instance (ops : List Op) : Decidable (ConnectingFirst ops) :=
  inferInstanceAs (Decidable (Precedes _ _ ops))

/-! ## Actions without pipelines -/

/-- No pipeline is opened or started. -/
def Quiet (actions : Actions) : Prop :=
  .openAudioPipelines ∉ actions ∧ .startAudioPipelines ∉ actions

theorem quiet_nil : Quiet [] := ⟨by simp, by simp⟩

theorem Quiet.count_open {as bs : Actions} (h : Quiet bs) :
    (as ++ bs).count .openAudioPipelines = as.count .openAudioPipelines := by
  rw [List.count_append, List.count_eq_zero_of_not_mem h.1, Nat.add_zero]

theorem Quiet.count_start {as bs : Actions} (h : Quiet bs) :
    (as ++ bs).count .startAudioPipelines = as.count .startAudioPipelines := by
  rw [List.count_append, List.count_eq_zero_of_not_mem h.2, Nat.add_zero]

theorem Quiet.mem_open {as bs : Actions} (h : Quiet bs) :
    .openAudioPipelines ∈ as ++ bs ↔ .openAudioPipelines ∈ as := by
  rw [List.mem_append]
  exact ⟨fun hm => hm.resolve_right h.1, .inl⟩

theorem Quiet.mem_start {as bs : Actions} (h : Quiet bs) :
    .startAudioPipelines ∈ as ++ bs ↔ .startAudioPipelines ∈ as := by
  rw [List.mem_append]
  exact ⟨fun hm => hm.resolve_right h.2, .inl⟩

theorem Quiet.precedes {as bs : Actions} (h : Quiet bs) :
    Precedes .openAudioPipelines .startAudioPipelines (as ++ bs) ↔
      Precedes .openAudioPipelines .startAudioPipelines as := by
  rw [precedes_append]
  exact ⟨And.left, fun ha => ⟨ha, .inr (precedes_of_notMem h.2)⟩⟩

/-- Only `connecting` and `established` touch the pipelines or the later half of a call. -/
theorem receiveSignal_quiet (c : CallState) {s : Signal} (h1 : s ≠ .status .connecting)
    (h2 : s ≠ .status .established) :
    Quiet (c.receiveSignal s).2 ∧
      ((c.receiveSignal s).1.status = c.status ∨
        c.Listens ∧ ¬ c.InCall ∧ ¬ (c.receiveSignal s).1.InCall) := by
  have early {st : SignallingStatus} (hlt : ¬ st.rank ≤ c.status.rank)
      (hst : st.rank < SignallingStatus.connecting.rank) : ¬ c.InCall := by
    unfold InCall
    omega
  unfold Quiet
  rcases s with st | p | v
  · rcases Listens.or_unanswered c with h | ⟨hr, ha⟩
    · cases st with
      | busy => simp [receiveSignal_busy h]
      | rejected => simp [receiveSignal_rejected h]
      | calling => simp [receiveSignal_calling h]
      | available =>
        rw [receiveSignal_available h]
        split
        · simp
        · rename_i hlt
          exact ⟨by simp, .inr ⟨h, early hlt (by decide), by simp only [InCall]; decide⟩⟩
      | ringing =>
        rw [receiveSignal_ringing h]
        split
        · simp
        · rename_i hlt
          exact ⟨by simp, .inr ⟨h, early hlt (by decide), by simp only [InCall]; decide⟩⟩
      | connecting => exact absurd rfl h1
      | established => exact absurd rfl h2
    · simp [receiveSignal_unanswered hr ha]
  · rw [receiveSignal_preferredProfile]
    split
    · simp
    · dsimp only
      split <;> simp
  · simp [receiveSignal_raw]

theorem switchProfile_quiet (c : CallState) (p : Profile) : Quiet (c.switchProfile p).2 := by
  unfold switchProfile Quiet
  split
  · simp
  · dsimp only
    split <;> simp

theorem retryAnswer_quiet (c : CallState) : Quiet c.retryAnswer := by
  unfold retryAnswer Quiet
  split <;> simp

/-! ## An outgoing call -/

/-- What an outgoing call has done in a run over `ops`. -/
structure Dialed (ops : List Op) (c : CallState) (as : Actions) : Prop where
  role : c.role = .outgoing
  opened : as.count .openAudioPipelines ≤ 1
  started : as.count .startAudioPipelines ≤ 1
  openedIn : .openAudioPipelines ∈ as → c.InCall
  startedIn : .startAudioPipelines ∈ as → c.status = .established
  dialing : ¬ c.InCall → .receiveSignal (.status .connecting) ∉ ops
  connecting : c.status = .connecting →
    .openAudioPipelines ∈ as ∧ .receiveSignal (.status .connecting) ∈ ops
  established : c.status = .established → .receiveSignal (.status .established) ∈ ops
  order : Precedes .openAudioPipelines .startAudioPipelines as ↔ ConnectingFirst ops

/-- An operation that is neither `connecting` nor `established` and touches no pipeline. -/
theorem Dialed.quiet {ops : List Op} {c c' : CallState} {as bs : Actions} {op : Op}
    (h : Dialed ops c as) (hq : Quiet bs) (hr : c'.role = c.role)
    (hst : c'.status = c.status ∨ ¬ c.InCall ∧ ¬ c'.InCall)
    (h1 : op ≠ .receiveSignal (.status .connecting))
    (h2 : op ≠ .receiveSignal (.status .established)) : Dialed (ops ++ [op]) c' (as ++ bs) := by
  have hin : c'.InCall ↔ c.InCall := by
    rcases hst with he | ⟨ho, hn⟩
    · unfold InCall; rw [he]
    · exact ⟨fun h => absurd h hn, fun h => absurd h ho⟩
  have hst' (st : SignallingStatus) (hle : SignallingStatus.connecting.rank ≤ st.rank) :
      c'.status = st ↔ c.status = st := by
    rcases hst with he | ⟨ho, hn⟩
    · rw [he]
    · refine ⟨fun he => absurd ?_ hn, fun he => absurd ?_ ho⟩ <;> unfold InCall <;> rw [he] <;>
        exact hle
  refine ⟨hr.trans h.role, ?_, ?_, fun hm => ?_, fun hm => ?_, fun hn => ?_, fun he => ?_,
    fun he => ?_, ?_⟩
  · rw [hq.count_open]; exact h.opened
  · rw [hq.count_start]; exact h.started
  · exact hin.2 (h.openedIn (hq.mem_open.1 hm))
  · exact (hst' _ (by decide)).2 (h.startedIn (hq.mem_start.1 hm))
  · have := h.dialing fun hc => hn (hin.2 hc)
    simp [this, Ne.symm h1]
  · obtain ⟨ho, hc⟩ := h.connecting ((hst' _ (by decide)).1 he)
    exact ⟨hq.mem_open.2 ho, by simp [hc]⟩
  · have := h.established ((hst' _ (by decide)).1 he)
    simp [this]
  · rw [hq.precedes, ConnectingFirst, precedes_concat, h.order, ConnectingFirst]
    simp [h2]

/-- `connecting` received by an outgoing call opens the pipelines, once. -/
theorem Dialed.receiveConnecting {ops : List Op} {c : CallState} {as : Actions}
    (h : Dialed ops c as) :
    Dialed (ops ++ [.receiveSignal (.status .connecting)]) (c.receiveSignal (.status .connecting)).1
      (as ++ (c.receiveSignal (.status .connecting)).2) := by
  have hord : ConnectingFirst (ops ++ [.receiveSignal (.status .connecting)]) ↔
      ConnectingFirst ops := by
    rw [ConnectingFirst, precedes_concat, ConnectingFirst]
    simp
  rw [receiveSignal_connecting_outgoing h.role]
  split
  · rename_i hc
    have hq : Quiet [.sendSignal (.status .established)] := ⟨by simp, by simp⟩
    refine ⟨h.role, ?_, ?_, fun _ => hc, fun hm => ?_, fun hn => absurd hc hn, fun he => ?_,
      fun he => ?_, ?_⟩
    · rw [hq.count_open]; exact h.opened
    · rw [hq.count_start]; exact h.started
    · exact h.startedIn (hq.mem_start.1 hm)
    · exact ⟨hq.mem_open.2 (h.connecting he).1, by simp⟩
    · simp [h.established he]
    · rw [hq.precedes, h.order, hord]
  · rename_i hc
    have hno : .openAudioPipelines ∉ as := fun hm => hc (h.openedIn hm)
    have hns : .startAudioPipelines ∉ as := by
      intro hm
      apply hc
      rw [h.startedIn hm]
      decide
    refine ⟨h.role, ?_, ?_, fun _ => Nat.le_refl _, fun hm => ?_, fun hn => ?_, fun _ => ?_,
      fun he => ?_, ?_⟩
    · simp [List.count_eq_zero_of_not_mem hno]
    · simp [List.count_eq_zero_of_not_mem hns]
    · simp [hns] at hm
    · exact absurd (Nat.le_refl _) hn
    · simp
    · cases he
    · rw [hord, ← h.order, precedes_append]
      refine ⟨And.left, fun ho => ⟨ho, .inr (precedes_of_notMem ?_)⟩⟩
      simp

/-- `established` received by an outgoing call starts the pipelines, once. -/
theorem Dialed.receiveEstablished {ops : List Op} {c : CallState} {as : Actions}
    (h : Dialed ops c as) :
    Dialed (ops ++ [.receiveSignal (.status .established)])
      (c.receiveSignal (.status .established)).1
      (as ++ (c.receiveSignal (.status .established)).2) := by
  rw [receiveSignal_established (.of_outgoing h.role)]
  split
  · rename_i he
    have hc : c.InCall := inCall_iff.2 (.inr he)
    have hq : Quiet [.ignoreSignal (.status .established)] := ⟨by simp, by simp⟩
    refine ⟨h.role, ?_, ?_, fun _ => hc, fun _ => he, fun hn => absurd hc hn, fun he' => ?_,
      fun _ => by simp, ?_⟩
    · rw [hq.count_open]; exact h.opened
    · rw [hq.count_start]; exact h.started
    · rw [he] at he'; cases he'
    · rw [hq.precedes, h.order, ConnectingFirst, ConnectingFirst, precedes_concat]
      refine ⟨fun ho => ⟨ho, fun _ => ?_⟩, And.left⟩
      -- the earlier `established` already has a `connecting` before it
      obtain ⟨before, after, hops⟩ := List.append_of_mem (h.established he)
      have := ho before after hops
      rw [hops]
      exact List.mem_append_left _ this
  · rename_i he
    have hns : .startAudioPipelines ∉ as := fun hm => he (h.startedIn hm)
    have hmem : .openAudioPipelines ∈ as ↔ .receiveSignal (.status .connecting) ∈ ops := by
      by_cases hc : c.InCall
      · have := h.connecting ((inCall_iff.1 hc).resolve_right he)
        exact ⟨fun _ => this.2, fun _ => this.1⟩
      · exact ⟨fun hm => absurd (h.openedIn hm) hc, fun hm => absurd hm (h.dialing hc)⟩
    have hin : ({ c with status := .established } : CallState).InCall := inCall_iff.2 (.inr rfl)
    refine ⟨h.role, ?_, ?_, fun _ => hin, fun _ => rfl, fun hn => absurd hin hn,
      fun he' => (by cases he'), fun _ => by simp, ?_⟩
    · simpa using h.opened
    · simp [List.count_eq_zero_of_not_mem hns]
    · rw [precedes_concat, ConnectingFirst, precedes_concat, h.order, hmem, ConnectingFirst]
      simp

theorem dialed_step {ops : List Op} {c : CallState} {as : Actions} (h : Dialed ops c as) (op : Op) :
    Dialed (ops ++ [op]) (c.step op).1 (as ++ (c.step op).2) := by
  cases op with
  | receiveSignal s =>
    by_cases h1 : s = .status .connecting
    · rw [h1]; exact h.receiveConnecting
    · by_cases h2 : s = .status .established
      · rw [h2]; exact h.receiveEstablished
      · obtain ⟨hq, hst⟩ := c.receiveSignal_quiet h1 h2
        refine h.quiet hq (receiveSignal_role _ _) ?_ (by simpa using h1) (by simpa using h2)
        rcases hst with hst | ⟨-, hst⟩
        · exact .inl hst
        · exact .inr hst
  | answer =>
    have ha : c.step .answer = (c, []) := answer_other (.inl (by rw [h.role]; nofun))
    rw [ha]
    exact h.quiet quiet_nil rfl (.inl rfl) nofun nofun
  | retryAnswer => exact h.quiet c.retryAnswer_quiet rfl (.inl rfl) nofun nofun
  | switchProfile p =>
    exact h.quiet (c.switchProfile_quiet p) (switchProfile_role _ _)
      (.inl (switchProfile_status _ _)) nofun nofun

theorem run_dialed (p : Option Profile) (ops : List Op) :
    Dialed ops (Machine.run step (outgoing p) ops) (Machine.output step (outgoing p) ops) := by
  refine Machine.run_history step Dialed ?_ (fun _ _ _ op h => dialed_step h op) ops
  exact ⟨rfl, by simp, by simp, by simp, by simp, by simp, nofun, nofun, by simp [ConnectingFirst]⟩

/-! ## An incoming call -/

/-- What an incoming call has done since it was let in. -/
structure Rung (c : CallState) (as : Actions) : Prop where
  role : c.role = .incoming
  ringing : c.answered = false → c.status = .ringing ∧ Quiet as
  inCall : c.answered = true → c.InCall ∧ as.count .openAudioPipelines = 1
  waiting : c.status = .connecting → .startAudioPipelines ∉ as
  started : as.count .startAudioPipelines ≤ 1
  order : Precedes .openAudioPipelines .startAudioPipelines as

theorem Rung.quiet {c c' : CallState} {as bs : Actions} (h : Rung c as) (hq : Quiet bs)
    (hr : c'.role = c.role) (ha : c'.answered = c.answered) (hst : c'.status = c.status) :
    Rung c' (as ++ bs) := by
  refine ⟨hr.trans h.role, fun hn => ?_, fun hn => ?_, fun he => ?_, ?_, ?_⟩
  · obtain ⟨hs, hq'⟩ := h.ringing (ha ▸ hn)
    refine ⟨hst.trans hs, fun hm => hq'.1 (hq.mem_open.1 hm), fun hm => hq'.2 (hq.mem_start.1 hm)⟩
  · obtain ⟨hc, ho⟩ := h.inCall (ha ▸ hn)
    refine ⟨?_, by rw [hq.count_open, ho]⟩
    unfold InCall
    rw [hst]
    exact hc
  · rw [hq.mem_start]
    exact h.waiting (hst ▸ he)
  · rw [hq.count_start]; exact h.started
  · exact hq.precedes.2 h.order

/-- The answer opens the pipelines. -/
theorem Rung.answer {c : CallState} {as : Actions} (h : Rung c as) :
    Rung c.answer.1 (as ++ c.answer.2) := by
  by_cases hs : c.status = .ringing
  · have ha : c.answered = false := by
      cases ha : c.answered with
      | false => rfl
      | true =>
        have hc := (h.inCall ha).1
        unfold InCall at hc
        rw [hs] at hc
        exact absurd hc (by decide)
    obtain ⟨-, hq⟩ := h.ringing ha
    have ho := List.count_eq_zero_of_not_mem hq.1
    have hst := List.count_eq_zero_of_not_mem hq.2
    rw [answer_ringing h.role hs]
    refine ⟨h.role, nofun, fun _ => ⟨Nat.le_refl _, by simp [ho]⟩, fun _ => ?_, by simp [hst], ?_⟩
    · simp [hq.2]
    · refine precedes_of_notMem ?_
      simp [hq.2]
  · rw [answer_other (.inr hs)]
    exact h.quiet quiet_nil rfl rfl rfl

/-- A received signal: only the echo of `established` to an answered call starts the pipelines. -/
theorem Rung.receiveSignal {c : CallState} {as : Actions} (h : Rung c as) (s : Signal) :
    Rung (c.receiveSignal s).1 (as ++ (c.receiveSignal s).2) := by
  have keep (hq : Quiet (c.receiveSignal s).2) (hst : (c.receiveSignal s).1.status = c.status) :
      Rung (c.receiveSignal s).1 (as ++ (c.receiveSignal s).2) :=
    h.quiet hq (receiveSignal_role _ _) (receiveSignal_answered _ _) hst
  by_cases h1 : s = .status .connecting ∨ s = .status .established
  · cases ha : c.answered with
    | false =>
      have he : c.receiveSignal s = (c, [.ignoreSignal s]) := by
        rcases h1 with rfl | rfl <;> exact receiveSignal_unanswered h.role ha _
      rw [he] at keep ⊢
      exact keep ⟨by simp, by simp⟩ rfl
    | true =>
      have hl : c.Listens := fun _ => ha
      obtain ⟨hc, ho⟩ := h.inCall ha
      rcases h1 with rfl | rfl
      · have he : c.receiveSignal (.status .connecting) =
            (c, [.ignoreSignal (.status .connecting)]) := by
          rw [receiveSignal_connecting_incoming hl h.role]
          exact if_pos hc
        rw [he] at keep ⊢
        exact keep ⟨by simp, by simp⟩ rfl
      · by_cases he : c.status = .established
        · rw [receiveSignal_established hl, if_pos he] at keep ⊢
          exact keep ⟨by simp, by simp⟩ rfl
        · rw [receiveSignal_established hl, if_neg he]
          have hns := h.waiting ((inCall_iff.1 hc).resolve_right he)
          have hmem : .openAudioPipelines ∈ as := by
            rw [← List.count_pos_iff, ho]
            exact Nat.one_pos
          refine ⟨h.role, fun hn => ?_, fun _ => ⟨inCall_iff.2 (.inr rfl), by simpa using ho⟩,
            nofun, ?_, ?_⟩
          · rw [show c.answered = false from hn] at ha; cases ha
          · simp [List.count_eq_zero_of_not_mem hns]
          · exact (precedes_concat _ _).2 ⟨h.order, fun _ => hmem⟩
  · simp only [not_or] at h1
    obtain ⟨hq, hst⟩ := c.receiveSignal_quiet h1.1 h1.2
    refine keep hq (hst.resolve_right fun hn => ?_)
    -- a call that listens was answered, so it is past the stages before the answer
    exact hn.2.1 (h.inCall (hn.1 h.role)).1

theorem rung_step {c : CallState} {as : Actions} (h : Rung c as) (op : Op) :
    Rung (c.step op).1 (as ++ (c.step op).2) := by
  cases op with
  | receiveSignal s => exact h.receiveSignal s
  | answer => exact h.answer
  | retryAnswer => exact h.quiet c.retryAnswer_quiet rfl rfl rfl
  | switchProfile p =>
    exact h.quiet (c.switchProfile_quiet p) (switchProfile_role _ _) (switchProfile_answered _ _)
      (switchProfile_status _ _)

theorem run_rung (ops : List Op) :
    Rung (Machine.run step (incoming.callerIdentified false true).1 ops)
      ((incoming.callerIdentified false true).2 ++
        Machine.output step (incoming.callerIdentified false true).1 ops) := by
  refine Machine.run_history step
    (fun _ c as => Rung c ((incoming.callerIdentified false true).2 ++ as)) ?_
    (fun _ c as op h => ?_) ops
  · rw [callerIdentified_admitted]
    exact ⟨rfl, fun _ => ⟨rfl, by simp, by simp⟩, nofun, nofun, by decide, by decide⟩
  · rw [← List.append_assoc]
    exact rung_step h op

/-! ## Every run -/

/-- **Audio pipelines are opened once, started once, and opened before they are started**, in
every run of a call from its setup under any received signals, answers, retried answers and
profile switches, exactly when the call is incoming or receives no `established` before
`connecting`. -/
theorem pipelines_in_order_iff {c₀ : CallState} {setup : Actions} (h : Started c₀ setup)
    (ops : List Op) :
    PipelinesInOrder (setup ++ Machine.output step c₀ ops) ↔
      c₀.role = .incoming ∨ ConnectingFirst ops := by
  cases h with
  | outgoing p =>
    obtain ⟨-, ho, hs, -, -, -, -, -, hord⟩ := run_dialed p ops
    rw [List.nil_append]
    refine ⟨fun h => .inr (hord.1 h.2.2), fun h => ⟨ho, hs, hord.2 (h.resolve_left nofun)⟩⟩
  | incoming =>
    have h := run_rung ops
    refine ⟨fun _ => .inl (by rw [callerIdentified_admitted]; rfl), fun _ => ⟨?_, h.started, h.order⟩⟩
    cases ha : (Machine.run step (incoming.callerIdentified false true).1 ops).answered with
    | true => exact Nat.le_of_eq (h.inCall ha).2
    | false =>
      rw [List.count_eq_zero_of_not_mem (h.ringing ha).2.1]
      exact Nat.zero_le _

/-- Both halves of the answer arrive, in order and again. -/
theorem pipelines_in_order_repeated : PipelinesInOrder ([] ++ Machine.output step (outgoing none)
    [.receiveSignal (.status .connecting), .receiveSignal (.status .established),
      .receiveSignal (.status .connecting), .receiveSignal (.status .established)]) :=
  (pipelines_in_order_iff (.outgoing none) _).2 (.inr (by decide))

/-- The halves of the answer arrive in the other order: the pipelines are started and never
opened. -/
theorem overtaken_connecting_never_opens :
    let ops : List Op :=
      [.receiveSignal (.status .established), .receiveSignal (.status .connecting)]
    Started (outgoing none) [] ∧
      .startAudioPipelines ∈ Machine.output step (outgoing none) ops ∧
      .openAudioPipelines ∉ Machine.output step (outgoing none) ops ∧
      ¬ PipelinesInOrder ([] ++ Machine.output step (outgoing none) ops) :=
  ⟨.outgoing none, by decide, by decide, by decide⟩

end Lxst.CallState
