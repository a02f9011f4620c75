import RsLxst.Core.Handshake

/-!
# The answer handshake over unreliable channels

`Handshake.Inv` ties the two states to every signal in flight: an offer (`connecting`,
`established`) is in flight to the caller only once the callee has answered, and an echo to the
callee only once the caller has seen an offer. It is kept by every step (`inv_step`), so it holds
whatever is lost, duplicated, reordered or retried. From it `handshake_agreement`: no status ever
decreases, neither side is ahead of what the other has done, and one retried offer delivered with
its replies completes the call.
-/

set_option autoImplicit false

namespace Lxst.Handshake

open CallState

/-- What may be in flight to the caller: the setup signals, and an offer once it is `answered`. -/
def ToCallerOk (answered : Bool) (m : Signal) : Prop :=
  m = .status .available ∨ m = .status .ringing ∨
    answered = true ∧ (m = .status .connecting ∨ m = .status .established)

/-- What may be in flight to the callee: profiles, and an echo once the caller is `InCall`. -/
def ToCalleeOk (caller : CallState) (m : Signal) : Prop :=
  (∃ p, m = .preferredProfile p) ∨ m = .status .established ∧ caller.InCall

structure Inv (h : Handshake) : Prop where
  callerRole : h.caller.role = .outgoing
  calleeRole : h.callee.role = .incoming
  calleeStage : h.callee.answered = false ∧ h.callee.status = .ringing ∨
    h.callee.answered = true ∧ h.callee.InCall
  offered : h.caller.InCall → h.callee.answered = true
  echoed : h.callee.status = .established → h.caller.InCall
  toCaller : ∀ m ∈ h.toCaller, ToCallerOk h.callee.answered m
  toCallee : ∀ m ∈ h.toCallee, ToCalleeOk h.caller m

theorem inv_start (p : Option Profile) : Inv (start p) := by
  refine ⟨rfl, rfl, .inl ⟨rfl, rfl⟩, fun h => ?_, fun h => ?_, fun m hm => ?_, nofun⟩
  · exact absurd h (by simp [start, InCall, CallState.outgoing]; decide)
  · simp [start, callerIdentified_admitted] at h
  · have : m = .status .available ∨ m = .status .ringing := by
      simpa [start, callerIdentified_admitted, CallState.incomingLinkEstablished, signalsOf]
        using hm
    rcases this with rfl | rfl
    · exact .inl rfl
    · exact .inr (.inl rfl)

theorem ToCalleeOk.receive {c : CallState} {m : Signal} (h : ToCalleeOk c m) (s : Signal) :
    ToCalleeOk (c.receiveSignal s).1 m := by
  rcases h with h | ⟨h, hc⟩
  · exact .inl h
  · exact .inr ⟨h, hc.receiveSignal s⟩

/-- Everything a caller sends in return is a profile, or an echo sent while `InCall`. -/
theorem toCalleeOk_reply {c : CallState} (hr : c.role = .outgoing) (s : Signal) :
    ∀ m ∈ signalsOf (c.receiveSignal s).2, ToCalleeOk (c.receiveSignal s).1 m := by
  intro m hm
  rw [receiveSignal_signals_outgoing hr] at hm
  split at hm
  · split at hm
    · cases hm
    · exact .inl ⟨_, by simpa using hm⟩
  · exact .inr ⟨by simpa using hm, receiveSignal_connecting_inCall hr⟩
  · cases hm

theorem inv_answer {h : Handshake} (hi : Inv h) : Inv h.answer := by
  obtain ⟨hcr, hce, hst, hof, hec, hcl, hcc⟩ := hi
  rcases hst with ⟨ha, hs⟩ | hst
  · have he := answer_ringing hce hs
    refine ⟨hcr, ?_, .inr ⟨?_, ?_⟩, fun _ => ?_, fun hc => ?_, fun m hm => ?_, hcc⟩
    · simp [answer, he, hce]
    · simp [answer, he]
    · simp [answer, he, InCall]
    · simp [answer, he]
    · simp [answer, he] at hc
    · have hm' : m ∈ h.toCaller ∨ m = .status .connecting ∨ m = .status .established := by
        simpa [answer, he, signalsOf] using hm
      have ha' : h.answer.callee.answered = true := by simp [answer, he]
      rcases hm' with hm' | hm'
      · rcases hcl m hm' with hk | hk | ⟨hk, -⟩
        · exact .inl hk
        · exact .inr (.inl hk)
        · rw [ha] at hk; cases hk
      · exact .inr (.inr ⟨ha', hm'⟩)
  · have hn : h.callee.status ≠ .ringing := fun hs => by
      have := hst.2
      unfold InCall at this
      rw [hs] at this
      exact absurd this (by decide)
    have he : h.answer = h := by simp [answer, answer_other (.inr hn)]
    rw [he]
    exact ⟨hcr, hce, .inr hst, hof, hec, hcl, hcc⟩

theorem inv_retryAnswer {h : Handshake} (hi : Inv h) : Inv h.retryAnswer := by
  obtain ⟨hcr, hce, hst, hof, hec, hcl, hcc⟩ := hi
  refine ⟨hcr, hce, hst, hof, hec, fun m hm => ?_, hcc⟩
  simp only [retryAnswer, List.mem_append] at hm
  rcases hm with hm | hm
  · exact hcl m hm
  · by_cases hoffer : h.callee.answered = true ∧ h.callee.status = .connecting
    · rw [retryAnswer_offer hce hoffer.1 hoffer.2] at hm
      exact .inr (.inr ⟨hoffer.1, by simpa [signalsOf] using hm⟩)
    · rw [retryAnswer_other (.inr (by grind))] at hm
      cases hm

theorem inv_callerReceives {h : Handshake} (hi : Inv h) {m : Signal} {rest : List Signal}
    (hm : h.toCaller = m :: rest) : Inv (h.callerReceives m rest) := by
  obtain ⟨hcr, hce, hst, hof, hec, hcl, hcc⟩ := hi
  have hok : ToCallerOk h.callee.answered m := hcl m (by simp [hm])
  refine ⟨by simpa [callerReceives] using hcr, hce, hst, fun hc => ?_, fun hs => ?_,
    fun x hx => hcl x (by simp_all [callerReceives]), fun x hx => ?_⟩
  · -- the caller passes the answer only by an offer
    by_cases hin : h.caller.InCall
    · exact hof hin
    rcases hok with rfl | rfl | ⟨ha, -⟩
    · rcases receiveSignal_status h.caller (.status .available) with he | ⟨st, h1, -, h2, -⟩
      · exact absurd (by simpa [callerReceives, InCall, he] using hc) hin
      · cases h1
        exact absurd hc (by simp [callerReceives, InCall, h2]; decide)
    · rcases receiveSignal_status h.caller (.status .ringing) with he | ⟨st, h1, -, h2, -⟩
      · exact absurd (by simpa [callerReceives, InCall, he] using hc) hin
      · cases h1
        exact absurd hc (by simp [callerReceives, InCall, h2]; decide)
    · exact ha
  · exact (hec hs).receiveSignal m
  · simp only [callerReceives, List.mem_append] at hx
    rcases hx with hx | hx
    · exact (hcc x hx).receive m
    · exact toCalleeOk_reply hcr m x hx

theorem inv_calleeReceives {h : Handshake} (hi : Inv h) {m : Signal} {rest : List Signal}
    (hm : h.toCallee = m :: rest) : Inv (h.calleeReceives m rest) := by
  obtain ⟨hcr, hce, hst, hof, hec, hcl, hcc⟩ := hi
  have hok : ToCalleeOk h.caller m := hcc m (by simp [hm])
  have hans : h.callee.answered = true → h.callee.InCall := fun ha => by
    rcases hst with ⟨hn, -⟩ | ⟨-, hc⟩
    · rw [ha] at hn; cases hn
    · exact hc
  refine ⟨hcr, by simpa [calleeReceives] using hce, ?_, fun hc => ?_, fun hs => ?_,
    fun x hx => ?_, fun x hx => hcc x (by simp_all [calleeReceives])⟩
  · rcases hst with ⟨ha, hs⟩ | ⟨ha, hc⟩
    · refine .inl ⟨by simpa [calleeReceives] using ha, ?_⟩
      rcases receiveSignal_status h.callee m with he | ⟨st, -, hl, -, -⟩
      · simpa [calleeReceives, he] using hs
      · rw [hl hce] at ha; cases ha
    · exact .inr ⟨by simpa [calleeReceives] using ha, hc.receiveSignal m⟩
  · simpa [calleeReceives] using hof hc
  · -- only the caller's echo establishes the callee
    rcases hok with ⟨p, rfl⟩ | ⟨-, hc⟩
    · rcases receiveSignal_status h.callee (.preferredProfile p) with he | ⟨st, h1, -, -, -⟩
      · exact hec (by rw [← he]; exact hs)
      · cases h1
    · exact hc
  · simp only [calleeReceives, receiveSignal_signals_incoming hce hans, List.append_nil] at hx
    simpa [calleeReceives] using hcl x hx

theorem inv_step {h h' : Handshake} (hi : Inv h) (hs : Step h h') : Inv h' := by
  cases hs with
  | answer => exact inv_answer hi
  | retryAnswer => exact inv_retryAnswer hi
  | deliverToCaller hm => exact inv_callerReceives hi hm
  | deliverToCallee hm => exact inv_calleeReceives hi hm
  | faultToCaller hf =>
    obtain ⟨h1, h2, h3, h4, h5, h6, h7⟩ := hi
    exact ⟨h1, h2, h3, h4, h5, hf.forall h6, h7⟩
  | faultToCallee hf =>
    obtain ⟨h1, h2, h3, h4, h5, h6, h7⟩ := hi
    exact ⟨h1, h2, h3, h4, h5, h6, hf.forall h7⟩

theorem inv_reachable {p : Option Profile} {h : Handshake} (hr : Reachable p h) : Inv h :=
  by
  refine hr.invariant (fun s h0 => ?_) fun (_ _ : Handshake) hi hs => inv_step hi hs
  subst h0
  exact inv_start p

/-! ## No status ever decreases -/

theorem step_rank_caller {h h' : Handshake} (hs : Step h h') :
    h.caller.status.rank ≤ h'.caller.status.rank := by
  cases hs with
  | deliverToCaller _ => exact receiveSignal_rank _ _
  | _ => exact Nat.le_refl _

theorem step_rank_callee {h h' : Handshake} (hi : Inv h) (hs : Step h h') :
    h.callee.status.rank ≤ h'.callee.status.rank := by
  cases hs with
  | answer =>
    by_cases hc : h.callee.status = .ringing
    · simp only [answer, answer_ringing hi.calleeRole hc, hc]
      decide
    · simp only [answer, answer_other (.inr hc), Nat.le_refl]
  | deliverToCallee _ => exact receiveSignal_rank _ _
  | _ => exact Nat.le_refl _

/-! ## Recovery by one retried offer -/

/-- One retried offer leaves the caller established and makes it echo `established`. -/
theorem receiveAll_offer {c : CallState} (hr : c.role = .outgoing) :
    (c.receiveAll [.status .connecting, .status .established]).1.status = .established ∧
      (c.receiveAll [.status .connecting, .status .established]).2 = [.status .established] := by
  have hr' : (c.receiveSignal (.status .connecting)).1.role = .outgoing := by simpa using hr
  refine ⟨?_, ?_⟩
  · exact receiveSignal_established_status (Listens.of_outgoing hr')
  · simp [receiveAll, receiveSignal_signals_outgoing hr, receiveSignal_signals_outgoing hr']

/-- **The answer handshake.** In every reachable state: no later state has an earlier status on
either side; an established callee has a caller that saw its offer; a caller past the answer has
a callee that answered; and while the callee waits for the echo, one retried offer delivered in
order, and then the caller's replies, establish both sides. -/
theorem handshake_agreement {p : Option Profile} {h : Handshake} (hr : Reachable p h) :
    (∀ h', Relation.ReflTransGen Step h h' →
      h.caller.status.rank ≤ h'.caller.status.rank ∧
      h.callee.status.rank ≤ h'.callee.status.rank) ∧
    (h.callee.status = .established →
      h.caller.status = .connecting ∨ h.caller.status = .established) ∧
    (h.caller.status = .connecting ∨ h.caller.status = .established →
      h.callee.answered = true) ∧
    (h.callee.answered = true → h.callee.status = .connecting →
      let caller := h.caller.receiveAll (signalsOf h.callee.retryAnswer)
      let callee := h.callee.receiveAll caller.2
      caller.1.status = .established ∧ callee.1.status = .established) := by
  have hi := inv_reachable hr
  refine ⟨fun h' hs => ⟨?_, ?_⟩, fun he => inCall_iff.1 (hi.echoed he),
    fun hc => hi.offered (inCall_iff.2 hc), fun ha hc => ?_⟩
  · exact Machine.mono_of_step (fun k : Handshake => k.caller.status.rank)
      (fun (_ _ : Handshake) ha hab => inv_step ha hab)
      (fun (_ _ : Handshake) _ hab => step_rank_caller hab) hi hs
  · exact Machine.mono_of_step (fun k : Handshake => k.callee.status.rank)
      (fun (_ _ : Handshake) ha hab => inv_step ha hab)
      (fun (_ _ : Handshake) ha hab => step_rank_callee ha hab) hi hs
  · rw [retryAnswer_offer hi.calleeRole ha hc]
    obtain ⟨h1, h2⟩ := receiveAll_offer hi.callerRole
    refine ⟨h1, ?_⟩
    simp only [signalsOf_sendSignal, signalsOf_nil, h2]
    exact receiveSignal_established_status fun _ => ha

/-- Answered with both halves of the offer still in flight: a retry establishes both sides. -/
theorem handshake_agreement_answered :
    let h := (start none).answer
    let caller := h.caller.receiveAll (signalsOf h.callee.retryAnswer)
    let callee := h.callee.receiveAll caller.2
    caller.1.status = .established ∧ callee.1.status = .established :=
  have hr : Reachable none (start none).answer :=
    Machine.Reachable.step (Machine.Reachable.init rfl) (Step.answer _)
  (handshake_agreement hr).2.2.2 (by decide) (by decide)

end Lxst.Handshake
