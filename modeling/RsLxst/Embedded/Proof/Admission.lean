import RsLxst.Embedded.Proof.Session

/-!
# Establishment needs authentication and acceptance

The history of a run behind an established session, in two phases. `verified_history` finds the
link establishment and the peer verification that took effect; until then nothing a peer sends is
heard and the call is as constructed (`Fresh`). From that moment `Accepted` (incoming: the
answer while ringing, then the echo of `established`) and `Staged` (outgoing: the stages received
in order) record what the operations since then must contain for the call to have got where it
is. Together: `established_admitted`.
-/

set_option autoImplicit false

namespace Lxst.Embedded.Session

/-- The statuses of the signals received, in order. -/
def heard (ops : List Op) : List SignallingStatus :=
  ops.filterMap fun
    | .receiveSignal (.status st) _ => some st
    | _ => none

theorem heard_concat (ops : List Op) (op : Op) : heard (ops ++ [op]) = heard ops ++ heard [op] :=
  List.filterMap_append

/-! ## Until the verification -/

theorem receiveSignal_unverified {s : Session} (h : s.verified = false) (m : Signal)
    (t : UInt64) : s.step (.receiveSignal m t) = (s, []) := by
  simp [step, receiveSignal, h]

theorem trans_linked {s s' : Session} {op : Op} {es : Events} (h : Trans s op s' es)
    (hl : s'.linked = true) : s.linked = true ∨ op = .linkEstablished := by
  cases h with
  | linked => exact .inr rfl
  | ended op r he => rw [end_eq he] at hl; exact .inl hl
  | ticked now =>
    obtain ⟨_, _, _, -, he⟩ := ticked_eq s now
    rw [he] at hl
    exact .inl hl
  | _ => exact .inl hl

theorem trans_verified {s s' : Session} {op : Op} {es : Events} (h : Trans s op s' es)
    (hv : s'.verified = true) :
    s.verified = true ∨ s.linked = true ∧ s.verified = false ∧ ∃ t, op = .peerVerified t := by
  cases h with
  | callerVerified t he hl hn hr => exact .inr ⟨hl, hn, t, rfl⟩
  | calleeVerified t he hl hn hr => exact .inr ⟨hl, hn, t, rfl⟩
  | ended op r he => rw [end_eq he] at hv; exact .inl hv
  | ticked now =>
    obtain ⟨_, _, _, -, he⟩ := ticked_eq s now
    rw [he] at hv
    exact .inl hv
  | _ => exact .inl hv

/-- A verified session has a link establishment and, after it, the verification in its history. -/
theorem verified_history {s₀ : Session} (hl : s₀.linked = false) (hv : s₀.verified = false)
    (ops : List Op) (h : (Machine.run step s₀ ops).verified = true) :
    ∃ a b t c, ops = a ++ .linkEstablished :: b ++ .peerVerified t :: c ∧
      (Machine.run step s₀ (a ++ .linkEstablished :: b)).verified = false ∧
      (Machine.run step s₀ (a ++ .linkEstablished :: b ++ [.peerVerified t])).verified = true := by
  suffices hs : ((Machine.run step s₀ ops).linked = true → ∃ a b, ops = a ++ .linkEstablished :: b) ∧
      ((Machine.run step s₀ ops).verified = true →
        ∃ a b t c, ops = a ++ .linkEstablished :: b ++ .peerVerified t :: c ∧
        (Machine.run step s₀ (a ++ .linkEstablished :: b)).verified = false ∧
        (Machine.run step s₀ (a ++ .linkEstablished :: b ++ [.peerVerified t])).verified = true)
    from hs.2 h
  clear h
  induction ops using List.reverseRecOn with
  | nil => exact ⟨fun h => by simp [hl] at h, fun h => by simp [hv] at h⟩
  | append_singleton is op ih =>
    have htr := step_trans (Machine.run step s₀ is) op
    rw [Machine.run_append, Machine.run_cons, Machine.run_nil]
    refine ⟨fun h => ?_, fun h => ?_⟩
    · rcases trans_linked htr h with h | rfl
      · obtain ⟨a, b, rfl⟩ := ih.1 h
        exact ⟨a, b ++ [op], by simp⟩
      · exact ⟨is, [], rfl⟩
    · rcases trans_verified htr h with hv | ⟨hl, hv, t, rfl⟩
      · obtain ⟨a, b, t, c, rfl, h1, h2⟩ := ih.2 hv
        exact ⟨a, b, t, c ++ [op], by simp, h1, h2⟩
      · obtain ⟨a, b, rfl⟩ := ih.1 hl
        refine ⟨a, b, t, [], by simp, hv, ?_⟩
        rw [Machine.run_append, Machine.run_cons, Machine.run_nil]
        exact h

/-- Before the verification the call is as constructed, unless the session has ended. -/
structure Fresh (r : CallRole) (s : Session) : Prop where
  role : s.call.role = r
  status : s.verified = false → s.ended = none → s.call.status = firstStatus r
  answered : s.verified = false → s.call.answered = false
  closed : s.verified = false → s.ended ≠ none → s.call.status = .available

theorem new_fresh {role : CallRole} {config : SessionConfig} {now : UInt64} {s : Session}
    (h : new role config now = .ok s) : Fresh role s ∧ s.linked = false ∧ s.verified = false := by
  obtain ⟨-, rfl⟩ := new_eq h
  exact ⟨⟨rfl, fun _ _ => rfl, fun _ => rfl, fun _ h => absurd rfl h⟩, rfl, rfl⟩

theorem answer_role (c : CallState) : c.answer.1.role = c.role := by
  by_cases hc : c.role = .incoming ∧ c.status = .ringing
  · rw [CallState.answer_ringing hc.1 hc.2]
  · rw [CallState.answer_other (by grind)]

theorem Fresh.of_verified {r : CallRole} {s : Session} (hr : s.call.role = r)
    (hv : s.verified = true) : Fresh r s := by
  refine ⟨hr, ?_, ?_, ?_⟩ <;> exact fun hf => by rw [hv] at hf; cases hf

theorem fresh_trans {role : CallRole} {s s' : Session} {op : Op} {es : Events}
    (hi : Fresh role s) (h : Trans s op s' es) : Fresh role s' := by
  obtain ⟨hr, hst, ha, hcl⟩ := hi
  cases h with
  | callerVerified t he hl hv hinc => exact .of_verified hr rfl
  | calleeVerified t he hl hv hout => exact .of_verified hr rfl
  | answered now he hv hinc hs => exact .of_verified ((answer_role _).trans hr) hv
  | adopted p now ho => exact .of_verified ((CallState.receiveSignal_role _ _).trans hr) ho.verified
  | staged st now ho => exact .of_verified ((CallState.receiveSignal_role _ _).trans hr) ho.verified
  | ended op r he =>
    rw [end_eq he]
    exact ⟨hr, fun _ h => (by cases h), fun _ => rfl, fun _ _ => rfl⟩
  | ticked now =>
    obtain ⟨_, _, _, -, he⟩ := ticked_eq s now
    rw [he]
    exact ⟨hr, hst, ha, hcl⟩
  | _ => exact ⟨hr, hst, ha, hcl⟩

theorem run_fresh {role : CallRole} {s : Session} (h : Fresh role s) (ops : List Op) :
    Fresh role (Machine.run step s ops) :=
  Machine.run_invariant step h (fun s op hi => fresh_trans hi (step_trans s op)) ops

/-- The stage in which a verified session starts. -/
def verifiedStatus : CallRole → SignallingStatus
  | .incoming => .ringing
  | .outgoing => .calling

/-- What the verification leaves behind. -/
theorem verified_start {role : CallRole} {s : Session} {t : UInt64} (hf : Fresh role s)
    (hv : s.verified = false) (hv' : (s.step (.peerVerified t)).1.verified = true) :
    let s₁ := (s.step (.peerVerified t)).1
    s₁.call.role = role ∧ s₁.ended = none ∧ s₁.call.answered = false ∧
      s₁.call.status = verifiedStatus role := by
  have h := step_trans s (.peerVerified t)
  revert h hv'
  generalize hs' : (s.step (.peerVerified t)).1 = s'
  generalize (s.step (.peerVerified t)).2 = es
  intro hv' h
  obtain ⟨rfl, hst, ha, -⟩ := hf
  cases h with
  | callerVerified _ he hl hn hr =>
    simp [CallState.callerIdentified_admitted, hr, he, ha hv, verifiedStatus]
  | calleeVerified _ he hl hn hr =>
    refine ⟨rfl, he, ha hv, ?_⟩
    rw [hst hv he, hr]
    rfl
  | idle => rw [hv] at hv'; cases hv'
  | ended _ r he => rw [end_eq he] at hv'; rw [show s.verified = true from hv'] at hv; cases hv

/-! ## Incoming: the answer and the caller's echo -/

/-- The operations `c` since the verification, of a callee that is now in state `s`. -/
structure Accepted (s₁ : Session) (c : List Op) (s : Session) : Prop where
  role : s.call.role = .incoming
  verified : s.verified = true
  waiting : s.ended = none → s.call.answered = false → s.call.status = .ringing
  closed : s.ended ≠ none → s.call.status = .available
  answered : s.call.answered = true →
    ∃ c₁ t c₂, c = c₁ ++ .answer t :: c₂ ∧ (Machine.run step s₁ c₁).status = .ringing
  established : s.call.status = .established →
    ∃ c₁ t c₂ t' c₃, c = c₁ ++ .answer t :: c₂ ++ .receiveSignal (.status .established) t' :: c₃ ∧
      (Machine.run step s₁ c₁).status = .ringing

/-- A step that keeps the call's status and acceptance keeps its history. -/
theorem Accepted.of_same {s₁ s s' : Session} {c : List Op} (h : Accepted s₁ c s) (op : Op)
    (hr : s'.call.role = s.call.role) (ha : s'.call.answered = s.call.answered)
    (hst : s'.call.status = s.call.status) (hv : s'.verified = s.verified)
    (he : s'.ended = s.ended) : Accepted s₁ (c ++ [op]) s' := by
  refine ⟨hr.trans h.role, hv.trans h.verified, ?_, ?_, fun ha' => ?_, fun hs' => ?_⟩
  · rw [he, ha, hst]; exact h.waiting
  · rw [he, hst]; exact h.closed
  · obtain ⟨c₁, t, c₂, rfl, h1⟩ := h.answered (by rw [← ha]; exact ha')
    exact ⟨c₁, t, c₂ ++ [op], by simp, h1⟩
  · obtain ⟨c₁, t, c₂, t', c₃, rfl, h1⟩ := h.established (by rw [← hst]; exact hs')
    exact ⟨c₁, t, c₂, t', c₃ ++ [op], by simp, h1⟩

theorem accepted_trans {s₁ s s' : Session} {c : List Op} {op : Op} {es : Events}
    (hs : s = Machine.run step s₁ c) (hi : Accepted s₁ c s) (h : Trans s op s' es) :
    Accepted s₁ (c ++ [op]) s' := by
  cases h with
  | callerVerified t he hl hv hr => rw [hi.verified] at hv; cases hv
  | calleeVerified t he hl hv hr => rw [hi.verified] at hv; cases hv
  | answered now he hv hr hst =>
    rw [CallState.answer_ringing hr hst]
    refine ⟨hr, hv, fun _ h => (by cases h), fun h => absurd he h, fun _ => ?_,
      fun h => (by cases h)⟩
    exact ⟨c, now, [], rfl, by rw [← hs]; exact hst⟩
  | ended op r he =>
    rw [end_eq he]
    exact ⟨hi.role, hi.verified, fun h => (by cases h), fun _ => rfl, fun h => (by cases h),
      fun h => (by cases h)⟩
  | adopted p now ho =>
    refine hi.of_same _ (CallState.receiveSignal_role _ _) (CallState.receiveSignal_answered _ _)
      ?_ rfl rfl
    rcases s.call.receiveSignal_status (.preferredProfile p) with h | ⟨_, h, -⟩
    · exact h
    · cases h
  | staged st now ho hal =>
    have hal' : s.call.answered = true ∧ st = .established := by
      simpa [statusAllowed, hi.role] using hal
    obtain ⟨hans, rfl⟩ := hal'
    refine ⟨by simpa using hi.role, hi.verified, fun _ h => ?_, fun h => absurd ho.ended h,
      fun _ => ?_, fun _ => ?_⟩
    · rw [show s.call.answered = false by simpa using h] at hans; cases hans
    · obtain ⟨c₁, t, c₂, rfl, h1⟩ := hi.answered hans
      exact ⟨c₁, t, c₂ ++ [.receiveSignal (.status .established) now], by simp, h1⟩
    · obtain ⟨c₁, t, c₂, rfl, h1⟩ := hi.answered hans
      exact ⟨c₁, t, c₂, now, [], by simp, h1⟩
  | ticked now =>
    obtain ⟨_, _, _, -, he⟩ := ticked_eq s now
    rw [he]
    exact hi.of_same _ rfl rfl rfl rfl rfl
  | _ => exact hi.of_same _ rfl rfl rfl rfl rfl

theorem run_accepted {s₁ : Session} (hr : s₁.call.role = .incoming) (hv : s₁.verified = true)
    (he : s₁.ended = none) (ha : s₁.call.answered = false) (hst : s₁.call.status = .ringing)
    (c : List Op) : Accepted s₁ c (Machine.run step s₁ c) := by
  induction c using List.reverseRecOn with
  | nil =>
    rw [Machine.run_nil]
    refine ⟨hr, hv, fun _ _ => hst, fun h => absurd he h, fun h => ?_, fun h => ?_⟩
    · rw [ha] at h; cases h
    · rw [hst] at h; cases h
  | append_singleton c op ih =>
    rw [Machine.run_append]
    exact accepted_trans rfl ih (step_trans _ op)

/-! ## Outgoing: the stages in order -/

/-- The stages a call goes through to reach a status. -/
def stagesTo : SignallingStatus → List SignallingStatus
  | .available => [.available]
  | .ringing => [.available, .ringing]
  | .connecting => [.available, .ringing, .connecting]
  | .established => [.available, .ringing, .connecting, .established]
  | _ => []

/-- An allowed status that moves a caller on is the next stage. -/
theorem stagesTo_next {c : CallState} {st : SignallingStatus} (hr : c.role = .outgoing)
    (ha : statusAllowed c st = true) (hlt : c.status.rank < st.rank) :
    stagesTo st = stagesTo c.status ++ [st] := by
  simp only [statusAllowed, hr] at ha
  revert ha hlt
  generalize c.status = current
  cases st <;> cases current <;> decide

/-- The operations `c` since the verification, of a caller that is now in state `s`. -/
structure Staged (c : List Op) (s : Session) : Prop where
  role : s.call.role = .outgoing
  verified : s.verified = true
  closed : s.ended ≠ none → s.call.status = .available
  stages : s.ended = none → (stagesTo s.call.status).Sublist (heard c)

theorem Staged.of_same {s s' : Session} {c : List Op} (h : Staged c s) (op : Op)
    (hr : s'.call.role = s.call.role) (hst : s'.call.status = s.call.status)
    (hv : s'.verified = s.verified) (he : s'.ended = s.ended) : Staged (c ++ [op]) s' := by
  refine ⟨hr.trans h.role, hv.trans h.verified, ?_, fun he' => ?_⟩
  · rw [he, hst]; exact h.closed
  · rw [hst, heard_concat]
    exact (h.stages (by rw [← he]; exact he')).trans (List.sublist_append_left _ _)

theorem staged_trans {s s' : Session} {c : List Op} {op : Op} {es : Events}
    (hi : Staged c s) (h : Trans s op s' es) : Staged (c ++ [op]) s' := by
  cases h with
  | callerVerified t he hl hv hr => rw [hi.verified] at hv; cases hv
  | calleeVerified t he hl hv hr => rw [hi.verified] at hv; cases hv
  | answered now he hv hr hst => rw [hi.role] at hr; cases hr
  | ended op r he =>
    rw [end_eq he]
    exact ⟨hi.role, hi.verified, fun _ => rfl, fun h => (by cases h)⟩
  | adopted p now ho =>
    refine hi.of_same _ (CallState.receiveSignal_role _ _) ?_ rfl rfl
    rcases s.call.receiveSignal_status (.preferredProfile p) with h | ⟨_, h, -⟩
    · exact h
    · cases h
  | staged st now ho hal =>
    rcases s.call.receiveSignal_status (.status st) with h | ⟨_, hm, -, h, hlt⟩
    · exact hi.of_same _ (CallState.receiveSignal_role _ _) h rfl rfl
    · cases hm
      refine ⟨by simpa using hi.role, hi.verified, fun h => absurd ho.ended h, fun he => ?_⟩
      rw [h, stagesTo_next hi.role hal hlt, heard_concat]
      exact (hi.stages he).append (.refl _)
  | ticked now =>
    obtain ⟨_, _, _, -, he⟩ := ticked_eq s now
    rw [he]
    exact hi.of_same _ rfl rfl rfl rfl
  | _ => exact hi.of_same _ rfl rfl rfl rfl

/-- A caller that is established heard every stage. -/
theorem Staged.established {s : Session} {c : List Op} (h : Staged c s)
    (hst : s.call.status = .established) :
    List.Sublist [.available, .ringing, .connecting, .established] (heard c) := by
  have he : s.ended = none := by
    by_contra hn
    rw [h.closed hn] at hst
    cases hst
  have := h.stages he
  rwa [hst] at this

theorem run_staged {s₁ : Session} (hr : s₁.call.role = .outgoing) (hv : s₁.verified = true)
    (he : s₁.ended = none) (hst : s₁.call.status = .calling) (c : List Op) :
    Staged c (Machine.run step s₁ c) := by
  induction c using List.reverseRecOn with
  | nil =>
    exact ⟨hr, hv, fun h => absurd he h, fun _ => by rw [Machine.run_nil, hst]; exact .slnil⟩
  | append_singleton c op ih =>
    rw [Machine.run_append]
    exact staged_trans ih (step_trans _ op)

/-! ## The history of an established session -/

/-- **Establishment needs authentication and acceptance**, in every run of a session from its
construction. An established session had its link established and then its peer verified; since
then an incoming one was answered while ringing and then received `established`, an outgoing one
received the four stages in order. Until a verification that follows a link establishment, a
received signal changes nothing and emits nothing. -/
theorem established_admitted {role : CallRole} {config : SessionConfig} {now : UInt64}
    {s₀ : Session} (h : new role config now = .ok s₀) (ops : List Op) :
    ((Machine.run step s₀ ops).status = .established →
      ∃ before between t since,
        ops = before ++ .linkEstablished :: between ++ .peerVerified t :: since ∧
        match role with
        | .incoming => ∃ since₁ t₁ since₂ t₂ since₃,
          since = since₁ ++ .answer t₁ :: since₂ ++
            .receiveSignal (.status .established) t₂ :: since₃ ∧
          (Machine.run step s₀
            (before ++ .linkEstablished :: between ++ .peerVerified t :: since₁)).status = .ringing
        | .outgoing => List.Sublist [.available, .ringing, .connecting, .established]
            (heard since)) ∧
    (∀ before m t after, ops = before ++ .receiveSignal m t :: after →
      (¬ ∃ a b t' c, before = a ++ .linkEstablished :: b ++ .peerVerified t' :: c) →
      (Machine.run step s₀ before).step (.receiveSignal m t) =
        (Machine.run step s₀ before, [])) := by
  obtain ⟨hf, hl, hv⟩ := new_fresh h
  refine ⟨fun hest => ?_, fun before m t after _ hn => receiveSignal_unverified ?_ m t⟩
  · have hver : (Machine.run step s₀ ops).verified = true := by
      by_contra hn
      rw [Bool.not_eq_true] at hn
      obtain ⟨-, hst, -, hcl⟩ := run_fresh hf ops
      have hest' : (Machine.run step s₀ ops).call.status = .established := hest
      by_cases he : (Machine.run step s₀ ops).ended = none
      · rw [hst hn he] at hest'
        cases role <;> cases hest'
      · rw [hcl hn he] at hest'
        cases hest'
    obtain ⟨a, b, t, c, rfl, h1, h2⟩ := verified_history hl hv ops hver
    rw [Machine.run_append, Machine.run_cons, Machine.run_nil] at h2
    obtain ⟨hr, he, hans, hst⟩ := verified_start (run_fresh hf _) h1 h2
    have hrun : ∀ c', Machine.run step s₀ (a ++ .linkEstablished :: b ++ .peerVerified t :: c') =
        Machine.run step ((Machine.run step s₀ (a ++ .linkEstablished :: b)).step
          (.peerVerified t)).1 c' := fun c' => by rw [Machine.run_append, Machine.run_cons]
    refine ⟨a, b, t, c, rfl, ?_⟩
    rw [hrun] at hest
    cases role with
    | incoming =>
      obtain ⟨c₁, t₁, c₂, t₂, c₃, rfl, hring⟩ := (run_accepted hr h2 he hans hst c).established hest
      exact ⟨c₁, t₁, c₂, t₂, c₃, rfl, by rw [hrun]; exact hring⟩
    | outgoing => exact (run_staged hr h2 he hst c).established hest
  · rw [← Bool.not_eq_true]
    intro hb
    obtain ⟨a, b, t', c, hbe, -⟩ := verified_history hl hv before hb
    exact hn ⟨a, b, t', c, hbe⟩

/-- A caller that reaches `established`: its history is found. -/
theorem established_admitted_outgoing : ∃ s₀,
    new .outgoing ⟨.CODEC2, .bandwidthLow, true, true⟩ 0 = .ok s₀ ∧
    let ops : List Op := [.linkEstablished, .peerVerified 1, .receiveSignal (.status .available) 2,
      .receiveSignal (.status .ringing) 3, .receiveSignal (.status .connecting) 4,
      .receiveSignal (.status .established) 5]
    (Machine.run step s₀ ops).status = .established ∧
      ∃ before between t since,
        ops = before ++ .linkEstablished :: between ++ .peerVerified t :: since ∧
        List.Sublist [.available, .ringing, .connecting, .established] (heard since) := by
  have h : new .outgoing ⟨.CODEC2, .bandwidthLow, true, true⟩ 0 = .ok _ := rfl
  exact ⟨_, h, by decide, (established_admitted h _).1 (by decide)⟩

end Lxst.Embedded.Session
