import RsLxst.Embedded.Proof.Session

/-!
# The end of a session

An operation either keeps `ended` and announces nothing, or it is the one `Session.end` of the
run (`trans_ended`), which tears the link down once (`end_teardown`). `Over s r` is what an end
leaves behind; every operation keeps it and only flushes media (`trans_over`). Together:
`end_final`.
-/

set_option autoImplicit false

namespace Lxst.Embedded.Session

/-- The reasons of the `Ended` events, in order. -/
def endings (es : Events) : List EndReason :=
  es.filterMap fun
    | .ended reason => some reason
    | _ => none

@[simp] theorem endings_nil : endings [] = [] := rfl

@[simp] theorem endings_append (es fs : Events) :
    endings (es ++ fs) = endings es ++ endings fs := List.filterMap_append

@[simp] theorem endings_flushMedia (es : Events) : endings (.flushMedia :: es) = endings es := rfl

@[simp] theorem endings_transition (a : TelephonyAction) (es : Events) :
    endings (.transition a :: es) = endings es := rfl

@[simp] theorem endings_capture (on : Bool) (es : Events) :
    endings (.capture on :: es) = endings es := rfl

@[simp] theorem endings_ended (r : EndReason) (es : Events) :
    endings (.ended r :: es) = r :: endings es := rfl

@[simp] theorem endings_transitions (as : Actions) : endings (as.map .transition) = [] := by
  induction as with
  | nil => rfl
  | cons a as ih => simpa using ih

@[simp] theorem endings_stopped (s : Session) : endings s.stopped = [] := by
  unfold stopped
  split <;> rfl

theorem mem_endings {es : Events} {r : EndReason} : r ∈ endings es ↔ .ended r ∈ es := by
  induction es with
  | nil => simp
  | cons e es ih => cases e <;> simp [ih]

/-! ## One end -/

/-- A tick that ends nothing announces no end. -/
theorem ticked_endings (s : Session) (now : UInt64) :
    endings ((s.limitTalk now).1.retryOffer (s.limitTalk now).2 now).2 = [] := by
  have hl : endings (s.limitTalk now).2 = [] := by
    rcases limitTalk_cases s now with h | h <;> rw [h] <;> simp
  rcases retryOffer_cases (s.limitTalk now).1 (s.limitTalk now).2 now with h | ⟨-, h⟩
  · rw [h]; exact hl
  · rw [h]; simp [hl]

/-- **One operation and the end**: nothing, or `Session::end` of an open session. -/
theorem trans_ended {s s' : Session} {op : Op} {es : Events} (h : Trans s op s' es) :
    s'.ended = s.ended ∧ endings es = [] ∨
      ∃ r, s.ended = none ∧ s' = (s.end_ r).1 ∧ es = (s.end_ r).2 := by
  cases h with
  | ended op r he => exact .inr ⟨r, he, rfl, rfl⟩
  | linked => exact .inl ⟨rfl, by split <;> simp⟩
  | adopted => exact .inl ⟨rfl, by split <;> simp⟩
  | ticked now =>
    obtain ⟨_, _, _, -, he⟩ := ticked_eq s now
    exact .inl ⟨by rw [he], ticked_endings s now⟩
  | _ => exact .inl ⟨rfl, by simp⟩

theorem end_ended {s : Session} (h : s.ended = none) (r : EndReason) :
    (s.end_ r).1.ended = some r := by rw [end_eq h]

theorem end_endings {s : Session} (h : s.ended = none) (r : EndReason) :
    endings (s.end_ r).2 = [r] := by
  rw [end_eq h]
  simp

/-- An end tears the link down, once. -/
theorem end_teardown {s : Session} (h : s.ended = none) (r : EndReason) :
    (s.end_ r).2.count (.transition .teardownLink) = 1 := by
  have hs : s.stopped.count (.transition .teardownLink) = 0 := by
    unfold stopped
    split <;> simp
  have hh : ((s.call.hangup (r = .timeout)).2.map Event.transition).count
      (.transition .teardownLink) = 1 := by
    simp only [CallState.hangup]
    split <;> simp
  rw [end_eq h]
  simp [hs, hh]

/-- An operation announces exactly the end it makes. -/
theorem trans_announces {s s' : Session} {op : Op} {es : Events} (h : Trans s op s' es)
    (r : EndReason) : .ended r ∈ es ↔ s.ended = none ∧ s'.ended = some r := by
  rw [← mem_endings]
  rcases trans_ended h with ⟨he, hes⟩ | ⟨r', hn, rfl, rfl⟩
  · rw [he, hes]
    constructor
    · intro hr; cases hr
    · rintro ⟨h1, h2⟩
      rw [h1] at h2
      cases h2
  · rw [end_endings hn, end_ended hn, List.mem_singleton, Option.some.injEq]
    exact ⟨fun h => ⟨hn, h.symm⟩, fun h => h.2.symm⟩

/-! ## After the end -/

/-- What an end with reason `r` leaves behind. -/
structure Over (s : Session) (r : EndReason) : Prop where
  ended : s.ended = some r
  status : s.call.status = .available
  silent : s.transmitting = false

theorem end_over {s : Session} (h : s.ended = none) (r : EndReason) : Over (s.end_ r).1 r := by
  rw [end_eq h]
  exact ⟨rfl, rfl, rfl⟩

theorem Over.not_open {s : Session} {r : EndReason} (h : Over s r) : s.ended ≠ none := by
  rw [h.ended]
  nofun

theorem Over.mediaReady {s : Session} {r : EndReason} (h : Over s r) : s.mediaReady = false := by
  by_contra hm
  rw [Bool.not_eq_false] at hm
  exact h.not_open (mediaReady_iff.1 hm).1

/-- **An ended session is inert**: it stays over and at most flushes media. -/
theorem trans_over {s s' : Session} {op : Op} {es : Events} {r : EndReason} (ho : Over s r)
    (h : Trans s op s' es) : Over s' r ∧ ∀ e ∈ es, e = .flushMedia := by
  have hn := ho.not_open
  have hs : s.stopped = [] := by simp [stopped, ho.silent]
  cases h with
  | idle => exact ⟨ho, by simp⟩
  | released => exact ⟨⟨ho.ended, ho.status, rfl⟩, by simp [hs]⟩
  | pressIgnored => exact ⟨⟨ho.ended, ho.status, ho.silent⟩, by simp⟩
  | pressed now hd hm =>
    rw [ho.mediaReady] at hm
    cases hm
  | refused p now hop => exact absurd hop.ended hn
  | adopted p now hop => exact absurd hop.ended hn
  | confirmed p now hop => exact absurd hop.ended hn
  | staged st now hop => exact absurd hop.ended hn
  | ignoredRaw v now hop => exact absurd hop.ended hn
  | confirmedByMedia p now hop => exact absurd hop.ended hn
  | linked he => exact absurd he hn
  | callerVerified now he => exact absurd he hn
  | calleeVerified now he => exact absurd he hn
  | answered now he => exact absurd he hn
  | ended op r' he => exact absurd he hn
  | audioOpened g he => exact absurd he hn
  | ticked now he => exact absurd he hn

theorem run_over {s : Session} {r : EndReason} (ho : Over s r) (ops : List Op) :
    Over (Machine.run step s ops) r ∧ ∀ e ∈ Machine.output step s ops, e = .flushMedia := by
  induction ops generalizing s with
  | nil => exact ⟨ho, by simp⟩
  | cons op ops ih =>
    obtain ⟨h1, h2⟩ := trans_over ho (step_trans s op)
    obtain ⟨h3, h4⟩ := ih h1
    refine ⟨h3, fun e he => ?_⟩
    rw [Machine.output_cons, List.mem_append] at he
    exact he.elim (h2 e) (h4 e)

/-! ## Runs -/

theorem new_ended {role : CallRole} {config : SessionConfig} {now : UInt64} {s : Session}
    (h : new role config now = .ok s) : s.ended = none := by
  obtain ⟨-, rfl⟩ := new_eq h
  rfl

/-- Over a run the announced ends are the end of the session, if it has ended. -/
theorem run_endings {s₀ : Session} (h : s₀.ended = none) (ops : List Op) :
    (∀ r, (Machine.run step s₀ ops).ended = some r → Over (Machine.run step s₀ ops) r) ∧
      endings (Machine.output step s₀ ops) = (Machine.run step s₀ ops).ended.toList := by
  refine Machine.run_history step
    (fun _ s es => (∀ r, s.ended = some r → Over s r) ∧ endings es = s.ended.toList)
    ⟨fun r hr => ?_, by simp [h]⟩ ?_ ops
  · rw [h] at hr; cases hr
  · intro _ s es op ⟨hov, hes⟩
    have ht := step_trans s op
    rw [endings_append, hes]
    rcases trans_ended ht with ⟨he, hno⟩ | ⟨r, hn, hs', hes'⟩
    · refine ⟨fun r hr => ?_, by rw [hno, he, List.append_nil]⟩
      exact (trans_over (hov r (he ▸ hr)) ht).1
    · rw [hs', hes', end_endings hn, end_ended hn, hn]
      refine ⟨fun r' hr => ?_, rfl⟩
      obtain rfl := Option.some.inj hr
      exact end_over hn r

/-- **The end of a session is final and announced once**, in every run of a session from its
construction: the announced ends are the end of the session; an operation announces exactly the
end it makes and then tears the link down once; and after the end, whatever follows, the reason
stays, the session is neither established nor ready for media nor transmitting, and nothing but
media flushes is emitted. -/
theorem end_final {role : CallRole} {config : SessionConfig} {now : UInt64} {s₀ : Session}
    (h : new role config now = .ok s₀) (ops : List Op) :
    let s := Machine.run step s₀ ops
    endings (Machine.output step s₀ ops) = s.ended.toList ∧
    (∀ op r, .ended r ∈ (s.step op).2 ↔ s.ended = none ∧ (s.step op).1.ended = some r) ∧
    (∀ op r, .ended r ∈ (s.step op).2 →
      (s.step op).2.count (.transition .teardownLink) = 1) ∧
    (∀ r, s.ended = some r → ∀ more,
      let s' := Machine.run step s more
      s'.ended = some r ∧ s'.status ≠ .established ∧ s'.mediaReady = false ∧
        s'.transmitting = false ∧ ∀ e ∈ Machine.output step s more, e = .flushMedia) := by
  obtain ⟨hov, hes⟩ := run_endings (new_ended h) ops
  refine ⟨hes, fun op r => trans_announces (step_trans _ op) r, fun op r hr => ?_,
    fun r hr more => ?_⟩
  · rcases trans_ended (step_trans (Machine.run step s₀ ops) op) with ⟨-, hno⟩ | ⟨r', hn, -, he⟩
    · rw [← mem_endings, hno] at hr
      cases hr
    · rw [he]
      exact end_teardown hn r'
  · obtain ⟨ho, hf⟩ := run_over (hov r hr) more
    refine ⟨ho.ended, ?_, ho.mediaReady, ho.silent, hf⟩
    show (Machine.run step _ more).call.status ≠ .established
    rw [ho.status]
    decide

/-- A call that rings out: announced once, with its teardown, and inert for a late answer. -/
theorem end_final_timeout : ∃ s₀,
    new .outgoing ⟨.CODEC2, .bandwidthLow, true, true⟩ 0 = .ok s₀ ∧
    endings (Machine.output step s₀ [.linkEstablished, .peerVerified 1, .tick 30000,
      .receiveSignal (.status .connecting) 30001]) = [.timeout] := by
  have h : new .outgoing ⟨.CODEC2, .bandwidthLow, true, true⟩ 0 = .ok _ := rfl
  exact ⟨_, h, ((end_final h _).1).trans (by decide)⟩

end Lxst.Embedded.Session
