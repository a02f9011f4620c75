import RsLxst.Embedded.Proof.Session
import RsLxst.Lib.EventOrder

/-!
# Microphone safety

Over every run of a session: `MicInv` (the microphone is open only while media is ready, capture
is configured and the input is held) is kept by every operation, and the captures of one operation
toggle from the microphone's state before it to the one after it (`trans_captures`). The input
stays held until `set_transmitting(false)` (`trans_inputDown`), so two starts of a capture are
separated by a release. Together: `microphone_safety`.
-/

set_option autoImplicit false

namespace Lxst.Embedded.Session

open EventOrder

/-- The values of the `Capture` events, in order. -/
def captures (es : Events) : List Bool :=
  es.filterMap fun
    | .capture on => some on
    | _ => none

@[simp] theorem captures_nil : captures [] = [] := rfl

@[simp] theorem captures_append (es fs : Events) :
    captures (es ++ fs) = captures es ++ captures fs := List.filterMap_append

@[simp] theorem captures_flushMedia (es : Events) :
    captures (.flushMedia :: es) = captures es := rfl

@[simp] theorem captures_transition (a : TelephonyAction) (es : Events) :
    captures (.transition a :: es) = captures es := rfl

@[simp] theorem captures_ended (r : EndReason) (es : Events) :
    captures (.ended r :: es) = captures es := rfl

@[simp] theorem captures_capture (on : Bool) (es : Events) :
    captures (.capture on :: es) = on :: captures es := rfl

@[simp] theorem captures_transitions (as : Actions) : captures (as.map .transition) = [] := by
  induction as with
  | nil => rfl
  | cons a as ih => simpa using ih

theorem captures_stopped (s : Session) :
    captures s.stopped = if s.transmitting then [false] else [] := by
  unfold stopped
  split <;> rfl

theorem mem_captures {es : Events} {on : Bool} : on ∈ captures es ↔ .capture on ∈ es := by
  induction es with
  | nil => simp
  | cons e es ih => cases e <;> simp [ih]

/-- The microphone is open only while media is ready, capture is configured and the input held. -/
structure MicInv (s : Session) : Prop where
  ready : s.transmitting = true → s.mediaReady = true
  capture : s.transmitting = true → s.config.capture = true
  held : s.transmitting = true → s.inputDown = true

theorem MicInv.of_silent {s : Session} (h : s.transmitting = false) : MicInv s := by
  refine ⟨?_, ?_, ?_⟩ <;> exact fun ht => by rw [h] at ht; cases ht

/-- The microphone survives a step that leaves it and its permissions alone. -/
theorem MicInv.of_same {s s' : Session} (hi : MicInv s) (ht : s'.transmitting = s.transmitting)
    (hm : s.mediaReady = true → s'.mediaReady = true) (hc : s'.config = s.config)
    (hd : s.inputDown = true → s'.inputDown = true) : MicInv s' := by
  refine ⟨fun h => hm (hi.ready ?_), fun h => ?_, fun h => hd (hi.held ?_)⟩
  · rw [← ht]; exact h
  · rw [hc]; exact hi.capture (by rw [← ht]; exact h)
  · rw [← ht]; exact h

/-- A tick that ends nothing closes the microphone or leaves it alone. -/
theorem ticked_captures (s : Session) (now : UInt64) :
    ((s.limitTalk now).1.retryOffer (s.limitTalk now).2 now).1.transmitting = s.transmitting ∧
        captures ((s.limitTalk now).1.retryOffer (s.limitTalk now).2 now).2 = [] ∨
      ((s.limitTalk now).1.retryOffer (s.limitTalk now).2 now).1.transmitting = false ∧
        captures ((s.limitTalk now).1.retryOffer (s.limitTalk now).2 now).2 =
          captures s.stopped := by
  rcases limitTalk_cases s now with hl | hl <;> rw [hl] <;>
    rcases retryOffer_cases _ _ now with hr | ⟨-, hr⟩ <;> rw [hr]
  · exact .inl ⟨rfl, rfl⟩
  · exact .inl ⟨rfl, by simp⟩
  · exact .inr ⟨rfl, by simp⟩
  · exact .inr ⟨rfl, by simp⟩

theorem micInv_trans {s s' : Session} {op : Op} {es : Events} (hi : MicInv s)
    (h : Trans s op s' es) : MicInv s' := by
  cases h with
  | idle => exact hi
  | linked he hl =>
    exact hi.of_same rfl (fun hm => absurd (mediaReady_iff.1 hm).2.1 (by simp [hl])) rfl id
  | callerVerified now he hl hv hr =>
    exact hi.of_same rfl (fun hm => absurd (mediaReady_iff.1 hm).2.2.1 (by simp [hv])) rfl id
  | calleeVerified now he hl hv hr =>
    exact hi.of_same rfl (fun hm => absurd (mediaReady_iff.1 hm).2.2.1 (by simp [hv])) rfl id
  | answered now he hv hr hs =>
    refine hi.of_same rfl (fun hm => ?_) rfl id
    have := (mediaReady_iff.1 hm).2.2.2.2.2
    rw [hs] at this; cases this
  | ended op r he hs => rw [end_eq he]; exact .of_silent rfl
  | refused p now ho hc hs => exact .of_silent rfl
  | adopted p now ho hc hp => exact .of_silent rfl
  | confirmed p now ho hc hp =>
    refine hi.of_same rfl (fun hm => ?_) rfl id
    obtain ⟨h1, h2, h3, h4, -, h6⟩ := mediaReady_iff.1 hm
    exact mediaReady_iff.2 ⟨h1, h2, h3, h4, rfl, h6⟩
  | staged st now ho ha =>
    refine hi.of_same rfl (fun hm => ?_) rfl id
    obtain ⟨h1, h2, h3, h4, h5, h6⟩ := mediaReady_iff.1 hm
    refine mediaReady_iff.2 ⟨h1, h2, h3, h4, h5, ?_⟩
    rcases s.call.receiveSignal_status (.status st) with hst | ⟨st', -, -, -, hlt⟩
    · rw [← h6, ← hst]
    · rw [h6] at hlt
      exact absurd st'.rank_le_established (Nat.not_le.2 hlt)
  | ignoredRaw => exact hi
  | confirmedByMedia p now ho hs hp hc =>
    refine hi.of_same rfl (fun hm => ?_) rfl id
    obtain ⟨h1, h2, h3, h4, -, h6⟩ := mediaReady_iff.1 hm
    exact mediaReady_iff.2 ⟨h1, h2, h3, h4, rfl, h6⟩
  | audioOpened g he hg =>
    refine hi.of_same rfl (fun hm => ?_) rfl id
    obtain ⟨h1, h2, h3, -, h5, h6⟩ := mediaReady_iff.1 hm
    exact mediaReady_iff.2 ⟨h1, h2, h3, rfl, h5, h6⟩
  | released now => exact .of_silent rfl
  | pressIgnored now hd hm => exact hi.of_same rfl id rfl fun _ => rfl
  | pressed now hd hm hc => exact ⟨fun _ => hm, fun _ => hc, fun _ => rfl⟩
  | ticked now he =>
    obtain ⟨tr, _, _, htr, h⟩ := ticked_eq s now
    rw [h]
    rcases htr with rfl | rfl
    · exact hi.of_same rfl id rfl id
    · exact .of_silent rfl

/-- What stops a capture closes the microphone. -/
theorem toggles_stopped (s : Session) : Toggles s.transmitting (captures s.stopped) false := by
  rw [captures_stopped]
  cases s.transmitting <;> simp [Toggles]

/-- **One operation and the capture stream**: it toggles from the microphone's state before the
operation to the one after it. -/
theorem trans_captures {s s' : Session} {op : Op} {es : Events} (hi : MicInv s)
    (h : Trans s op s' es) : Toggles s.transmitting (captures es) s'.transmitting := by
  have silence (fs : Events) (hf : captures fs = []) (ht : s'.transmitting = false)
      (he : es = s.stopped ++ fs) : Toggles s.transmitting (captures es) s'.transmitting := by
    rw [he, captures_append, hf, ht, List.append_nil]
    exact s.toggles_stopped
  cases h with
  | ended op r he hs =>
    rw [end_eq he] at silence ⊢
    exact silence _ (by simp) rfl rfl
  | refused p now ho hc hs => exact silence _ (by simp) rfl rfl
  | adopted p now ho hc hp =>
    refine silence _ ?_ rfl rfl
    split <;> simp
  | released now => exact silence _ (by simp) rfl rfl
  | pressed now hd hm hc =>
    have ht : s.transmitting = false := by
      cases ht : s.transmitting with
      | false => rfl
      | true => rw [hi.held ht] at hd; cases hd
    rw [ht]
    exact ⟨rfl, rfl⟩
  | ticked now he =>
    rcases ticked_captures s now with ⟨ht, hc⟩ | ⟨ht, hc⟩
    · rw [ht, hc]
      exact toggles_nil _
    · rw [ht, hc]
      exact s.toggles_stopped
  | linked he hl =>
    split <;> exact toggles_nil _
  | _ =>
    simp only [captures_append, captures_transition, captures_transitions, captures_nil,
      List.append_nil]
    exact toggles_nil _

/-- A capture starts only with a press of a released input, which is then held. -/
theorem trans_capture_true {s s' : Session} {op : Op} {es : Events} (h : Trans s op s' es)
    (hc : .capture true ∈ es) :
    (∃ now, op = .setTransmitting true now) ∧ s.inputDown = false ∧ s'.inputDown = true := by
  rw [← mem_captures] at hc
  have hst : true ∉ captures s.stopped := by
    rw [captures_stopped]; split <;> simp
  cases h with
  | pressed now hd hm hcap => exact ⟨⟨now, rfl⟩, hd, rfl⟩
  | ended op r he hs => rw [end_eq he] at hc; simp [hst] at hc
  | refused p now ho hcon hs => simp [hst] at hc
  | adopted p now ho hcon hp => split at hc <;> simp [hst] at hc
  | released now => simp [hst] at hc
  | ticked now he =>
    rcases ticked_captures s now with ⟨-, h⟩ | ⟨-, h⟩ <;> rw [h] at hc
    · cases hc
    · exact absurd hc hst
  | linked he hl => split at hc <;> simp at hc
  | _ => simp at hc

/-- The input stays held until `set_transmitting(false)`. -/
theorem trans_inputDown {s s' : Session} {op : Op} {es : Events} (h : Trans s op s' es)
    (hop : ∀ now, op ≠ .setTransmitting false now) (hd : s.inputDown = true) :
    s'.inputDown = true := by
  cases h with
  | released now => exact absurd rfl (hop now)
  | ended op r he hs => rw [end_eq he]; exact hd
  | ticked now he =>
    obtain ⟨_, _, _, -, ht⟩ := ticked_eq s now
    rw [ht]
    exact hd
  | pressIgnored | pressed => rfl
  | _ => exact hd

theorem run_inputDown {s : Session} {ops : List Op}
    (hops : ∀ now, .setTransmitting false now ∉ ops) (hd : s.inputDown = true) :
    (Machine.run step s ops).inputDown = true := by
  induction ops generalizing s with
  | nil => exact hd
  | cons op ops ih =>
    simp only [List.mem_cons, not_or] at hops
    exact ih (fun now => (hops now).2)
      (trans_inputDown (step_trans s op) (fun now he => (hops now).1 he.symm) hd)

/-! ## Capacity -/

theorem stopped_length (s : Session) : s.stopped.length ≤ 1 := by
  unfold stopped
  split <;> simp

/-- No operation overruns the event buffer. -/
theorem trans_length_le {s s' : Session} {op : Op} {es : Events} (h : Trans s op s' es) :
    es.length ≤ Events.CAPACITY := by
  have hst := s.stopped_length
  unfold Events.CAPACITY
  cases h with
  | linked he hl => split <;> simp [CallState.incomingLinkEstablished]
  | callerVerified now he hl hv hr =>
    have := (CallState.Emits.callerIdentified false true : s.call.Emits _).length_le
    simp only [Actions.CAPACITY] at this
    simp only [List.length_append, List.length_map, List.length_cons, List.length_nil]
    omega
  | answered now he hv hr hs =>
    have := (CallState.Emits.answer : s.call.Emits _).length_le
    simp only [Actions.CAPACITY] at this
    simp only [List.length_map]
    omega
  | ended op r he hs =>
    have := (CallState.Emits.hangup (r = .timeout) : s.call.Emits _).length_le
    simp only [Actions.CAPACITY] at this
    rw [end_eq he]
    simp only [List.length_append, List.length_cons, List.length_map, List.length_nil]
    omega
  | refused p now ho hc hs => simp; omega
  | adopted p now ho hc hp =>
    have := s.call.receiveSignal_length (.preferredProfile p)
    simp only [Actions.CAPACITY] at this
    split <;> simp only [List.length_append, List.length_cons, List.length_map,
      List.length_nil] <;> omega
  | staged st now ho ha =>
    have := s.call.receiveSignal_length (.status st)
    simp only [Actions.CAPACITY] at this
    simp only [List.length_map]
    omega
  | released now => simp; omega
  | ticked now he =>
    have hl : (s.limitTalk now).2.length ≤ 2 := by
      rcases limitTalk_cases s now with hl | hl <;> rw [hl] <;> simp; omega
    have := (CallState.Emits.retryAnswer : (s.limitTalk now).1.call.Emits _).length_le
    simp only [Actions.CAPACITY] at this
    rcases retryOffer_cases (s.limitTalk now).1 (s.limitTalk now).2 now with hr | ⟨-, hr⟩ <;>
      rw [hr] <;> simp only [List.length_append, List.length_map] <;> omega
  | _ => simp

/-! ## Runs -/

theorem new_config {role : CallRole} {config : SessionConfig} {now : UInt64} {s : Session}
    (h : new role config now = .ok s) : s.config = config := by
  obtain ⟨-, rfl⟩ := new_eq h
  rfl

theorem new_transmitting {role : CallRole} {config : SessionConfig} {now : UInt64} {s : Session}
    (h : new role config now = .ok s) : s.transmitting = false := by
  obtain ⟨-, rfl⟩ := new_eq h
  rfl

theorem run_micInv {s : Session} (hi : MicInv s) (ops : List Op) :
    MicInv (Machine.run step s ops) :=
  Machine.run_invariant step hi (fun s op h => micInv_trans h (step_trans s op)) ops

theorem run_config (s : Session) (ops : List Op) : (Machine.run step s ops).config = s.config :=
  Machine.run_invariant (I := fun s' => s'.config = s.config) step rfl
    (fun s' op h => (trans_config (step_trans s' op)).trans h) ops

/-- Over a run the captures toggle, from the microphone's first state to its last. -/
theorem run_captures {s₀ : Session} (hi : MicInv s₀) (ops : List Op) :
    Toggles s₀.transmitting (captures (Machine.output step s₀ ops))
      (Machine.run step s₀ ops).transmitting := by
  suffices h : MicInv (Machine.run step s₀ ops) ∧
      Toggles s₀.transmitting (captures (Machine.output step s₀ ops))
        (Machine.run step s₀ ops).transmitting from h.2
  refine Machine.run_history step
    (fun _ s es => MicInv s ∧ Toggles s₀.transmitting (captures es) s.transmitting)
    ⟨hi, toggles_nil _⟩ ?_ ops
  intro _ s es op ⟨hs, ht⟩
  have htr := step_trans s op
  refine ⟨micInv_trans hs htr, ?_⟩
  rw [captures_append]
  exact ht.append (trans_captures hs htr)

/-- **Microphone safety**, in every run of a session from its construction:
the microphone is open only while media is ready and capture is configured; the captures
alternate from `true` and end with the microphone's state; each start is a press, and two starts
have a release between them; playback and capture exclude each other; and every operation fits
the event buffer, every transition it runs the action buffer. -/
theorem microphone_safety {role : CallRole} {config : SessionConfig} {now : UInt64}
    {s₀ : Session} (h : new role config now = .ok s₀) (ops : List Op) :
    let s := Machine.run step s₀ ops
    let caps := captures (Machine.output step s₀ ops)
    (s.transmitting = true → s.mediaReady = true ∧ config.capture = true) ∧
    (List.IsChain (· ≠ ·) (false :: caps) ∧ caps.getLast?.getD false = s.transmitting) ∧
    (∀ op, .capture true ∈ (s.step op).2 → ∃ t, op = .setTransmitting true t) ∧
    (∀ before op between op' after, ops = before ++ op :: between ++ op' :: after →
      .capture true ∈ ((Machine.run step s₀ before).step op).2 →
      .capture true ∈ ((Machine.run step s₀ (before ++ op :: between)).step op').2 →
      ∃ t, .setTransmitting false t ∈ between) ∧
    ¬ (s.playbackAllowed = true ∧ s.transmitting = true) ∧
    (∀ op, (FixedBuffer.pushAll Events.CAPACITY [] (s.step op).2).isSome) ∧
    (∀ (c : CallState) actions, c.Emits actions →
      (FixedBuffer.pushAll Actions.CAPACITY [] actions).isSome) := by
  have ht := new_transmitting h
  have hi := run_micInv (.of_silent ht) ops
  have hcaps := run_captures (.of_silent ht) ops
  rw [ht] at hcaps
  refine ⟨fun hs => ⟨hi.ready hs, ?_⟩, toggles_iff.1 hcaps, fun op hc => ?_, ?_, ?_, fun op => ?_,
    fun c actions ha => ?_⟩
  · rw [← new_config h, ← run_config s₀ ops]
    exact hi.capture hs
  · exact (trans_capture_true (step_trans _ op) hc).1
  · intro before op between op' after _ h1 h2
    by_contra hn
    obtain ⟨-, -, hd⟩ := trans_capture_true (step_trans _ op) h1
    obtain ⟨-, hd', -⟩ := trans_capture_true (step_trans _ op') h2
    rw [Machine.run_append, Machine.run_cons,
      run_inputDown (fun t ht' => hn ⟨t, ht'⟩) hd] at hd'
    cases hd'
  · rintro ⟨hp, hs⟩
    simp [playbackAllowed, hs] at hp
  · exact (FixedBuffer.pushAll_isSome_iff _ (Nat.zero_le _)).2
      (by simpa using trans_length_le (step_trans _ op))
  · exact (FixedBuffer.pushAll_isSome_iff _ (Nat.zero_le _)).2 (by simpa using ha.length_le)

/-- A session with every direction, pressed twice around a release. -/
theorem microphone_safety_incoming : ∃ s₀,
    new .incoming ⟨.CODEC2, .bandwidthVeryLow, true, true⟩ 0 = .ok s₀ ∧
    let ops : List Op := [.linkEstablished, .peerVerified 1, .answer 2, .audioReady 1 true,
      .receiveSignal (.status .established) 3, .setTransmitting true 4, .setTransmitting false 5,
      .setTransmitting true 6]
    captures (Machine.output step s₀ ops) = [true, false, true] ∧
      (Machine.run step s₀ ops).mediaReady = true := by
  have h : new .incoming ⟨.CODEC2, .bandwidthVeryLow, true, true⟩ 0 = .ok _ := rfl
  exact ⟨_, h, by decide, ((microphone_safety h _).1 (by decide)).1⟩

end Lxst.Embedded.Session
