import RsLxst.Telephony.Proof.Runtime

/-!
# Packets of several signals

`accept_lxst_plaintext` applies the signals of a packet one by one and stops at the first that
fails. A signal of the active call's packet fails only when an earlier one has ended the call
(`receiveSignals_active`); one of another link's packet fails at once, but the packet's frames have
then moved the link's codec tracker. `accept_undone_iff` puts both together.
-/

set_option autoImplicit false

namespace Lxst

/-- A status that ends a call which listens to its peer. -/
def Signal.ends : Signal → Bool
  | .status .busy | .status .rejected => true
  | _ => false

namespace CallState

/-- A call emits its end at one of the two statuses, if it listens. -/
theorem terminate_mem_receiveSignal_iff (c : CallState) (s : Signal) :
    (∃ reason, .terminate reason ∈ (c.receiveSignal s).2) ↔ c.Listens ∧ s.ends = true := by
  rcases s with st | p | v
  · rcases Listens.or_unanswered c with h | ⟨hr, ha⟩
    · cases st with
      | busy => simp [receiveSignal_busy h, h, Signal.ends]
      | rejected => simp [receiveSignal_rejected h, h, Signal.ends]
      | calling => simp [receiveSignal_calling h, Signal.ends]
      | available =>
        rw [receiveSignal_available h]
        split <;> simp [Signal.ends]
      | ringing =>
        rw [receiveSignal_ringing h]
        split <;> simp [Signal.ends]
      | connecting =>
        cases hr : c.role with
        | outgoing =>
          rw [receiveSignal_connecting_outgoing hr]
          split <;> simp [Signal.ends]
        | incoming =>
          rw [receiveSignal_connecting_incoming h hr]
          split <;> simp [Signal.ends]
      | established =>
        rw [receiveSignal_established h]
        split <;> simp [Signal.ends]
    · have hnot : ¬ c.Listens := fun h => by cases ha.symm.trans (h hr)
      simp [receiveSignal_unanswered hr ha, hnot]
  · rw [receiveSignal_preferredProfile]
    split
    · simp [Signal.ends]
    · split <;> simp [Signal.ends]
  · simp [receiveSignal_raw, Signal.ends]

theorem listens_receiveSignal (c : CallState) (s : Signal) :
    (c.receiveSignal s).1.Listens ↔ c.Listens := by
  rw [Listens, receiveSignal_role, receiveSignal_answered, Listens]

end CallState

namespace Telephony.TelephonyRuntimeCore

variable {core : TelephonyRuntimeCore} {active : ActiveCall} {linkId : LinkId}

/-! ## The signals of the active call -/

/-- The call is over after a signal that ends it, and goes on after any other. -/
theorem receiveSignal_active (h : core.activeCall = some active) (signal : Signal) :
    ∃ commands core', core.receiveSignal active.linkId signal = (.ok commands, core') ∧
      (active.call.Listens ∧ signal.ends = true ∧ core'.activeCall = none ∨
        ¬ (active.call.Listens ∧ signal.ends = true) ∧ core'.activeCall =
          some { active with call := (active.call.receiveSignal signal).1 }) := by
  have hends := active.call.terminate_mem_receiveSignal_iff signal
  unfold receiveSignal
  rw [h]
  dsimp only
  rw [if_neg (not_not_intro rfl)]
  split
  · rename_i reason hfind
    obtain ⟨action, hmem, haction⟩ := List.exists_of_findSome?_eq_some hfind
    have hmem : ∃ reason, .terminate reason ∈ (active.call.receiveSignal signal).2 := by
      cases action with
      | terminate reason => exact ⟨reason, hmem⟩
      | _ => cases haction
    obtain ⟨hlistens, hsignal⟩ := hends.1 hmem
    exact ⟨_, _, rfl, .inl ⟨hlistens, hsignal, rfl⟩⟩
  · rename_i hfind
    refine ⟨_, _, rfl, .inr ⟨fun hboth => ?_, rfl⟩⟩
    obtain ⟨reason, hmem⟩ := hends.2 hboth
    cases List.findSome?_eq_none_iff.1 hfind _ hmem

theorem receiveSignal_inactive (h : ¬ core.activeCall.any (·.linkId = linkId) = true)
    (signal : Signal) : ∃ error, core.receiveSignal linkId signal = (.error error, core) := by
  unfold receiveSignal
  cases hactive : core.activeCall with
  | none => exact ⟨_, rfl⟩
  | some active =>
    have hlink : active.linkId ≠ linkId := fun hlink => h (by simp [hactive, hlink])
    exact ⟨_, if_pos hlink⟩

theorem receiveSignals_inactive (h : ¬ core.activeCall.any (·.linkId = linkId) = true)
    (signal : Signal) (signals : List Signal) :
    ∃ error, core.receiveSignals linkId (signal :: signals) = (.error error, core) := by
  obtain ⟨error, herror⟩ := receiveSignal_inactive h signal
  rw [receiveSignals, herror]
  exact ⟨error, rfl⟩

/-- A signal of the active call fails only behind one that has ended it: then the call is gone. -/
theorem receiveSignals_active (h : core.activeCall = some active) (signals : List Signal) :
    (∃ commands, (core.receiveSignals active.linkId signals).1 = .ok commands) ∧
        (active.call.Listens → ∀ signal ∈ signals.dropLast, signal.ends = false) ∨
      (∃ error, (core.receiveSignals active.linkId signals).1 = .error error) ∧
        (core.receiveSignals active.linkId signals).2.activeCall = none ∧
        active.call.Listens ∧ ∃ signal ∈ signals.dropLast, signal.ends = true := by
  induction signals generalizing core active with
  | nil => exact .inl ⟨⟨[], rfl⟩, fun _ => nofun⟩
  | cons signal signals ih =>
    obtain ⟨commands, core', hfirst, hcall⟩ := receiveSignal_active h signal
    rw [receiveSignals, hfirst]
    dsimp only
    rcases hcall with ⟨hlistens, hends, hnone⟩ | ⟨hgoes, hactive⟩
    · cases signals with
      | nil => exact .inl ⟨⟨_, rfl⟩, fun _ => nofun⟩
      | cons next signals =>
        have hinactive : ¬ core'.activeCall.any (·.linkId = active.linkId) = true := by
          simp [hnone]
        obtain ⟨error, herror⟩ := receiveSignals_inactive hinactive next signals
        rw [herror]
        exact .inr ⟨⟨error, rfl⟩, hnone, hlistens, signal, by simp, hends⟩
    · have hlistens := active.call.listens_receiveSignal signal
      rcases ih hactive with ⟨⟨rest, hrest⟩, hquiet⟩ | ⟨⟨error, herror⟩, hnone, hl, s, hs, hends⟩
      · generalize core'.receiveSignals active.linkId signals = result at hrest
        obtain ⟨_, core''⟩ := result
        cases hrest
        refine .inl ⟨⟨_, rfl⟩, fun hl s hs => ?_⟩
        cases signals with
        | nil => cases hs
        | cons next signals =>
          rcases List.mem_cons.1 hs with rfl | hs
          · exact Bool.not_eq_true _ ▸ fun hends => hgoes ⟨hl, hends⟩
          · exact hquiet (hlistens.2 hl) s hs
      · generalize core'.receiveSignals active.linkId signals = result at herror hnone
        obtain ⟨_, core''⟩ := result
        cases herror
        refine .inr ⟨⟨_, rfl⟩, hnone, hlistens.1 hl, s, ?_, hends⟩
        cases signals with
        | nil => cases hs
        | cons next signals => exact List.mem_cons_of_mem _ hs

/-! ## A whole packet -/

/-- The tracker ends at the codec of the last frame. -/
theorem acceptFrames_eq (tracker : FrameStreamState) (frames : List Frame) :
    (tracker.acceptFrames frames).2 =
      ⟨(frames.getLast?.map (·.codec)).or tracker.currentCodec⟩ := by
  induction frames generalizing tracker with
  | nil => rfl
  | cons frame frames ih =>
    rw [FrameStreamState.acceptFrames]
    dsimp only
    rw [ih, List.getLast?_cons]
    cases frames.getLast? with
    | some last => rfl
    | none =>
      by_cases hsame : tracker.currentCodec = some frame.codec <;> simp [hsame]

/-- The core after the frames of a packet, before its signals. -/
def tracked (core : TelephonyRuntimeCore) (linkId : LinkId) (tracker : LxstLinkIngress)
    (packet : LxstPacket) : TelephonyRuntimeCore :=
  { core with
    ingress := core.ingress.insert linkId
      ⟨⟨(packet.frames.getLast?.map (·.codec)).or tracker.frameStream.currentCodec⟩⟩ }

/-- A packet that decodes succeeds or fails with its signals. -/
theorem acceptLxstPlaintext_signals {readValue : List UInt8 → Except String MsgPack.Value}
    {core : TelephonyRuntimeCore} {linkId : LinkId} {payload : List UInt8}
    {tracker : LxstLinkIngress} {packet : LxstPacket}
    (hingress : core.ingress.lookup linkId = some tracker)
    (hdecode : LxstPacket.decode readValue payload = .ok packet) :
    ∃ inbound, core.acceptLxstPlaintext readValue linkId payload =
      (((core.tracked linkId tracker packet).receiveSignals linkId packet.signals).1.map
          fun commands => { inbound := some inbound, commands },
        ((core.tracked linkId tracker packet).receiveSignals linkId packet.signals).2) := by
  have htracker := acceptFrames_eq tracker.frameStream packet.frames
  simp only [acceptLxstPlaintext, LxstLinkIngress.acceptPlaintext, hingress, hdecode,
    FrameStreamState.acceptPacket, htracker]
  refine ⟨⟨linkId, packet, (tracker.frameStream.acceptFrames packet.frames).1⟩, ?_⟩
  cases hsignals : (core.tracked linkId tracker packet).receiveSignals linkId packet.signals with
  | mk result core' =>
    rw [tracked] at hsignals
    rw [hsignals]
    cases result <;> rfl

/-- What a packet may change is as before. -/
structure Undone (core : TelephonyRuntimeCore) (linkId : LinkId) (core' : TelephonyRuntimeCore) :
    Prop where
  activeCall : core'.activeCall = core.activeCall
  pendingLinks : core'.pendingLinks = core.pendingLinks
  ingress : core'.ingress.lookup linkId = core.ingress.lookup linkId

/-- The frames of a packet move no tracker if they end with its codec. -/
theorem undone_tracked_iff {tracker : LxstLinkIngress}
    (h : core.ingress.lookup linkId = some tracker) (packet : LxstPacket) :
    Undone core linkId (core.tracked linkId tracker packet) ↔
      ∀ frame ∈ packet.frames.getLast?, tracker.frameStream.currentCodec = some frame.codec := by
  have hlookup : (core.tracked linkId tracker packet).ingress.lookup linkId = some
      ⟨⟨(packet.frames.getLast?.map (·.codec)).or tracker.frameStream.currentCodec⟩⟩ :=
    AList.lookup_insert _
  constructor
  · intro hundone frame hframe
    have hsame := hlookup.symm.trans (hundone.ingress.trans h)
    rw [hframe] at hsame
    have hcodec := congrArg (·.frameStream.currentCodec) (Option.some.inj hsame)
    exact hcodec.symm
  · intro hframes
    refine ⟨rfl, rfl, hlookup.trans ?_⟩
    rw [h]
    cases hlast : packet.frames.getLast? with
    | none => rfl
    | some frame => rw [Option.map_some, Option.some_or, ← hframes frame hlast]

/-- A packet of the active call has nothing behind a signal that ends the call. Any other packet
has no signals, or its frames leave the codec tracker where it is. -/
def Whole (core : TelephonyRuntimeCore) (linkId : LinkId) (tracker : LxstLinkIngress)
    (packet : LxstPacket) : Prop :=
  (∀ active, core.activeCall = some active → active.linkId = linkId → active.call.Listens →
    ∀ signal ∈ packet.signals.dropLast, signal.ends = false) ∧
  (¬ core.activeCall.any (·.linkId = linkId) = true → packet.signals = [] ∨
    ∀ frame ∈ packet.frames.getLast?, tracker.frameStream.currentCodec = some frame.codec)

/-- The signals of a packet fail without a trace exactly when the packet is whole. -/
theorem signals_undone_iff {tracker : LxstLinkIngress}
    (h : core.ingress.lookup linkId = some tracker) (packet : LxstPacket) :
    (∀ error, ((core.tracked linkId tracker packet).receiveSignals linkId packet.signals).1 =
        .error error → Undone core linkId
          ((core.tracked linkId tracker packet).receiveSignals linkId packet.signals).2) ↔
      Whole core linkId tracker packet := by
  have hcall : (core.tracked linkId tracker packet).activeCall = core.activeCall := rfl
  by_cases hlink : core.activeCall.any (·.linkId = linkId) = true
  · obtain ⟨active, hactive, rfl⟩ : ∃ active, core.activeCall = some active ∧
        active.linkId = linkId := by simpa [Option.any_eq_true] using hlink
    rcases receiveSignals_active (hcall.trans hactive) packet.signals with
      ⟨⟨commands, hok⟩, hquiet⟩ | ⟨⟨error, herror⟩, hnone, hlistens, signal, hsignal, hends⟩
    · rw [hok]
      refine ⟨fun _ => ⟨?_, fun hnot => absurd hlink hnot⟩, fun _ => nofun⟩
      rintro active' hactive' -
      cases hactive.symm.trans hactive'
      exact hquiet
    · constructor
      · intro hundone
        cases hnone.symm.trans ((hundone error herror).activeCall.trans hactive)
      · intro hwhole
        cases hends.symm.trans (hwhole.1 active hactive rfl hlistens signal hsignal)
  · have hother : ∀ active, core.activeCall = some active → active.linkId ≠ linkId :=
      fun active hactive hsame => hlink (by simp [hactive, hsame])
    rw [Whole]
    cases packet.signals with
    | nil =>
      refine ⟨fun _ => ⟨fun active hactive hsame => (hother active hactive hsame).elim, ?_⟩,
        fun _ => nofun⟩
      exact fun _ => .inl rfl
    | cons signal signals =>
      have hinactive : ¬ (core.tracked linkId tracker packet).activeCall.any
          (·.linkId = linkId) = true := by rwa [hcall]
      obtain ⟨error, herror⟩ := receiveSignals_inactive hinactive signal signals
      rw [herror]
      have htracked := undone_tracked_iff h packet
      constructor
      · intro hundone
        refine ⟨fun active hactive hsame => (hother active hactive hsame).elim, fun _ => .inr ?_⟩
        exact htracked.1 (hundone error rfl)
      · rintro ⟨-, hwhole⟩ _ -
        exact htracked.2 ((hwhole hlink).resolve_left (List.cons_ne_nil _ _))

/-- **A packet is processed all or nothing** exactly when it is whole. -/
theorem accept_undone_iff (readValue : List UInt8 → Except String MsgPack.Value)
    (core : TelephonyRuntimeCore) (linkId : LinkId) (payload : List UInt8) :
    (∀ error, (core.acceptLxstPlaintext readValue linkId payload).1 = .error error →
      Undone core linkId (core.acceptLxstPlaintext readValue linkId payload).2) ↔
    ∀ tracker packet, core.ingress.lookup linkId = some tracker →
      LxstPacket.decode readValue payload = .ok packet → Whole core linkId tracker packet := by
  cases hingress : core.ingress.lookup linkId with
  | none =>
    rw [acceptLxstPlaintext, hingress]
    exact ⟨fun _ => nofun, fun _ _ _ => ⟨rfl, rfl, rfl⟩⟩
  | some tracker =>
    cases hdecode : LxstPacket.decode readValue payload with
    | error error =>
      simp only [acceptLxstPlaintext, LxstLinkIngress.acceptPlaintext, hingress, hdecode]
      exact ⟨fun _ _ _ => nofun, fun _ _ _ => ⟨rfl, rfl, rfl⟩⟩
    | ok packet =>
      obtain ⟨inbound, haccept⟩ := acceptLxstPlaintext_signals hingress hdecode
      rw [haccept]
      have hsignals := signals_undone_iff hingress packet
      constructor
      · rintro hundone _ _ ⟨⟩ ⟨⟩
        refine hsignals.1 fun error herror => hundone error ?_
        rw [herror]
        rfl
      · intro hwhole error herror
        refine hsignals.2 (hwhole _ _ rfl rfl) error ?_
        dsimp only at herror
        cases hresult : ((core.tracked linkId tracker packet).receiveSignals linkId
            packet.signals).1 with
        | error error' =>
          rw [hresult] at herror
          cases herror
          rfl
        | ok commands =>
          rw [hresult] at herror
          cases herror

/-- A caller's packet of `Busy` and then `Ringing` ends the call, and fails. -/
theorem busy_then_ringing_fails :
    let linkId : LinkId := .replicate 16 1
    let core := (TelephonyRuntimeCore.new.startOutgoingCall linkId (.replicate 16 7) none).2
    let result := core.acceptLxstPlaintext firstValue linkId [0x81, 0x00, 0x92, 0x00, 0x04]
    core.activeCall.isSome = true ∧ result.1 = .error .noActiveCall ∧
      result.2.activeCall = none := by
  decide +kernel

end Telephony.TelephonyRuntimeCore

end Lxst
