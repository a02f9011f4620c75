import RsLxst.Core.Proof.Handshake
import RsLxst.Embedded.Proof.HostRoundTrip
import RsLxst.Telephony.TwoCores

/-!
# Two cores run the answer handshake

`Refines`: the active calls of two cores are the two calls of a `Handshake`, and the payloads in
flight are its signals, each packed into a packet of its own. Every step of the cores, those on
other links included, is a run of the handshake of none or one step (`step_refines`), so every
reachable state of the cores refines a reachable one of the handshake (`two_cores_refine`).
-/

set_option autoImplicit false

namespace Lxst

open MsgPack (Value)

theorem Signal.not_aliases_status (status : SignallingStatus) : ¬ (Signal.status status).Aliases :=
  fun ⟨_, h, _⟩ => by cases h

theorem Signal.not_aliases_preferredProfile (profile : Profile) :
    ¬ (Signal.preferredProfile profile).Aliases := fun ⟨_, h, _⟩ => by cases h

/-- A call ends on a busy or a rejected signal only. -/
theorem CallState.receiveSignal_terminates {c : CallState} {s : Signal}
    {reason : Option SignallingStatus} (h : .terminate reason ∈ (c.receiveSignal s).2) :
    s = .status .busy ∨ s = .status .rejected := by
  cases s with
  | status st =>
    obtain hl | ⟨hr, hun⟩ := Listens.or_unanswered c
    · cases st with
      | busy => exact .inl rfl
      | rejected => exact .inr rfl
      | calling => simp [receiveSignal_calling hl] at h
      | available =>
        rw [receiveSignal_available hl] at h
        split at h
        · simp at h
        · simp at h
      | ringing =>
        rw [receiveSignal_ringing hl] at h
        split at h
        · simp at h
        · simp at h
      | connecting =>
        cases hr : c.role with
        | outgoing =>
          rw [receiveSignal_connecting_outgoing hr] at h
          split at h
          · simp at h
          · simp at h
        | incoming =>
          rw [receiveSignal_connecting_incoming hl hr] at h
          split at h
          · simp at h
          · simp at h
      | established =>
        rw [receiveSignal_established hl] at h
        split at h
        · simp at h
        · simp at h
    · simp [receiveSignal_unanswered hr hun] at h
  | preferredProfile p =>
    rw [receiveSignal_preferredProfile] at h
    split at h
    · simp at h
    · dsimp only at h
      split at h
      · simp at h
      · simp at h
  | raw v => simp [receiveSignal_raw] at h

namespace Telephony

/-- The payload of a packet with one signal. -/
def Packed (writeValue : Value → Except String (List UInt8)) (payload : List UInt8)
    (signal : Signal) : Prop :=
  (signallingPacket signal).encode writeValue = .ok payload

section
variable {readValue : List UInt8 → Except String Value}
  {writeValue : Value → Except String (List UInt8)}

theorem exists_packed (hround : RoundTrips readValue writeValue) (signal : Signal) :
    ∃ payload, Packed writeValue payload signal ∧
      LxstPacket.decode readValue payload =
        .ok (LxstPacket.signalling [Signal.fromWire signal.wireValue]) := by
  have hframes : ∀ frame ∈ ([] : List Frame), frame.codec.isTransmittable = true := by simp
  have hfits := @Embedded.Wire.fits_entries [signal] [] (by simp) (by simp) (by simp)
  obtain ⟨payload, hwritten, hread⟩ :=
    hround _ hfits (Embedded.Wire.within_entries [signal] [])
  refine ⟨payload, ?_, ?_⟩
  · unfold Packed signallingPacket LxstPacket.signalling LxstPacket.encode
    rw [Embedded.Wire.toValue_eq hframes]
    dsimp only [bind, Except.bind]
    rw [hwritten]
  · have hpayload := hread []
    rw [List.append_nil] at hpayload
    rw [LxstPacket.decode, hpayload]
    exact Embedded.Wire.fromValue_entries [signal] hframes

theorem Packed.decode (hround : RoundTrips readValue writeValue) {payload : List UInt8}
    {signal : Signal} (h : Packed writeValue payload signal) (ha : ¬ signal.Aliases) :
    LxstPacket.decode readValue payload = .ok (LxstPacket.signalling [signal]) := by
  obtain ⟨payload', hpacked, hdecode⟩ := exists_packed hround signal
  obtain rfl : payload = payload' := Except.ok.inj (h.symm.trans hpacked)
  rwa [(Signal.fromWire_wireValue_iff signal).mpr ha] at hdecode

/-- A call's commands put the signals of its actions on its link, in order. -/
theorem payloads_commandsFromActions (hround : RoundTrips readValue writeValue) (link : LinkId)
    (remoteIdentity : Option IdentityHash) (actions : Actions) :
    List.Forall₂ (Packed writeValue)
      (TwoCores.payloads writeValue link (commandsFromActions link remoteIdentity actions))
      (signalsOf actions) := by
  induction actions with
  | nil => exact .nil
  | cons action actions ih =>
    cases action with
    | sendSignal signal =>
      obtain ⟨payload, hpacked, -⟩ := exists_packed hround signal
      have hcons : TwoCores.payloads writeValue link
          (commandsFromActions link remoteIdentity (.sendSignal signal :: actions)) =
            payload :: TwoCores.payloads writeValue link
              (commandsFromActions link remoteIdentity actions) := by
        unfold Packed at hpacked
        simp [TwoCores.payloads, signallingPacketsFromCommands, commandsFromActions,
          TelephonyCommand.toLxstPacket, TelephonyCommand.signal, TelephonyCommand.linkId, hpacked,
          Except.toOption]
      rw [hcons]
      exact .cons hpacked ih
    | ringIncomingCall =>
      cases remoteIdentity with
      | none => exact ih
      | some remoteIdentity => exact ih
    | _ => exact ih

theorem payloads_of_other {link : LinkId} {commands : List TelephonyCommand}
    (h : commands.filter (TelephonyRuntimeCore.forLink link) = []) :
    TwoCores.payloads writeValue link commands = [] := by
  rw [List.filter_eq_nil_iff] at h
  unfold TwoCores.payloads signallingPacketsFromCommands
  rw [List.filterMap_filterMap, List.filterMap_eq_nil_iff]
  intro command hmem
  have hne : command.linkId ≠ link := by simpa [TelephonyRuntimeCore.forLink] using h command hmem
  cases command.toLxstPacket with
  | none => rfl
  | some packet => simp [hne]

end

namespace TwoCores

open TelephonyRuntimeCore

/-- The core's active call is this call, on the link, and packets on the link are taken. -/
def Carries (link : LinkId) (core : TelephonyRuntimeCore) (call : CallState) : Prop :=
  (∃ remoteIdentity, core.activeCall = some { linkId := link, remoteIdentity, call }) ∧
    link ∈ core.ingress

theorem Carries.callOn {link : LinkId} {core : TelephonyRuntimeCore} {call : CallState}
    (h : Carries link core call) : CallOn link core := by
  obtain ⟨⟨remoteIdentity, hactive⟩, -⟩ := h
  simp [CallOn, hactive]

structure Refines (writeValue : Value → Except String (List UInt8)) (link : LinkId) (s : TwoCores)
    (h : Handshake) : Prop where
  caller : Carries link s.caller h.caller
  callee : Carries link s.callee h.callee
  toCaller : List.Forall₂ (Packed writeValue) s.toCaller h.toCaller
  toCallee : List.Forall₂ (Packed writeValue) s.toCallee h.toCallee

variable {readValue : List UInt8 → Except String Value}
  {writeValue : Value → Except String (List UInt8)} {link : LinkId}
  {core : TelephonyRuntimeCore} {call : CallState}

/-! ## One operation on a core -/

/-- An operation on a core, as an operation on its call: the call after it, with the signals the
call sends on the link. -/
def Runs (readValue : List UInt8 → Except String Value)
    (writeValue : Value → Except String (List UInt8)) (link : LinkId) (core : TelephonyRuntimeCore)
    (op : Op) (result : CallState × List Signal) : Prop :=
  Carries link (core.step readValue op).1 result.1 ∧
    List.Forall₂ (Packed writeValue) (payloads writeValue link (core.step readValue op).2) result.2

theorem elsewhere_runs (h : Carries link core call) {op : Op} (hop : concerns link op = false) :
    Runs readValue writeValue link core op (call, []) := by
  obtain ⟨hheld, hnone⟩ := step_other readValue h.callOn hop
  obtain ⟨hactive, hlookup, -⟩ := held_eq_iff.mp hheld
  obtain ⟨⟨remoteIdentity, hcall⟩, hingress⟩ := h
  refine ⟨⟨⟨remoteIdentity, hactive.trans hcall⟩, ?_⟩, ?_⟩
  · rw [← AList.lookup_isSome, hlookup, AList.lookup_isSome]
    exact hingress
  · rw [payloads_of_other hnone]
    exact .nil

theorem answer_runs (hround : RoundTrips readValue writeValue) (h : Carries link core call) :
    Runs readValue writeValue link core (.answerActive link)
      (call.answer.1, signalsOf call.answer.2) := by
  obtain ⟨⟨remoteIdentity, hactive⟩, hingress⟩ := h
  by_cases hphase : call.role ≠ .incoming ∨ call.status ≠ .ringing
  · have hrefused : core.answerActive link = (.error .callNotAnswerable, core) := by
      simp only [answerActive, hactive, ne_eq, not_true_eq_false, if_false]
      rw [if_pos hphase]
    rw [CallState.answer_other hphase]
    refine ⟨?_, ?_⟩
    · simp only [step, hrefused]
      exact ⟨⟨remoteIdentity, hactive⟩, hingress⟩
    · simp only [step, hrefused]
      exact .nil
  · have hanswered : core.answerActive link =
        (.ok (commandsFromActions link (some remoteIdentity) call.answer.2),
          { core with
            activeCall := some { linkId := link, remoteIdentity, call := call.answer.1 } }) := by
      simp only [answerActive, hactive, ne_eq, not_true_eq_false, if_false]
      rw [if_neg hphase]
    refine ⟨?_, ?_⟩
    · simp only [step, hanswered]
      exact ⟨⟨remoteIdentity, rfl⟩, hingress⟩
    · simp only [step, hanswered]
      exact payloads_commandsFromActions hround link (some remoteIdentity) call.answer.2

theorem retryAnswer_sends (hround : RoundTrips readValue writeValue) (h : Carries link core call) :
    List.Forall₂ (Packed writeValue)
      (payloads writeValue link (returned (core.retryAnswerActive link)))
      (signalsOf call.retryAnswer) := by
  obtain ⟨⟨remoteIdentity, hactive⟩, -⟩ := h
  by_cases hphase : call.role ≠ .incoming ∨ (!call.answered) = true ∨ call.status ≠ .connecting
  · have hrefused : core.retryAnswerActive link = .error .callNotAnswerable := by
      simp only [retryAnswerActive, answeredCall, hactive, ne_eq, not_true_eq_false, if_false]
      rw [if_pos hphase]
      rfl
    rw [hrefused, CallState.retryAnswer, if_pos hphase]
    exact .nil
  · have hretried : core.retryAnswerActive link =
        .ok (commandsFromActions link (some remoteIdentity) call.retryAnswer) := by
      simp only [retryAnswerActive, answeredCall, hactive, ne_eq, not_true_eq_false, if_false]
      rw [if_neg hphase]
      rfl
    rw [hretried]
    exact payloads_commandsFromActions hround link (some remoteIdentity) call.retryAnswer

/-- A signal that does not end the call. -/
theorem receiveSignal_live {remoteIdentity : IdentityHash}
    (hactive : core.activeCall = some { linkId := link, remoteIdentity, call }) {signal : Signal}
    (hbusy : signal ≠ .status .busy) (hrejected : signal ≠ .status .rejected) :
    core.receiveSignal link signal =
      (.ok (commandsFromActions link (some remoteIdentity) (call.receiveSignal signal).2),
        { core with
          activeCall :=
            some { linkId := link, remoteIdentity, call := (call.receiveSignal signal).1 } }) := by
  simp only [receiveSignal, hactive, ne_eq, not_true_eq_false, if_false]
  split
  · rename_i reason hfound
    obtain ⟨action, hmem, hreason⟩ := List.exists_of_findSome?_eq_some hfound
    cases action with
    | terminate reason =>
      obtain h | h := CallState.receiveSignal_terminates hmem
      · exact absurd h hbusy
      · exact absurd h hrejected
    | _ => cases hreason
  · rfl

/-- A payload with one signal that does not end the call. -/
theorem linkPacket_runs (hround : RoundTrips readValue writeValue) (h : Carries link core call)
    {payload : List UInt8} {signal : Signal} (hp : Packed writeValue payload signal)
    (ha : ¬ signal.Aliases) (hbusy : signal ≠ .status .busy)
    (hrejected : signal ≠ .status .rejected) :
    Runs readValue writeValue link core (.acceptLinkEvent (.linkPacket link payload))
      ((call.receiveSignal signal).1, signalsOf (call.receiveSignal signal).2) := by
  obtain ⟨⟨remoteIdentity, hactive⟩, hingress⟩ := h
  obtain ⟨ingress, hlookup⟩ := Option.isSome_iff_exists.mp (AList.lookup_isSome.mpr hingress)
  have hlive := @receiveSignal_live link { core with ingress := core.ingress.insert link ingress }
    call remoteIdentity hactive signal hbusy hrejected
  have haccept : core.acceptLxstPlaintext readValue link payload =
      (.ok { inbound := some { linkId := link, packet := LxstPacket.signalling [signal],
                               frameEvents := [] },
             commands := commandsFromActions link (some remoteIdentity)
               (call.receiveSignal signal).2 },
        { core with
          ingress := core.ingress.insert link ingress
          activeCall :=
            some { linkId := link, remoteIdentity, call := (call.receiveSignal signal).1 } }) := by
    have hdecoded : ingress.acceptPlaintext readValue link payload =
        (.ok { linkId := link, packet := LxstPacket.signalling [signal], frameEvents := [] },
          ingress) := by
      rw [LxstLinkIngress.acceptPlaintext, hp.decode hround ha]
      rfl
    rw [acceptLxstPlaintext, hlookup]
    dsimp only
    rw [hdecoded]
    dsimp only [LxstPacket.signalling]
    rw [receiveSignals, hlive]
    simp only [receiveSignals, List.append_nil]
  refine ⟨?_, ?_⟩
  · simp only [step, acceptLinkEvent, haccept]
    exact ⟨⟨remoteIdentity, rfl⟩, (AList.mem_insert _).mpr (.inl rfl)⟩
  · simp only [step, acceptLinkEvent, haccept]
    exact payloads_commandsFromActions hround link (some remoteIdentity) _

/-! ## The start -/

theorem mem_ensureIngress (core : TelephonyRuntimeCore) (link : LinkId) :
    link ∈ (core.ensureIngress link).ingress := by
  unfold ensureIngress
  split
  · rename_i ingress hlookup
    rw [← AList.lookup_isSome, hlookup]
    rfl
  · exact (AList.mem_insert _).mpr (.inl rfl)

@[simp] theorem ensureIngress_fields (core : TelephonyRuntimeCore) (link : LinkId) :
    (core.ensureIngress link).access = core.access ∧
      (core.ensureIngress link).lineBusy = core.lineBusy ∧
      (core.ensureIngress link).pendingLinks = core.pendingLinks ∧
      (core.ensureIngress link).activeCall = core.activeCall := by
  unfold ensureIngress
  split
  · exact ⟨rfl, rfl, rfl, rfl⟩
  · exact ⟨rfl, rfl, rfl, rfl⟩

/-- An idle core dials, and the link to the callee is established. -/
theorem dial_runs (hidle : core.lineBusy = false) (remoteIdentity : IdentityHash)
    (profile : Option Profile) :
    let dialled := (core.step readValue (.startOutgoingCall link remoteIdentity profile)).1
    payloads writeValue link
        (core.step readValue (.startOutgoingCall link remoteIdentity profile)).2 = [] ∧
      Runs readValue writeValue link dialled (.acceptLinkEvent (.linkEstablished link))
        (.outgoing profile, []) := by
  have hdialled : (core.step readValue (.startOutgoingCall link remoteIdentity profile)).1 =
      { core.ensureIngress link with
        activeCall := some { linkId := link, remoteIdentity, call := .outgoing profile } } := by
    simp [step, startOutgoingCall, hidle]
  refine ⟨rfl, ?_⟩
  rw [hdialled]
  have hmem := mem_ensureIngress core link
  generalize core.ensureIngress link = dialled at hmem
  have hlink : acceptLinkEvent readValue
      { dialled with
        activeCall := some { linkId := link, remoteIdentity, call := .outgoing profile } }
      (.linkEstablished link) =
        (.ok (.ofCommands []),
          { dialled with
            activeCall :=
              some { linkId := link, remoteIdentity, call := .outgoing profile } }) := by
    obtain ⟨ingress, hlookup⟩ := Option.isSome_iff_exists.mp (AList.lookup_isSome.mpr hmem)
    simp [acceptLinkEvent, outgoingLinkEstablished, ensureIngress, hlookup, asStep, Except.map,
      CallState.outgoing]
  refine ⟨?_, ?_⟩
  · simp only [step, hlink]
    exact ⟨⟨remoteIdentity, rfl⟩, hmem⟩
  · simp only [step, hlink]
    exact .nil

/-- An idle core announces itself on an incoming link. -/
theorem incoming_announces (hround : RoundTrips readValue writeValue)
    (hidle : core.lineBusy = false) :
    let result := core.step readValue (.acceptLinkEvent (.linkEstablished link))
    result.1.lineBusy = false ∧ result.1.access = core.access ∧ link ∈ result.1.ingress ∧
      List.Forall₂ (Packed writeValue) (payloads writeValue link result.2)
        (signalsOf (CallState.incomingLinkEstablished false)) := by
  obtain ⟨-, hnone⟩ : core.externalBusy = false ∧ core.activeCall = none := by
    simpa [lineBusy] using hidle
  have hlink : core.acceptLinkEvent readValue (.linkEstablished link) =
      (.ok (.ofCommands (commandsFromActions link none (CallState.incomingLinkEstablished false))),
        { core with pendingLinks := core.pendingLinks.insert link }.ensureIngress link) := by
    simp [acceptLinkEvent, hnone, incomingLinkEstablished, hidle, asStep, Except.map]
  dsimp only
  simp only [step, hlink]
  refine ⟨?_, ?_, mem_ensureIngress _ link, payloads_commandsFromActions hround link none _⟩
  · rw [(ensureIngress_fields _ link).2.1]
    exact hidle
  · simp

/-- An identified caller that is let in. -/
theorem identified_runs (hround : RoundTrips readValue writeValue)
    (hidle : core.lineBusy = false) (hmem : link ∈ core.ingress) {remoteIdentity : IdentityHash}
    (hallowed : core.access.isAllowed remoteIdentity = true) :
    Runs readValue writeValue link core (.acceptLinkEvent (.remoteIdentified link remoteIdentity))
      ((CallState.incoming.callerIdentified false true).1,
        signalsOf (CallState.incoming.callerIdentified false true).2) := by
  have hknown : (core.ingress.lookup link).isNone = false := by
    simp [Option.isNone_eq_false_iff, AList.lookup_isSome, hmem]
  have hlink : core.acceptLinkEvent readValue (.remoteIdentified link remoteIdentity) =
      (.ok (.ofCommands (commandsFromActions link (some remoteIdentity)
          (CallState.incoming.callerIdentified false true).2)),
        { core with
          pendingLinks := core.pendingLinks.erase link
          activeCall := some { linkId := link, remoteIdentity,
                               call := (CallState.incoming.callerIdentified false true).1 } }) := by
    simp [acceptLinkEvent, callerIdentified, hknown, hidle, hallowed, asStep, Except.map]
  refine ⟨?_, ?_⟩
  · simp only [step, hlink]
    exact ⟨⟨remoteIdentity, rfl⟩, hmem⟩
  · simp only [step, hlink]
    exact payloads_commandsFromActions hround link (some remoteIdentity) _

theorem start_refines (hround : RoundTrips readValue writeValue)
    {caller callee : TelephonyRuntimeCore} (hcaller : caller.lineBusy = false)
    (hcallee : callee.lineBusy = false) {callerIdentity : IdentityHash}
    (hallowed : callee.access.isAllowed callerIdentity = true) (calleeIdentity : IdentityHash)
    (profile : Option Profile) :
    Refines writeValue link
      (start readValue writeValue link caller callee callerIdentity calleeIdentity profile)
      (Handshake.start profile) := by
  obtain ⟨hdialled, hcarries, hsent⟩ :=
    @dial_runs readValue writeValue link caller hcaller calleeIdentity profile
  obtain ⟨hidle, haccess, hmem, hannounced⟩ :=
    @incoming_announces readValue writeValue link callee hround hcallee
  obtain ⟨hringing, hrung⟩ := identified_runs hround hidle hmem (haccess ▸ hallowed)
  have hquiet := List.forall₂_nil_right_iff.mp hsent
  refine ⟨hcarries, hringing, ?_, ?_⟩
  · simpa [start, onCaller, onCallee, Handshake.start] using List.rel_append hannounced hrung
  · simp [start, onCaller, onCallee, hdialled, hquiet, Handshake.start]

/-! ## The run -/

/-- An operation on the caller's core that runs the caller's call. -/
theorem Refines.onCaller {s : TwoCores} {h : Handshake} (hr : Refines writeValue link s h) {op : Op}
    {caller : CallState} {sent : List Signal}
    (hruns : Runs readValue writeValue link s.caller op (caller, sent)) :
    Refines writeValue link (TwoCores.onCaller readValue writeValue link s op)
      { h with caller, toCallee := h.toCallee ++ sent } :=
  ⟨hruns.1, hr.callee, hr.toCaller, List.rel_append hr.toCallee hruns.2⟩

/-- An operation on the callee's core that runs the callee's call. -/
theorem Refines.onCallee {s : TwoCores} {h : Handshake} (hr : Refines writeValue link s h) {op : Op}
    {callee : CallState} {sent : List Signal}
    (hruns : Runs readValue writeValue link s.callee op (callee, sent)) :
    Refines writeValue link (TwoCores.onCallee readValue writeValue link s op)
      { h with callee, toCaller := h.toCaller ++ sent } :=
  ⟨hr.caller, hruns.1, List.rel_append hr.toCaller hruns.2, hr.toCallee⟩

theorem toCallerOk_plain {answered : Bool} {m : Signal} (h : Handshake.ToCallerOk answered m) :
    ¬ m.Aliases ∧ m ≠ .status .busy ∧ m ≠ .status .rejected := by
  obtain rfl | rfl | ⟨-, rfl | rfl⟩ := h
  all_goals exact ⟨Signal.not_aliases_status _, by decide, by decide⟩

theorem toCalleeOk_plain {caller : CallState} {m : Signal} (h : Handshake.ToCalleeOk caller m) :
    ¬ m.Aliases ∧ m ≠ .status .busy ∧ m ≠ .status .rejected := by
  obtain ⟨p, rfl⟩ | ⟨rfl, -⟩ := h
  · exact ⟨Signal.not_aliases_preferredProfile p, nofun, nofun⟩
  · exact ⟨Signal.not_aliases_status _, by decide, by decide⟩

/-- A step of the cores is a run of the handshake. -/
theorem step_refines (hround : RoundTrips readValue writeValue) {s s' : TwoCores} {h : Handshake}
    (hr : Refines writeValue link s h) (hi : Handshake.Inv h)
    (hs : Step readValue writeValue link s s') :
    ∃ h', Relation.ReflTransGen Handshake.Step h h' ∧ Refines writeValue link s' h' := by
  cases hs with
  | answer => exact ⟨h.answer, .single (.answer h), hr.onCallee (answer_runs hround hr.callee)⟩
  | retryAnswer =>
    exact ⟨h.retryAnswer, .single (.retryAnswer h), hr.caller, hr.callee,
      List.rel_append hr.toCaller (retryAnswer_sends hround hr.callee), hr.toCallee⟩
  | callerElsewhere hop =>
    have hsame := hr.onCaller (@elsewhere_runs readValue _ _ _ _ hr.caller _ hop)
    rw [List.append_nil] at hsame
    exact ⟨h, .refl, hsame⟩
  | calleeElsewhere hop =>
    have hsame := hr.onCallee (@elsewhere_runs readValue _ _ _ _ hr.callee _ hop)
    rw [List.append_nil] at hsame
    exact ⟨h, .refl, hsame⟩
  | @deliverToCaller payload rest hflight =>
    obtain ⟨hcaller, hcallee, htoCaller, htoCallee⟩ := hr
    rw [hflight] at htoCaller
    obtain ⟨m, signals, hp, hrest, hm⟩ := List.forall₂_cons_left_iff.mp htoCaller
    have hmem : m ∈ h.toCaller := by simp [hm]
    obtain ⟨ha, hbusy, hrejected⟩ := toCallerOk_plain (hi.toCaller m hmem)
    have hread :
        Refines writeValue link { s with toCaller := rest } { h with toCaller := signals } :=
      ⟨hcaller, hcallee, hrest, htoCallee⟩
    exact ⟨h.callerReceives m signals, .single (.deliverToCaller hm),
      hread.onCaller (linkPacket_runs hround hcaller hp ha hbusy hrejected)⟩
  | @deliverToCallee payload rest hflight =>
    obtain ⟨hcaller, hcallee, htoCaller, htoCallee⟩ := hr
    rw [hflight] at htoCallee
    obtain ⟨m, signals, hp, hrest, hm⟩ := List.forall₂_cons_left_iff.mp htoCallee
    have hmem : m ∈ h.toCallee := by simp [hm]
    obtain ⟨ha, hbusy, hrejected⟩ := toCalleeOk_plain (hi.toCallee m hmem)
    have hread :
        Refines writeValue link { s with toCallee := rest } { h with toCallee := signals } :=
      ⟨hcaller, hcallee, htoCaller, hrest⟩
    exact ⟨h.calleeReceives m signals, .single (.deliverToCallee hm),
      hread.onCallee (linkPacket_runs hround hcallee hp ha hbusy hrejected)⟩
  | faultToCaller hf =>
    obtain ⟨hcaller, hcallee, htoCaller, htoCallee⟩ := hr
    obtain ⟨c, hfault, hc⟩ := hf.of_forall₂ htoCaller
    exact ⟨{ h with toCaller := c }, .single (.faultToCaller hfault),
      hcaller, hcallee, hc, htoCallee⟩
  | faultToCallee hf =>
    obtain ⟨hcaller, hcallee, htoCaller, htoCallee⟩ := hr
    obtain ⟨c, hfault, hc⟩ := hf.of_forall₂ htoCallee
    exact ⟨{ h with toCallee := c }, .single (.faultToCallee hfault),
      hcaller, hcallee, htoCaller, hc⟩

theorem reachable_refines (hround : RoundTrips readValue writeValue) {start : TwoCores}
    {profile : Option Profile} (hstart : Refines writeValue link start (Handshake.start profile))
    {s : TwoCores}
    (hs : Machine.Reachable (fun s => s = start) (Step readValue writeValue link) s) :
    ∃ h, Handshake.Reachable profile h ∧ Refines writeValue link s h := by
  refine Machine.Reachable.invariant
    (I := fun s => ∃ h, Handshake.Reachable profile h ∧ Refines writeValue link s h) ?_ ?_ hs
  · intro s h0
    exact ⟨_, Machine.Reachable.init rfl, h0 ▸ hstart⟩
  intro s s' ⟨h, ⟨h₀, hinit, hrun⟩, hr⟩ hstep
  have hi := Handshake.inv_reachable ⟨h₀, hinit, hrun⟩
  obtain ⟨h', hmore, hr'⟩ := step_refines hround hr hi hstep
  exact ⟨h', ⟨h₀, hinit, hrun.trans hmore⟩, hr'⟩

/-- **The cores run the handshake.** From two idle cores, whatever the channels lose, duplicate or
reorder and whatever comes in on other links: the cores' active calls and the payloads in flight are
a reachable state of the answer handshake. So an established callee has a caller that saw its offer,
and a caller past the answer has a callee that answered. -/
theorem two_cores_refine (hround : RoundTrips readValue writeValue)
    {caller callee : TelephonyRuntimeCore} (hcaller : caller.lineBusy = false)
    (hcallee : callee.lineBusy = false) {callerIdentity : IdentityHash}
    (hallowed : callee.access.isAllowed callerIdentity = true) (calleeIdentity : IdentityHash)
    (profile : Option Profile) {s : TwoCores}
    (hs : Machine.Reachable
      (fun s => s =
        start readValue writeValue link caller callee callerIdentity calleeIdentity profile)
      (Step readValue writeValue link) s) :
    ∃ h, Handshake.Reachable profile h ∧ Refines writeValue link s h ∧
      (h.callee.status = .established →
        h.caller.status = .connecting ∨ h.caller.status = .established) ∧
      (h.caller.status = .connecting ∨ h.caller.status = .established →
        h.callee.answered = true) := by
  obtain ⟨h, hreach, hr⟩ := reachable_refines hround
    (start_refines hround hcaller hcallee hallowed calleeIdentity profile) hs
  have hi := Handshake.inv_reachable hreach
  refine ⟨h, hreach, hr, fun he => ?_, fun hc => ?_⟩
  · exact CallState.inCall_iff.1 (hi.echoed he)
  · exact hi.offered (CallState.inCall_iff.2 hc)

/-- Two new cores, the call answered, with both halves of the offer in flight. -/
theorem two_cores_refine_answered :
    let link : LinkId := Vector.replicate 16 1
    let identity : IdentityHash := Vector.replicate 16 2
    let write := fun v => .ok (MsgPack.write v)
    let s := start firstValue write link .new .new identity identity none
    ∃ h, Handshake.Reachable none h ∧
      Refines write link (onCallee firstValue write link s (.answerActive link)) h ∧
      (h.callee.status = .established →
        h.caller.status = .connecting ∨ h.caller.status = .established) ∧
      (h.caller.status = .connecting ∨ h.caller.status = .established →
        h.callee.answered = true) :=
  have hround : RoundTrips firstValue fun v => .ok (MsgPack.write v) :=
    roundTrips_of_msgPack readsMsgPack_firstValue fun _ _ => rfl
  two_cores_refine hround rfl rfl rfl (Vector.replicate 16 2) none
    (Machine.Reachable.step (Machine.Reachable.init rfl) (.answer _))

end TwoCores

end Telephony

end Lxst
