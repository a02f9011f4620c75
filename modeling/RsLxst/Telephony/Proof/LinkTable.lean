import RsLxst.Lib.Machine
import RsLxst.Telephony.Proof.Runtime

/-!
# The link tables of the runtime core

`LinkTable core`: the ingress table holds exactly the pending links and the active call's link,
which is not pending. The tables change in four ways: a link is forgotten (`forgetOther`,
`forgetActive`), becomes pending (`letIn`) or becomes the active one (`promote`, `dial`). Every
operation keeps them and tears no live call's link down, unless a link event announces the active
call's link once more (`Undisturbed`): `step_sound_iff` is the step, `link_tables_iff` the run.
-/

set_option autoImplicit false

namespace Lxst

theorem CallState.teardownLink_notMem_receiveSignal (c : CallState) (s : Signal) :
    .teardownLink ∉ (c.receiveSignal s).2 := by
  intro h
  have := c.receiveSignal_inReply s _ h
  cases this

theorem CallState.teardownLink_notMem_switchProfile (c : CallState) (p : Profile) :
    .teardownLink ∉ (c.switchProfile p).2 := by
  unfold switchProfile
  split
  · simp
  · dsimp only
    split <;> simp

theorem CallState.teardownLink_notMem_answer (c : CallState) : .teardownLink ∉ c.answer.2 := by
  by_cases h : c.role = .incoming ∧ c.status = .ringing
  · rw [answer_ringing h.1 h.2]
    simp
  · rw [answer_other (by grind)]
    simp

namespace Telephony.TelephonyRuntimeCore

/-- A call's actions tear down the link of the call at most. -/
theorem teardownLink_mem_commandsFromActions {linkId l : LinkId}
    {remoteIdentity : Option IdentityHash} {actions : Actions} :
    .teardownLink l ∈ commandsFromActions linkId remoteIdentity actions ↔
      l = linkId ∧ .teardownLink ∈ actions := by
  unfold commandsFromActions
  rw [List.mem_filterMap]
  constructor
  · rintro ⟨action, hmem, he⟩
    cases action with
    | ringIncomingCall => cases remoteIdentity <;> cases he
    | teardownLink =>
      cases he
      exact ⟨rfl, hmem⟩
    | _ => cases he
  · rintro ⟨rfl, hmem⟩
    exact ⟨_, hmem, rfl⟩

/-! ## The invariant -/

/-- The links that a packet is accepted on are the pending ones and the active one. -/
structure LinkTable (core : TelephonyRuntimeCore) : Prop where
  nodup : core.pendingLinks.Nodup
  keys : ∀ l, l ∈ core.ingress ↔
    l ∈ core.pendingLinks ∨ ∃ active, core.activeCall = some active ∧ active.linkId = l
  apart : ∀ active, core.activeCall = some active → active.linkId ∉ core.pendingLinks

theorem new_linkTable : LinkTable new where
  nodup := List.nodup_nil
  keys l := by simp [new]
  apart := nofun

variable {core core' : TelephonyRuntimeCore}

theorem mem_ensureIngress {linkId l : LinkId} :
    l ∈ (core.ensureIngress linkId).ingress ↔ l = linkId ∨ l ∈ core.ingress := by
  unfold ensureIngress
  split
  · rename_i h
    have : linkId ∈ core.ingress := AList.lookup_isSome.1 (by rw [h]; rfl)
    constructor
    · exact .inr
    · rintro (rfl | h)
      · exact this
      · exact h
  · exact AList.mem_insert _

theorem ensureIngress_pendingLinks (linkId : LinkId) :
    (core.ensureIngress linkId).pendingLinks = core.pendingLinks := by
  unfold ensureIngress
  split <;> rfl

/-- The tables stay, and the active call keeps its link. -/
theorem LinkTable.of_same (h : LinkTable core) (hp : core'.pendingLinks = core.pendingLinks)
    (hk : ∀ l, l ∈ core'.ingress ↔ l ∈ core.ingress)
    (ha : core'.activeCall.map (·.linkId) = core.activeCall.map (·.linkId)) : LinkTable core' := by
  have hactive (l : LinkId) : (∃ active, core'.activeCall = some active ∧ active.linkId = l) ↔
      ∃ active, core.activeCall = some active ∧ active.linkId = l := by
    rw [← Option.map_eq_some_iff, ha, Option.map_eq_some_iff]
  refine ⟨hp ▸ h.nodup, fun l => ?_, fun active ha' => ?_⟩
  · rw [hk, h.keys, hp, hactive]
  · obtain ⟨active', h1, h2⟩ := (hactive active.linkId).1 ⟨active, ha', rfl⟩
    rw [hp, ← h2]
    exact h.apart active' h1

/-- A link other than the active one is forgotten. -/
theorem LinkTable.forgetOther (h : LinkTable core) {linkId : LinkId}
    (hn : ∀ active, core.activeCall = some active → active.linkId ≠ linkId) :
    LinkTable (core.forgetLink linkId) := by
  refine ⟨h.nodup.erase _, fun l => ?_, fun active ha => ?_⟩
  · show l ∈ core.ingress.erase linkId ↔ l ∈ core.pendingLinks.erase linkId ∨ _
    rw [AList.mem_erase, h.nodup.mem_erase_iff, h.keys]
    constructor
    · rintro ⟨hl, hp | ha⟩
      · exact .inl ⟨hl, hp⟩
      · exact .inr ha
    · rintro (⟨hl, hp⟩ | ⟨active, ha, rfl⟩)
      · exact ⟨hl, .inl hp⟩
      · exact ⟨hn active ha, .inr ⟨active, ha, rfl⟩⟩
  · intro hm
    exact h.apart active ha (List.mem_of_mem_erase hm)

/-- The active call ends and its link is forgotten. -/
theorem LinkTable.forgetActive (h : LinkTable core) {active : ActiveCall}
    (ha : core.activeCall = some active) :
    LinkTable ({ core with activeCall := none }.forgetLink active.linkId) := by
  refine ⟨h.nodup.erase _, fun l => ?_, nofun⟩
  show l ∈ core.ingress.erase active.linkId ↔ l ∈ core.pendingLinks.erase active.linkId ∨ _
  rw [AList.mem_erase, h.nodup.mem_erase_iff, h.keys]
  constructor
  · rintro ⟨hl, hp | ⟨active', ha', rfl⟩⟩
    · exact .inl ⟨hl, hp⟩
    · rw [ha] at ha'
      cases ha'
      exact absurd rfl hl
  · rintro (⟨hl, hp⟩ | ⟨active', ha', -⟩)
    · exact ⟨hl, .inl hp⟩
    · cases ha'

/-- A link becomes pending while there is no call. -/
theorem LinkTable.letIn (h : LinkTable core) (hn : core.activeCall = none) (linkId : LinkId) :
    LinkTable ({ core with pendingLinks := core.pendingLinks.insert linkId }.ensureIngress
      linkId) := by
  refine ⟨?_, fun l => ?_, fun active ha => ?_⟩
  · rw [ensureIngress_pendingLinks]
    exact h.nodup.insert
  · rw [mem_ensureIngress, ensureIngress_pendingLinks, ensureIngress_activeCall,
      List.mem_insert_iff]
    show l = linkId ∨ l ∈ core.ingress ↔ _
    rw [h.keys]
    tauto
  · rw [ensureIngress_activeCall] at ha
    rw [show core.activeCall = some active from ha] at hn
    cases hn

/-- A known link becomes the active one. -/
theorem LinkTable.promote (h : LinkTable core) (hn : core.activeCall = none) (active : ActiveCall)
    (hk : active.linkId ∈ core.ingress) :
    LinkTable { core with
      pendingLinks := core.pendingLinks.erase active.linkId
      activeCall := some active } := by
  have hp (l : LinkId) : l ∈ core.ingress ↔ l ∈ core.pendingLinks := by
    rw [h.keys, hn]
    simp
  refine ⟨h.nodup.erase _, fun l => ?_, ?_⟩
  · show l ∈ core.ingress ↔ l ∈ core.pendingLinks.erase active.linkId ∨ _
    rw [h.nodup.mem_erase_iff, hp]
    simp only [Option.some.injEq, exists_eq_left']
    constructor
    · intro hl
      by_cases he : active.linkId = l
      · exact .inr he
      · exact .inl ⟨Ne.symm he, hl⟩
    · rintro (⟨-, hl⟩ | rfl)
      · exact hl
      · exact (hp _).1 hk
  · rintro _ ⟨⟩ hm
    exact (h.nodup.mem_erase_iff.1 hm).1 rfl

/-- A fresh link becomes the active one. -/
theorem LinkTable.dial (h : LinkTable core) (hn : core.activeCall = none) (active : ActiveCall)
    (hf : active.linkId ∉ core.pendingLinks) :
    LinkTable { core.ensureIngress active.linkId with activeCall := some active } := by
  refine ⟨?_, fun l => ?_, ?_⟩
  · show (core.ensureIngress active.linkId).pendingLinks.Nodup
    rw [ensureIngress_pendingLinks]
    exact h.nodup
  · show l ∈ (core.ensureIngress active.linkId).ingress ↔
      l ∈ (core.ensureIngress active.linkId).pendingLinks ∨ _
    rw [mem_ensureIngress, ensureIngress_pendingLinks, h.keys, hn]
    simp only [reduceCtorEq, false_and, Option.some.injEq, exists_eq_left']
    tauto
  · rintro _ ⟨⟩
    show active.linkId ∉ (core.ensureIngress active.linkId).pendingLinks
    rw [ensureIngress_pendingLinks]
    exact hf

/-! ## One operation -/

/-- The link tables after an operation, and no teardown of the link of the call it leaves. -/
def Sound (readValue : List UInt8 → Except String MsgPack.Value) (core : TelephonyRuntimeCore)
    (op : Op) : Prop :=
  LinkTable (core.step readValue op).1 ∧
    ∀ active, (core.step readValue op).1.activeCall = some active →
      .teardownLink active.linkId ∉ (core.step readValue op).2

/-- A call is started on a link that is not in use. -/
def Fresh (core : TelephonyRuntimeCore) : Op → Prop
  | .startOutgoingCall linkId _ _ => linkId ∉ core.pendingLinks ∧ linkId ∉ core.ingress
  | _ => True

instance (core : TelephonyRuntimeCore) (op : Op) : Decidable (Fresh core op) := by
  cases op <;> unfold Fresh <;> infer_instance

/-- No link event announces the active call's link once more: not its remote, nor its
establishment, but for `linkEstablished` of an outgoing call. -/
def Undisturbed (core : TelephonyRuntimeCore) : Op → Prop
  | .acceptLinkEvent (.remoteIdentified linkId _)
  | .acceptLinkEvent (.incomingLinkEstablished linkId) =>
    core.activeCall.all (·.linkId ≠ linkId) = true
  | .acceptLinkEvent (.linkEstablished linkId) =>
    core.activeCall.all (fun active => active.linkId = linkId → active.call.role = .outgoing) = true
  | _ => True

instance (core : TelephonyRuntimeCore) (op : Op) : Decidable (Undisturbed core op) := by
  unfold Undisturbed
  split <;> infer_instance

/-! ### The signals of a packet -/

/-- Signals keep the tables; if the call survives them, nothing is torn down. -/
def Kept (core : TelephonyRuntimeCore) (result : Except Error (List TelephonyCommand))
    (core' : TelephonyRuntimeCore) : Prop :=
  LinkTable core' ∧ (core'.activeCall.isSome → core.activeCall.isSome ∧
    ∀ l, .teardownLink l ∉ returned result)

theorem receiveSignal_kept (h : LinkTable core) (linkId : LinkId) (signal : Signal) :
    Kept core (core.receiveSignal linkId signal).1 (core.receiveSignal linkId signal).2 := by
  unfold receiveSignal
  cases hactive : core.activeCall with
  | none => exact ⟨h, fun ha => by rw [hactive] at ha; cases ha⟩
  | some active =>
    dsimp only
    split
    · refine ⟨h, fun _ => ⟨by rw [hactive]; rfl, ?_⟩⟩
      simp [returned]
    rename_i hlink
    rw [not_not] at hlink
    split
    · rw [← hlink]
      exact ⟨h.forgetActive hactive, nofun⟩
    · refine ⟨h.of_same rfl (fun _ => Iff.rfl) (by rw [hactive]; rfl), fun _ => ⟨by rw [hactive]; rfl,
        fun l hl => ?_⟩⟩
      exact active.call.teardownLink_notMem_receiveSignal signal
        (teardownLink_mem_commandsFromActions.1 hl).2

theorem receiveSignals_kept (h : LinkTable core) (linkId : LinkId) (signals : List Signal) :
    Kept core (core.receiveSignals linkId signals).1 (core.receiveSignals linkId signals).2 := by
  induction signals generalizing core with
  | nil => exact ⟨h, fun ha => ⟨ha, by simp [receiveSignals, returned]⟩⟩
  | cons signal signals ih =>
    have hhead := receiveSignal_kept h linkId signal
    unfold receiveSignals
    generalize core.receiveSignal linkId signal = head at hhead ⊢
    rcases head with ⟨error | commands, core₁⟩
    · exact hhead
    have htail := ih hhead.1
    dsimp only
    generalize core₁.receiveSignals linkId signals = tail at htail ⊢
    rcases tail with ⟨error | rest, core₂⟩
    · refine ⟨htail.1, fun ha => ⟨(hhead.2 (htail.2 ha).1).1, by simp [returned]⟩⟩
    · refine ⟨htail.1, fun ha => ?_⟩
      obtain ⟨h1, hrest⟩ := htail.2 ha
      obtain ⟨h0, hcommands⟩ := hhead.2 h1
      refine ⟨h0, fun l hl => ?_⟩
      rcases List.mem_append.1 hl with hl | hl
      · exact hcommands l hl
      · exact hrest l hl

theorem acceptLxstPlaintext_kept (readValue : List UInt8 → Except String MsgPack.Value)
    (h : LinkTable core) (linkId : LinkId) (payload : List UInt8) :
    Kept core ((core.acceptLxstPlaintext readValue linkId payload).1.map (·.commands))
      (core.acceptLxstPlaintext readValue linkId payload).2 := by
  have failed (error : Error) : Kept core (.error error) core :=
    ⟨h, fun ha => ⟨ha, by simp [returned]⟩⟩
  unfold acceptLxstPlaintext
  split
  · exact failed _
  rename_i ingress hingress
  split
  · exact failed _
  rename_i inbound ingress' _
  dsimp only
  -- a packet replaces the ingress of its link, so the keys stay
  have hmem : linkId ∈ core.ingress := AList.lookup_isSome.1 (by rw [hingress]; rfl)
  have hsame : LinkTable { core with ingress := core.ingress.insert linkId ingress' } := by
    refine h.of_same rfl (fun l => ?_) rfl
    rw [AList.mem_insert]
    exact ⟨fun hl => hl.elim (fun he => he ▸ hmem) id, .inr⟩
  have hsignals := receiveSignals_kept hsame linkId inbound.packet.signals
  generalize receiveSignals _ linkId inbound.packet.signals = result at hsignals ⊢
  rcases result with ⟨error | commands, core'⟩
  · exact ⟨hsignals.1, fun ha => ⟨(hsignals.2 ha).1, by simp [Except.map, returned]⟩⟩
  · exact hsignals

/-! ### The other link events -/

/-- A new link is let in, or refused and torn down while the line is busy. -/
theorem incomingLinkEstablished_cases (core : TelephonyRuntimeCore) (linkId : LinkId) :
    core.lineBusy = true ∧ core.incomingLinkEstablished linkId =
        ([.sendSignal linkId (.status .busy), .teardownLink linkId], core) ∨
      core.lineBusy = false ∧ core.incomingLinkEstablished linkId =
        ([.sendSignal linkId (.status .available)],
          { core with pendingLinks := core.pendingLinks.insert linkId }.ensureIngress linkId) := by
  unfold incomingLinkEstablished
  cases core.lineBusy with
  | true => exact .inl ⟨rfl, rfl⟩
  | false => exact .inr ⟨rfl, rfl⟩

/-- A remote is unknown, or refused and its link torn down, or let in. -/
theorem callerIdentified_cases (core : TelephonyRuntimeCore) (linkId : LinkId)
    (remoteIdentity : IdentityHash) :
    (linkId ∉ core.pendingLinks ∧ linkId ∉ core.ingress) ∧
        core.callerIdentified linkId remoteIdentity = (.error .unknownLink, core) ∨
      (linkId ∈ core.pendingLinks ∨ linkId ∈ core.ingress) ∧
        ((core.lineBusy = true ∨ core.access.isAllowed remoteIdentity = false) ∧
            core.callerIdentified linkId remoteIdentity =
              (.ok [.sendSignal linkId (.status .busy), .teardownLink linkId],
                core.forgetLink linkId) ∨
          core.lineBusy = false ∧ ∃ commands, (∀ l, .teardownLink l ∉ commands) ∧
            core.callerIdentified linkId remoteIdentity =
              (.ok commands,
                { core with
                  pendingLinks := core.pendingLinks.erase linkId
                  activeCall := some ⟨linkId, remoteIdentity,
                    (CallState.incoming.callerIdentified false true).1⟩ })) := by
  have hlookup : (core.ingress.lookup linkId).isNone = true ↔ linkId ∉ core.ingress := by
    rw [Option.isNone_iff_eq_none, AList.lookup_eq_none]
  have hpending : (!core.pendingLinks.contains linkId) = true ↔ linkId ∉ core.pendingLinks := by
    simp
  by_cases hknown : linkId ∉ core.pendingLinks ∧ linkId ∉ core.ingress
  · refine .inl ⟨hknown, ?_⟩
    unfold callerIdentified
    rw [if_pos ⟨hpending.2 hknown.1, hlookup.2 hknown.2⟩]
  · refine .inr ⟨by tauto, ?_⟩
    have hn : ¬ ((!core.pendingLinks.contains linkId) = true ∧
        (core.ingress.lookup linkId).isNone = true) := by rwa [hpending, hlookup]
    unfold callerIdentified
    rw [if_neg hn]
    cases hbusy : core.lineBusy with
    | true => exact .inl ⟨.inl rfl, by simp [CallState.callerIdentified, commandsFromActions]⟩
    | false =>
      cases hallowed : core.access.isAllowed remoteIdentity with
      | false => exact .inl ⟨.inr rfl, by simp [CallState.callerIdentified, commandsFromActions]⟩
      | true =>
        refine .inr ⟨rfl, _, fun l hl => ?_, rfl⟩
        have := (teardownLink_mem_commandsFromActions.1 hl).2
        simp at this

theorem linkClosed_linkTable (h : LinkTable core) (linkId : LinkId) :
    LinkTable (core.linkClosed linkId).2 ∧ ∀ l, .teardownLink l ∉ (core.linkClosed linkId).1 := by
  obtain ⟨active, hactive, rfl, hclosed⟩ | ⟨hother, hclosed⟩ := linkClosed_cases core linkId
  · rw [hclosed]
    exact ⟨h.forgetActive hactive, by simp⟩
  · rw [hclosed]
    exact ⟨h.forgetOther hother, by simp⟩

theorem outgoingLinkEstablished_linkTable (h : LinkTable core) (linkId : LinkId) :
    LinkTable (core.outgoingLinkEstablished linkId).2 := by
  unfold outgoingLinkEstablished
  split
  · exact h
  rename_i active hactive
  split
  · exact h
  · rename_i hlink
    rw [not_not] at hlink
    have hmem : linkId ∈ core.ingress := (h.keys _).2 (.inr ⟨active, hactive, hlink⟩)
    refine h.of_same (ensureIngress_pendingLinks _) (fun l => ?_)
      (by rw [ensureIngress_activeCall])
    rw [mem_ensureIngress]
    exact ⟨fun hl => hl.elim (fun he => he ▸ hmem) id, .inr⟩

/-! ### The step -/

variable (readValue : List UInt8 → Except String MsgPack.Value)

/-- Announcing a link as a new incoming one is sound unless it is the active call's. -/
theorem letIn_sound_iff (h : LinkTable core) (linkId : LinkId) :
    (LinkTable (core.incomingLinkEstablished linkId).2 ∧
      ∀ active, (core.incomingLinkEstablished linkId).2.activeCall = some active →
        .teardownLink active.linkId ∉ (core.incomingLinkEstablished linkId).1) ↔
      core.activeCall.all (·.linkId ≠ linkId) = true := by
  rcases incomingLinkEstablished_cases core linkId with ⟨-, he⟩ | ⟨hidle, he⟩ <;> rw [he]
  · cases core.activeCall <;> simp [h]
  · have hn := activeCall_of_idle hidle
    refine ⟨fun _ => by simp [hn], fun _ => ⟨h.letIn hn linkId, by simp⟩⟩

theorem remoteIdentified_sound_iff (h : LinkTable core) (linkId : LinkId)
    (remoteIdentity : IdentityHash) :
    Sound readValue core (.acceptLinkEvent (.remoteIdentified linkId remoteIdentity)) ↔
      Undisturbed core (.acceptLinkEvent (.remoteIdentified linkId remoteIdentity)) := by
  have heq : core.step readValue (.acceptLinkEvent (.remoteIdentified linkId remoteIdentity)) =
      ((core.callerIdentified linkId remoteIdentity).2,
        returned (core.callerIdentified linkId remoteIdentity).1) := by
    simp only [step, acceptLinkEvent, asStep]
    cases (core.callerIdentified linkId remoteIdentity).1 <;> rfl
  unfold Sound
  rw [heq]
  show _ ↔ core.activeCall.all (·.linkId ≠ linkId) = true
  rcases callerIdentified_cases core linkId remoteIdentity with
    ⟨⟨-, hunknown⟩, he⟩ | ⟨hknown, ⟨-, he⟩ | ⟨hidle, commands, hquiet, he⟩⟩ <;> rw [he]
  · refine ⟨fun _ => ?_, fun _ => ⟨h, by simp [returned]⟩⟩
    rw [Option.all_eq_true]
    intro active ha
    rw [decide_eq_true_eq]
    rintro rfl
    exact hunknown ((h.keys _).2 (.inr ⟨active, ha, rfl⟩))
  · constructor
    · rintro ⟨-, hnot⟩
      rw [Option.all_eq_true]
      intro active ha
      rw [decide_eq_true_eq]
      rintro rfl
      exact hnot active ha (by simp [returned])
    · intro hn
      rw [Option.all_eq_true] at hn
      have hne (active : ActiveCall) (ha : core.activeCall = some active) :
          active.linkId ≠ linkId := of_decide_eq_true (hn active ha)
      refine ⟨h.forgetOther hne, fun active ha hm => ?_⟩
      simp [returned] at hm
      exact hne active ha hm
  · have hn := activeCall_of_idle hidle
    refine ⟨fun _ => by simp [hn], fun _ => ⟨?_, fun active _ hm => hquiet _ hm⟩⟩
    refine h.promote hn ⟨linkId, remoteIdentity, _⟩ ?_
    exact hknown.elim (fun hp => (h.keys _).2 (.inl hp)) id

theorem linkEstablished_sound_iff (h : LinkTable core) (linkId : LinkId) :
    Sound readValue core (.acceptLinkEvent (.linkEstablished linkId)) ↔
      Undisturbed core (.acceptLinkEvent (.linkEstablished linkId)) := by
  show _ ↔ core.activeCall.all
    (fun active => active.linkId = linkId → active.call.role = .outgoing) = true
  by_cases hout : core.activeCall.any
      (fun active => active.linkId = linkId ∧ active.call.role = .outgoing) = true
  · have heq : core.step readValue (.acceptLinkEvent (.linkEstablished linkId)) =
        ((core.outgoingLinkEstablished linkId).2, []) := by
      simp only [step, acceptLinkEvent, if_pos hout, asStep]
      cases (core.outgoingLinkEstablished linkId).1 <;> rfl
    unfold Sound
    rw [heq]
    refine ⟨fun _ => ?_, fun _ => ⟨outgoingLinkEstablished_linkTable h linkId, by simp⟩⟩
    cases ha : core.activeCall with
    | none => rfl
    | some active => simp_all
  · have heq : core.step readValue (.acceptLinkEvent (.linkEstablished linkId)) =
        ((core.incomingLinkEstablished linkId).2, (core.incomingLinkEstablished linkId).1) := by
      simp only [step, acceptLinkEvent, if_neg hout, asStep]
      rfl
    unfold Sound
    rw [heq, letIn_sound_iff h linkId]
    cases ha : core.activeCall with
    | none => rfl
    | some active =>
      rw [ha] at hout
      simp only [Option.any_some, decide_eq_true_eq, not_and] at hout
      simp only [Option.all_some, decide_eq_true_eq]
      exact ⟨fun hn he => absurd he hn, fun hr he => hout he (hr he)⟩

theorem acceptLinkEvent_sound_iff (h : LinkTable core) (event : TelephonyLinkEvent) :
    Sound readValue core (.acceptLinkEvent event) ↔ Undisturbed core (.acceptLinkEvent event) := by
  cases event with
  | linkEstablished linkId => exact linkEstablished_sound_iff readValue h linkId
  | incomingLinkEstablished linkId => exact letIn_sound_iff h linkId
  | outgoingLinkEstablished linkId =>
    have heq : core.step readValue (.acceptLinkEvent (.outgoingLinkEstablished linkId)) =
        ((core.outgoingLinkEstablished linkId).2, []) := by
      simp only [step, acceptLinkEvent, asStep]
      cases (core.outgoingLinkEstablished linkId).1 <;> rfl
    unfold Sound
    rw [heq]
    exact ⟨fun _ => trivial, fun _ => ⟨outgoingLinkEstablished_linkTable h linkId, by simp⟩⟩
  | remoteIdentified linkId remoteIdentity =>
    exact remoteIdentified_sound_iff readValue h linkId remoteIdentity
  | linkPacket linkId plaintext =>
    obtain ⟨htable, hquiet⟩ := acceptLxstPlaintext_kept readValue h linkId plaintext
    refine ⟨fun _ => trivial, fun _ => ⟨htable, fun active ha => ?_⟩⟩
    exact (hquiet (Option.isSome_iff_exists.2 ⟨active, ha⟩)).2 _
  | linkClosed linkId =>
    obtain ⟨htable, hquiet⟩ := linkClosed_linkTable h linkId
    exact ⟨fun _ => trivial, fun _ => ⟨htable, fun active _ => hquiet _⟩⟩

theorem startOutgoingCall_linkTable (h : LinkTable core) {linkId : LinkId}
    (hf : linkId ∉ core.pendingLinks) (remoteIdentity : IdentityHash) (profile : Option Profile) :
    LinkTable (core.startOutgoingCall linkId remoteIdentity profile).2 := by
  unfold startOutgoingCall
  split
  · exact h
  · rename_i hidle
    rw [Bool.not_eq_true] at hidle
    exact h.dial (activeCall_of_idle hidle) ⟨linkId, remoteIdentity, .outgoing profile⟩ hf

theorem answerActive_sound (h : LinkTable core) (linkId : LinkId) :
    Sound readValue core (.answerActive linkId) := by
  show LinkTable (core.answerActive linkId).2 ∧ ∀ active,
    (core.answerActive linkId).2.activeCall = some active →
      .teardownLink active.linkId ∉ returned (core.answerActive linkId).1
  unfold answerActive
  split
  · exact ⟨h, by simp [returned]⟩
  rename_i active hactive
  split
  · exact ⟨h, by simp [returned]⟩
  split
  · exact ⟨h, by simp [returned]⟩
  · refine ⟨h.of_same rfl (fun _ => Iff.rfl) (by rw [hactive]; rfl), fun _ _ hm => ?_⟩
    exact active.call.teardownLink_notMem_answer (teardownLink_mem_commandsFromActions.1 hm).2

theorem switchActiveProfile_sound (h : LinkTable core) (profile : Profile) :
    Sound readValue core (.switchActiveProfile profile) := by
  show LinkTable (core.switchActiveProfile profile).2 ∧ ∀ active,
    (core.switchActiveProfile profile).2.activeCall = some active →
      .teardownLink active.linkId ∉ returned (core.switchActiveProfile profile).1
  unfold switchActiveProfile
  split
  · exact ⟨h, by simp [returned]⟩
  rename_i active hactive
  split
  · exact ⟨h, by simp [returned]⟩
  · refine ⟨h.of_same rfl (fun _ => Iff.rfl) (by rw [hactive]; rfl), fun _ _ hm => ?_⟩
    exact active.call.teardownLink_notMem_switchProfile profile
      (teardownLink_mem_commandsFromActions.1 hm).2

theorem retryAnswerActive_sound (h : LinkTable core) (linkId : LinkId) :
    Sound readValue core (.retryAnswerActive linkId) := by
  refine ⟨h, fun active _ hm => ?_⟩
  obtain ⟨link, signal, hsignal⟩ := mem_retryAnswerActive hm
  cases hsignal

theorem terminateActive_sound (h : LinkTable core) (ringTimeout : Bool)
    (reason : Option SignallingStatus) :
    LinkTable (core.terminateActive ringTimeout reason).2 ∧ ∀ active,
      (core.terminateActive ringTimeout reason).2.activeCall = some active →
        .teardownLink active.linkId ∉ returned (core.terminateActive ringTimeout reason).1 := by
  unfold terminateActive
  cases hactive : core.activeCall with
  | none => exact ⟨h, by simp [hactive]⟩
  | some active => exact ⟨h.forgetActive hactive, nofun⟩

theorem timeoutAnswerActive_sound (h : LinkTable core) (linkId : LinkId) :
    Sound readValue core (.timeoutAnswerActive linkId) := by
  show LinkTable (core.timeoutAnswerActive linkId).2 ∧ ∀ active,
    (core.timeoutAnswerActive linkId).2.activeCall = some active →
      .teardownLink active.linkId ∉ returned (core.timeoutAnswerActive linkId).1
  obtain ⟨error, he⟩ | he := timeoutAnswerActive_eq core linkId
  · rw [he]
    exact ⟨h, by simp [returned]⟩
  · rw [he]
    exact terminateActive_sound h false _

theorem shutdown_sound (core : TelephonyRuntimeCore) : Sound readValue core .shutdown := by
  have hnone : core.shutdown.2.activeCall = none := (shutdown_cases core).1
  have hpending : core.shutdown.2.pendingLinks = [] := rfl
  have hingress : core.shutdown.2.ingress = ∅ := rfl
  show LinkTable core.shutdown.2 ∧ ∀ active, core.shutdown.2.activeCall = some active →
    .teardownLink active.linkId ∉ core.shutdown.1
  refine ⟨⟨?_, fun l => ?_, ?_⟩, ?_⟩ <;> simp [hnone, hpending, hingress]

/-- **One operation on a core with its tables in order** keeps them so and spares the live call's
link exactly when it does not announce that link once more. -/
theorem step_sound_iff (h : LinkTable core) {op : Op} (hf : Fresh core op) :
    Sound readValue core op ↔ Undisturbed core op := by
  cases op with
  | acceptLinkEvent event => exact acceptLinkEvent_sound_iff readValue h event
  | startOutgoingCall linkId remoteIdentity profile =>
    exact ⟨fun _ => trivial, fun _ => ⟨startOutgoingCall_linkTable h hf.1 _ _, by simp [step]⟩⟩
  | answerActive linkId => exact ⟨fun _ => trivial, fun _ => answerActive_sound readValue h linkId⟩
  | retryAnswerActive linkId =>
    exact ⟨fun _ => trivial, fun _ => retryAnswerActive_sound readValue h linkId⟩
  | timeoutAnswerActive linkId =>
    exact ⟨fun _ => trivial, fun _ => timeoutAnswerActive_sound readValue h linkId⟩
  | switchActiveProfile profile =>
    exact ⟨fun _ => trivial, fun _ => switchActiveProfile_sound readValue h profile⟩
  | hangupActive ringTimeout =>
    exact ⟨fun _ => trivial, fun _ => terminateActive_sound h ringTimeout none⟩
  | shutdown => exact ⟨fun _ => trivial, fun _ => shutdown_sound readValue core⟩
  | setExternalBusy busy =>
    exact ⟨fun _ => trivial, fun _ => ⟨h.of_same rfl (fun _ => Iff.rfl) rfl, by simp [step]⟩⟩
  | setAccessPolicy access =>
    exact ⟨fun _ => trivial, fun _ => ⟨h.of_same rfl (fun _ => Iff.rfl) rfl, by simp [step]⟩⟩

/-- **The link tables**, in every run of a new core whose calls are started on fresh links: every
operation leaves the tables in order and tears no live call's link down, exactly when none of its
link events announces the active call's link once more. -/
theorem link_tables_iff (ops : List Op)
    (hfresh : Machine.Admits Fresh (fun core op => (core.step readValue op).1) new ops) :
    Machine.Admits (Sound readValue) (fun core op => (core.step readValue op).1) new ops ↔
      Machine.Admits Undisturbed (fun core op => (core.step readValue op).1) new ops :=
  Machine.Admits.congr (I := LinkTable) (fun _ _ h hf => step_sound_iff readValue h hf)
    (fun _ _ _ _ hs => hs.1) hfresh new_linkTable

/-- A caller is let in and answered, another one is refused, and the call is hung up. -/
theorem link_tables_answered :
    let readValue : List UInt8 → Except String MsgPack.Value := fun _ => .error ""
    Machine.Admits (Sound readValue) (fun core op => (core.step readValue op).1) new
      [.acceptLinkEvent (.linkEstablished (.replicate 16 1)),
        .acceptLinkEvent (.linkEstablished (.replicate 16 2)),
        .acceptLinkEvent (.remoteIdentified (.replicate 16 1) (.replicate 16 7)),
        .answerActive (.replicate 16 1),
        .acceptLinkEvent (.remoteIdentified (.replicate 16 2) (.replicate 16 8)),
        .hangupActive false, .startOutgoingCall (.replicate 16 3) (.replicate 16 8) none] :=
  (link_tables_iff _ _ (by decide +kernel)).2 (by decide +kernel)

/-- A remote that identifies itself twice: the call it is in stays active, its link is torn down
and its packets are no longer accepted. -/
theorem identified_again_tears_down :
    let readValue : List UInt8 → Except String MsgPack.Value := fun _ => .error ""
    let ops : List Op :=
      [.acceptLinkEvent (.linkEstablished (.replicate 16 1)),
        .acceptLinkEvent (.remoteIdentified (.replicate 16 1) (.replicate 16 7)),
        .acceptLinkEvent (.remoteIdentified (.replicate 16 1) (.replicate 16 7))]
    let core := Machine.run (step readValue) new ops
    Machine.Admits Fresh (fun core op => (core.step readValue op).1) new ops ∧
      core.activeCall.map (·.linkId) = some (.replicate 16 1) ∧
      .replicate 16 1 ∉ core.ingress ∧
      ¬ Machine.Admits (Sound readValue) (fun core op => (core.step readValue op).1) new ops := by
  refine ⟨by decide +kernel, by decide +kernel, by decide +kernel, ?_⟩
  rintro ⟨-, -, ⟨-, hquiet⟩, -⟩
  exact hquiet _ rfl (by decide +kernel)

end Telephony.TelephonyRuntimeCore

end Lxst
