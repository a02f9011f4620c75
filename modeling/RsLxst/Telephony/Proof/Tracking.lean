import RsLxst.Telephony.Proof.LinkTable

/-!
# Every announced link is accounted for

A core tracks a link that is pending, has an ingress or carries the active call (`Tracked`), and no
link has an ingress that is not pending or active (`Covered`). An operation loses a tracked link
only with a close event, a teardown command or a failed packet on that link (`step_accounts`). So
over a whole run a link that was announced is tracked, or there was such a reason
(`announced_links_accounted`).
-/

set_option autoImplicit false

namespace Lxst.Telephony.TelephonyRuntimeCore

variable {core core' core'' : TelephonyRuntimeCore} {linkId link : LinkId}

/-- The active call is on the link. -/
def OnCall (core : TelephonyRuntimeCore) (link : LinkId) : Prop :=
  ∃ active, core.activeCall = some active ∧ active.linkId = link

def Tracked (core : TelephonyRuntimeCore) (link : LinkId) : Prop :=
  link ∈ core.pendingLinks ∨ link ∈ core.ingress ∨ core.OnCall link

def Covered (core : TelephonyRuntimeCore) : Prop :=
  ∀ link ∈ core.ingress, link ∈ core.pendingLinks ∨ core.OnCall link

/-- The links a step may lose: it keeps every other one, and leaves no ingress behind. -/
structure Accounts (lost : LinkId → Prop) (core core' : TelephonyRuntimeCore) : Prop where
  covered : Covered core → Covered core'
  tracked : Covered core → ∀ link, Tracked core link → Tracked core' link ∨ lost link

/-! ## Rules -/

section
variable {lost lost' : LinkId → Prop}

theorem Accounts.mono (h : Accounts lost core core') (hl : ∀ link, lost link → lost' link) :
    Accounts lost' core core' :=
  ⟨h.covered, fun hc link ht => (h.tracked hc link ht).imp_right (hl link)⟩

theorem Accounts.trans (h : Accounts lost core core') (h' : Accounts lost core' core'') :
    Accounts lost core core'' := by
  refine ⟨fun hc => h'.covered (h.covered hc), ?_⟩
  intro hc link ht
  obtain ht' | hl := h.tracked hc link ht
  · exact h'.tracked (h.covered hc) link ht'
  · exact .inr hl

/-- The tables stay, and the active call keeps its link. -/
theorem Accounts.of_same (hp : core'.pendingLinks = core.pendingLinks)
    (hk : ∀ l, l ∈ core'.ingress ↔ l ∈ core.ingress)
    (ha : core'.activeCall.map (·.linkId) = core.activeCall.map (·.linkId)) :
    Accounts lost core core' := by
  have hactive (l : LinkId) : core'.OnCall l ↔ core.OnCall l := by
    unfold OnCall
    rw [← Option.map_eq_some_iff, ha, Option.map_eq_some_iff]
  refine ⟨?_, ?_⟩
  · intro hc l hl
    rw [hp, hactive]
    exact hc l ((hk l).mp hl)
  · intro _ l ht
    unfold Tracked
    rw [hp, hk, hactive]
    exact .inl ht

theorem Accounts.refl (core : TelephonyRuntimeCore) : Accounts lost core core :=
  of_same rfl (fun _ => Iff.rfl) rfl

theorem Accounts.forgetLink (core : TelephonyRuntimeCore) (linkId : LinkId) :
    Accounts (· = linkId) core (core.forgetLink linkId) := by
  refine ⟨?_, ?_⟩
  · intro hc l hl
    obtain ⟨hne, hmem⟩ := AList.mem_erase.mp hl
    exact (hc l hmem).imp_left (List.mem_erase_of_ne hne).mpr
  · intro _ l ht
    by_cases hne : l = linkId
    · exact .inr hne
    · exact .inl (ht.imp (List.mem_erase_of_ne hne).mpr
        (Or.imp_left fun hmem => AList.mem_erase.mpr ⟨hne, hmem⟩))

/-- The active call ends and its link is forgotten. -/
theorem Accounts.endCall {active : ActiveCall} (ha : core.activeCall = some active) :
    Accounts (· = active.linkId) core
      ({ core with activeCall := none }.forgetLink active.linkId) := by
  have hactive {l : LinkId} (h : core.OnCall l) : l = active.linkId := by
    obtain ⟨active', ha', rfl⟩ := h
    rw [ha] at ha'
    cases ha'
    rfl
  refine ⟨?_, ?_⟩
  · intro hc l hl
    obtain ⟨hne, hmem⟩ := AList.mem_erase.mp hl
    obtain hp | hcall := hc l hmem
    · exact .inl ((List.mem_erase_of_ne hne).mpr hp)
    · exact absurd (hactive hcall) hne
  · intro _ l ht
    by_cases hne : l = active.linkId
    · exact .inr hne
    · obtain hp | hmem | hcall := ht
      · exact .inl (.inl ((List.mem_erase_of_ne hne).mpr hp))
      · exact .inl (.inr (.inl (AList.mem_erase.mpr ⟨hne, hmem⟩)))
      · exact absurd (hactive hcall) hne

/-- A link that is pending or active gets an ingress. -/
theorem Accounts.ensureIngress (h : linkId ∈ core.pendingLinks ∨ core.OnCall linkId) :
    Accounts lost core (core.ensureIngress linkId) := by
  have hcall (l : LinkId) : (core.ensureIngress linkId).OnCall l ↔ core.OnCall l := by
    unfold OnCall
    rw [ensureIngress_activeCall]
  refine ⟨?_, ?_⟩
  · intro hc l hl
    rw [ensureIngress_pendingLinks, hcall]
    obtain rfl | hmem := mem_ensureIngress.mp hl
    · exact h
    · exact hc l hmem
  · intro _ l ht
    unfold Tracked
    rw [ensureIngress_pendingLinks, hcall, mem_ensureIngress]
    exact .inl (ht.imp_right (Or.imp_left .inr))

theorem Accounts.letIn (core : TelephonyRuntimeCore) (linkId : LinkId) :
    Accounts lost core
      ({ core with pendingLinks := core.pendingLinks.insert linkId }.ensureIngress linkId) := by
  have hinsert : Accounts lost core
      { core with pendingLinks := core.pendingLinks.insert linkId } := by
    refine ⟨?_, ?_⟩
    · intro hc l hl
      exact (hc l hl).imp_left List.mem_insert_of_mem
    · intro _ l ht
      exact .inl (ht.imp_left List.mem_insert_of_mem)
  exact hinsert.trans (.ensureIngress (.inl List.mem_insert_self))

/-- A link becomes the active one while there is no call. -/
theorem Accounts.promote (hn : core.activeCall = none) (active : ActiveCall) :
    Accounts lost core { core with
      pendingLinks := core.pendingLinks.erase active.linkId
      activeCall := some active } := by
  have hnone {l : LinkId} : ¬ core.OnCall l := by
    rintro ⟨active', ha, -⟩
    rw [hn] at ha
    cases ha
  refine ⟨?_, ?_⟩
  · intro hc l hl
    by_cases hne : l = active.linkId
    · exact .inr ⟨active, rfl, hne.symm⟩
    · exact .inl ((List.mem_erase_of_ne hne).mpr ((hc l hl).resolve_right hnone))
  · intro _ l ht
    by_cases hne : l = active.linkId
    · exact .inl (.inr (.inr ⟨active, rfl, hne.symm⟩))
    · obtain hp | hmem | hcall := ht
      · exact .inl (.inl ((List.mem_erase_of_ne hne).mpr hp))
      · exact .inl (.inr (.inl hmem))
      · exact absurd hcall hnone

/-- A call is started on a link while there is none. -/
theorem Accounts.dial (hn : core.activeCall = none) (active : ActiveCall) :
    Accounts lost core
      { core.ensureIngress active.linkId with activeCall := some active } := by
  have hnone {l : LinkId} : ¬ core.OnCall l := by
    rintro ⟨active', ha, -⟩
    rw [hn] at ha
    cases ha
  refine ⟨?_, ?_⟩
  · intro hc l hl
    obtain rfl | hmem := mem_ensureIngress.mp hl
    · exact .inr ⟨active, rfl, rfl⟩
    · refine .inl ?_
      show l ∈ (core.ensureIngress active.linkId).pendingLinks
      rw [ensureIngress_pendingLinks]
      exact (hc l hmem).resolve_right hnone
  · intro _ l ht
    obtain hp | hmem | hcall := ht
    · refine .inl (.inl ?_)
      show l ∈ (core.ensureIngress active.linkId).pendingLinks
      rwa [ensureIngress_pendingLinks]
    · exact .inl (.inr (.inl (mem_ensureIngress.mpr (.inr hmem))))
    · exact absurd hcall hnone

end

/-! ## Packets -/

/-- The result of a step on a link loses the link: it failed, or it tears the link down. -/
def LostBy (linkId : LinkId) (result : Except Error (List TelephonyCommand)) (link : LinkId) :
    Prop :=
  link = linkId ∧ ∀ commands, result = .ok commands → .teardownLink linkId ∈ commands

theorem receiveSignal_accounts (core : TelephonyRuntimeCore) (linkId : LinkId) (signal : Signal) :
    Accounts (LostBy linkId (core.receiveSignal linkId signal).1) core
      (core.receiveSignal linkId signal).2 := by
  unfold receiveSignal
  cases hactive : core.activeCall with
  | none => exact .refl core
  | some active =>
    dsimp only
    by_cases hlink : active.linkId ≠ linkId
    · rw [if_pos hlink]
      exact .refl core
    · rw [not_not] at hlink
      subst hlink
      rw [if_neg (by simp)]
      split
      · apply (Accounts.endCall hactive).mono
        rintro l rfl
        refine ⟨rfl, ?_⟩
        rintro _ ⟨⟩
        simp
      · exact .of_same rfl (fun _ => Iff.rfl) (by rw [hactive]; rfl)

theorem receiveSignals_accounts (core : TelephonyRuntimeCore) (linkId : LinkId)
    (signals : List Signal) :
    Accounts (LostBy linkId (core.receiveSignals linkId signals).1) core
      (core.receiveSignals linkId signals).2 := by
  induction signals generalizing core with
  | nil => exact .refl core
  | cons signal signals ih =>
    have hfirst := receiveSignal_accounts core linkId signal
    unfold receiveSignals
    generalize core.receiveSignal linkId signal = first at hfirst ⊢
    obtain ⟨error | commands, core₁⟩ := first
    · exact hfirst
    · have hrest := ih core₁
      dsimp only
      generalize core₁.receiveSignals linkId signals = rest at hrest ⊢
      obtain ⟨error | more, core₂⟩ := rest
      · apply (hfirst.mono _).trans hrest
        rintro l ⟨rfl, -⟩
        refine ⟨rfl, ?_⟩
        intro more hmore
        cases hmore
      · apply (hfirst.mono _).trans (hrest.mono _)
        · rintro l ⟨rfl, hl⟩
          refine ⟨rfl, ?_⟩
          rintro _ ⟨⟩
          exact List.mem_append_left _ (hl _ rfl)
        · rintro l ⟨rfl, hl⟩
          refine ⟨rfl, ?_⟩
          rintro _ ⟨⟩
          exact List.mem_append_right _ (hl _ rfl)

variable (readValue : List UInt8 → Except String MsgPack.Value)

theorem acceptLxstPlaintext_accounts (core : TelephonyRuntimeCore) (linkId : LinkId)
    (payload : List UInt8) :
    Accounts (LostBy linkId
        ((core.acceptLxstPlaintext readValue linkId payload).1.map (·.commands))) core
      (core.acceptLxstPlaintext readValue linkId payload).2 := by
  unfold acceptLxstPlaintext
  cases hlookup : core.ingress.lookup linkId with
  | none => exact .refl core
  | some ingress =>
    dsimp only
    obtain ⟨error | inbound, ingress'⟩ := ingress.acceptPlaintext readValue linkId payload
    · exact .refl core
    · have hmem : linkId ∈ core.ingress := AList.lookup_isSome.mp (by rw [hlookup]; rfl)
      have hinsert {lost : LinkId → Prop} : Accounts lost core
          { core with ingress := core.ingress.insert linkId ingress' } := by
        refine .of_same rfl (fun l => ?_) rfl
        rw [AList.mem_insert]
        exact ⟨fun h => h.elim (fun he => he ▸ hmem) id, .inr⟩
      have hsignals := receiveSignals_accounts
        { core with ingress := core.ingress.insert linkId ingress' } linkId inbound.packet.signals
      dsimp only
      generalize receiveSignals _ linkId inbound.packet.signals = rest at hsignals ⊢
      obtain ⟨error | commands, core'⟩ := rest
      · exact hinsert.trans hsignals
      · exact hinsert.trans hsignals

/-! ## Operations -/

/-- The reasons for which an operation loses a link. -/
def Excused (core : TelephonyRuntimeCore) (op : Op) (link : LinkId) : Prop :=
  .teardownLink link ∈ (core.step readValue op).2 ∨ op = .acceptLinkEvent (.linkClosed link) ∨
    ∃ plaintext error, op = .acceptLinkEvent (.linkPacket link plaintext) ∧
      (core.acceptLxstPlaintext readValue link plaintext).1 = .error error

theorem incomingLinkEstablished_accounts {lost : LinkId → Prop} (core : TelephonyRuntimeCore)
    (linkId : LinkId) : Accounts lost core (core.incomingLinkEstablished linkId).2 := by
  unfold incomingLinkEstablished
  dsimp only
  split
  · exact .letIn core linkId
  · exact .refl core

theorem outgoingLinkEstablished_accounts {lost : LinkId → Prop} (core : TelephonyRuntimeCore)
    (linkId : LinkId) : Accounts lost core (core.outgoingLinkEstablished linkId).2 := by
  unfold outgoingLinkEstablished
  split
  · exact .refl core
  rename_i active hactive
  split
  · exact .refl core
  · rename_i hlink
    exact .ensureIngress (.inr ⟨active, hactive, not_not.mp hlink⟩)

theorem callerIdentified_accounts (core : TelephonyRuntimeCore) (linkId : LinkId)
    (remoteIdentity : IdentityHash) :
    Accounts (fun link => .teardownLink link ∈
        returned (core.callerIdentified linkId remoteIdentity).1) core
      (core.callerIdentified linkId remoteIdentity).2 := by
  obtain ⟨-, he⟩ | ⟨-, ⟨-, he⟩ | ⟨hidle, commands, -, he⟩⟩ :=
    callerIdentified_cases core linkId remoteIdentity
  · rw [he]
    exact .refl core
  · rw [he]
    apply (Accounts.forgetLink core linkId).mono
    rintro l rfl
    simp [returned]
  · rw [he]
    exact .promote (activeCall_of_idle hidle) ⟨linkId, remoteIdentity, _⟩

theorem linkClosed_accounts (core : TelephonyRuntimeCore) (linkId : LinkId) :
    Accounts (· = linkId) core (core.linkClosed linkId).2 := by
  obtain ⟨active, hactive, rfl, hclosed⟩ | ⟨-, hclosed⟩ := linkClosed_cases core linkId
  · rw [hclosed]
    exact .endCall hactive
  · rw [hclosed]
    exact .forgetLink core linkId

theorem mem_hangup (active : ActiveCall) (ringTimeout : Bool) (reason : Option SignallingStatus) :
    .teardownLink active.linkId ∈ terminationCommands active ringTimeout reason := by
  unfold terminationCommands
  apply List.mem_append_left
  rw [teardownLink_mem_commandsFromActions]
  exact ⟨rfl, List.mem_append_right _ (List.mem_singleton.mpr rfl)⟩

theorem terminateActive_accounts (core : TelephonyRuntimeCore) (ringTimeout : Bool)
    (reason : Option SignallingStatus) :
    Accounts (fun link => .teardownLink link ∈
        returned (core.terminateActive ringTimeout reason).1) core
      (core.terminateActive ringTimeout reason).2 := by
  unfold terminateActive
  cases hactive : core.activeCall with
  | none => exact .refl core
  | some active =>
    apply (Accounts.endCall hactive).mono
    rintro l rfl
    exact mem_hangup active ringTimeout reason

theorem shutdown_accounts (core : TelephonyRuntimeCore) :
    Accounts (fun link => .teardownLink link ∈ core.shutdown.1) core core.shutdown.2 := by
  refine ⟨fun _ => ?_, ?_⟩
  · intro l hl
    exact absurd hl (by simp [shutdown])
  · -- an ingress is of a pending link or of the call, and both are torn down
    intro hc l ht
    right
    have hheld : l ∈ core.pendingLinks ∨ core.OnCall l := by
      obtain hp | hmem | hcall := ht
      · exact .inl hp
      · exact hc l hmem
      · exact .inr hcall
    unfold shutdown
    cases hactive : core.activeCall with
    | none =>
      obtain hp | ⟨active, ha, -⟩ := hheld
      · exact List.mem_append_right _ (List.mem_map_of_mem hp)
      · rw [hactive] at ha
        cases ha
    | some active =>
      by_cases hlink : l = active.linkId
      · subst hlink
        exact List.mem_append_left _ (mem_hangup active false none)
      · obtain hp | ⟨active', ha, rfl⟩ := hheld
        · exact List.mem_append_right _ (List.mem_map_of_mem ((List.mem_erase_of_ne hlink).mpr hp))
        · rw [hactive] at ha
          cases ha
          exact absurd rfl hlink

/-- **An operation loses a tracked link only for a reason**: it returns the teardown of the link,
or it is the link's close event or a packet on it that fails. -/
theorem step_accounts (core : TelephonyRuntimeCore) (op : Op) :
    Accounts (Excused readValue core op) core (core.step readValue op).1 := by
  cases op with
  | acceptLinkEvent event =>
    cases event with
    | linkEstablished linkId =>
      simp only [step, acceptLinkEvent]
      split
      · exact outgoingLinkEstablished_accounts core linkId
      · exact incomingLinkEstablished_accounts core linkId
    | incomingLinkEstablished linkId => exact incomingLinkEstablished_accounts core linkId
    | outgoingLinkEstablished linkId => exact outgoingLinkEstablished_accounts core linkId
    | remoteIdentified linkId remoteIdentity =>
      apply (callerIdentified_accounts core linkId remoteIdentity).mono
      intro l hl
      left
      simp only [step, acceptLinkEvent, asStep]
      generalize core.callerIdentified linkId remoteIdentity = result at hl ⊢
      obtain ⟨error | commands, core'⟩ := result
      · exact hl
      · exact hl
    | linkPacket linkId plaintext =>
      apply (acceptLxstPlaintext_accounts readValue core linkId plaintext).mono
      rintro l ⟨rfl, hl⟩
      cases hresult : (core.acceptLxstPlaintext readValue l plaintext).1 with
      | error error => exact .inr (.inr ⟨plaintext, error, rfl, hresult⟩)
      | ok result =>
        left
        simp only [step, acceptLinkEvent, hresult]
        exact hl _ (by rw [hresult]; rfl)
    | linkClosed linkId =>
      apply (linkClosed_accounts core linkId).mono
      rintro l rfl
      exact .inr (.inl rfl)
  | startOutgoingCall linkId remoteIdentity profile =>
    simp only [step, startOutgoingCall]
    split
    · exact .refl core
    · rename_i hidle
      rw [Bool.not_eq_true] at hidle
      exact .dial (activeCall_of_idle hidle) ⟨linkId, remoteIdentity, .outgoing profile⟩
  | answerActive linkId =>
    simp only [step]
    obtain ⟨error, he⟩ | ⟨active, commands, hactive, -, -, -, -, he⟩ :=
      answerActive_cases core linkId
    · rw [he]
      exact .refl core
    · rw [he]
      exact .of_same rfl (fun _ => Iff.rfl) (by rw [hactive]; rfl)
  | switchActiveProfile profile =>
    simp only [step]
    obtain ⟨error, he⟩ | ⟨active, commands, hactive, -, -, he⟩ :=
      switchActiveProfile_cases core profile
    · rw [he]
      exact .refl core
    · rw [he]
      exact .of_same rfl (fun _ => Iff.rfl) (by rw [hactive]; rfl)
  | retryAnswerActive linkId => exact .refl core
  | timeoutAnswerActive linkId =>
    obtain ⟨error, he⟩ | he := timeoutAnswerActive_eq core linkId
    · simp only [step, he]
      exact .refl core
    · have haccounts := terminateActive_accounts core false (some .connecting)
      rw [← he] at haccounts
      apply haccounts.mono
      intro l hl
      exact .inl hl
  | hangupActive ringTimeout =>
    apply (terminateActive_accounts core ringTimeout none).mono
    intro l hl
    exact .inl hl
  | shutdown =>
    apply (shutdown_accounts core).mono
    intro l hl
    exact .inl hl
  | setExternalBusy busy => exact .of_same rfl (fun _ => Iff.rfl) rfl
  | setAccessPolicy access => exact .of_same rfl (fun _ => Iff.rfl) rfl

/-! ## Runs -/

theorem covered_run (ops : List Op) : Covered (Machine.run (step readValue) new ops) := by
  apply Machine.run_invariant
  · intro link hlink
    exact absurd hlink (by simp [new])
  · intro core op hc
    exact (step_accounts readValue core op).covered hc

/-- A tracked link stays tracked up to an operation with a reason. -/
theorem tracked_run (ops : List Op) (hc : Covered core) (ht : Tracked core link) :
    Tracked (Machine.run (step readValue) core ops) link ∨
      ∃ before op after, ops = before ++ op :: after ∧
        Excused readValue (Machine.run (step readValue) core before) op link := by
  induction ops generalizing core with
  | nil => exact .inl ht
  | cons op ops ih =>
    have haccounts := step_accounts readValue core op
    obtain ht' | hexcused := haccounts.tracked hc link ht
    · obtain ht'' | ⟨before, op', after, rfl, hexcused⟩ := ih (haccounts.covered hc) ht'
      · exact .inl ht''
      · exact .inr ⟨op :: before, op', after, rfl, hexcused⟩
    · exact .inr ⟨[], op, ops, rfl, hexcused⟩

/-- An operation brings a link to the core: its establishment, or a call started on it. -/
def Announces (core : TelephonyRuntimeCore) : Op → LinkId → Prop
  | .acceptLinkEvent (.linkEstablished linkId), link
  | .acceptLinkEvent (.incomingLinkEstablished linkId), link => linkId = link
  | .startOutgoingCall linkId _ _, link => linkId = link ∧ core.lineBusy = false
  | _, _ => False

theorem incomingLinkEstablished_tracked (core : TelephonyRuntimeCore) (linkId : LinkId) :
    Tracked (core.incomingLinkEstablished linkId).2 linkId ∨
      .teardownLink linkId ∈ (core.incomingLinkEstablished linkId).1 := by
  cases hbusy : core.lineBusy with
  | true => exact .inr (by simp [incomingLinkEstablished, hbusy,
      CallState.incomingLinkEstablished, commandsFromActions])
  | false =>
    refine .inl (.inl ?_)
    simp only [incomingLinkEstablished, hbusy, Bool.not_false, if_true]
    rw [ensureIngress_pendingLinks]
    exact List.mem_insert_self

theorem announces_step {op : Op} (h : Announces core op link) :
    Tracked (core.step readValue op).1 link ∨ .teardownLink link ∈ (core.step readValue op).2 := by
  unfold Announces at h
  split at h
  · rename_i linkId
    subst h
    simp only [step, acceptLinkEvent]
    split
    · rename_i hout
      obtain ⟨active, hactive, hlink, -⟩ : ∃ active, core.activeCall = some active ∧
          active.linkId = linkId ∧ active.call.role = .outgoing := by
        simpa [Option.any_eq_true] using hout
      refine .inl (.inr (.inr ⟨active, ?_, hlink⟩))
      show (core.outgoingLinkEstablished linkId).2.activeCall = some active
      simp [outgoingLinkEstablished, hactive, hlink, ensureIngress_activeCall]
    · exact incomingLinkEstablished_tracked core linkId
  · subst h
    exact incomingLinkEstablished_tracked core _
  · obtain ⟨rfl, hidle⟩ := h
    left
    simp only [step, startOutgoingCall, hidle]
    exact .inr (.inr ⟨_, rfl, rfl⟩)
  · exact absurd h id

/-- **No link is leaked.** In every run of a new core, whatever the order of its operations, a
link that was announced is tracked at the end, or its teardown was returned, its close event came
or a packet on it failed, at the announcement or after it. -/
theorem announced_links_accounted (before after : List Op) {op : Op} {link : LinkId}
    (h : Announces (Machine.run (step readValue) new before) op link) :
    Tracked (Machine.run (step readValue) new (before ++ op :: after)) link ∨
      ∃ mid last rest, op :: after = mid ++ last :: rest ∧
        Excused readValue (Machine.run (step readValue) new (before ++ mid)) last link := by
  rw [Machine.run_append, Machine.run_cons]
  obtain ht | hteardown := announces_step readValue h
  · have hc := covered_run readValue (before ++ [op])
    rw [Machine.run_append] at hc
    obtain ht' | ⟨mid, last, rest, rfl, hexcused⟩ := tracked_run readValue after hc ht
    · exact .inl ht'
    · refine .inr ⟨op :: mid, last, rest, rfl, ?_⟩
      rw [Machine.run_append]
      exact hexcused
  · refine .inr ⟨[], op, after, rfl, .inl ?_⟩
    rw [List.append_nil]
    exact hteardown

/-- A link is let in, the call on another one hung up, and both are torn down at the shutdown. -/
theorem announced_links_accounted_shutdown :
    let readValue : List UInt8 → Except String MsgPack.Value := fun _ => .error ""
    let before : List Op := [.acceptLinkEvent (.linkEstablished (.replicate 16 1))]
    let op : Op := .acceptLinkEvent (.linkEstablished (.replicate 16 2))
    let after : List Op :=
      [.acceptLinkEvent (.remoteIdentified (.replicate 16 1) (.replicate 16 7)), .shutdown]
    let link : LinkId := .replicate 16 2
    Tracked (Machine.run (step readValue) new (before ++ op :: after)) link ∨
      ∃ mid last rest, op :: after = mid ++ last :: rest ∧
        Excused readValue (Machine.run (step readValue) new (before ++ mid)) last link :=
  announced_links_accounted _ _ _ rfl

end Lxst.Telephony.TelephonyRuntimeCore
