import RsLxst.Lib.Machine
import RsLxst.Telephony.Proof.Runtime

/-!
# A call and the other links

While a call on a link is active, no operation on another link, and no change of the policy or of
the external busy flag, does anything to the call, its link or the commands for it
(`step_other`); and what an operation on the link does depends on them alone (`step_same`). So the
call runs as if it were the only one: `call_isolated`.
-/

set_option autoImplicit false

namespace Lxst.Telephony

def TelephonyLinkEvent.linkId : TelephonyLinkEvent → LinkId
  | .linkEstablished linkId | .incomingLinkEstablished linkId | .outgoingLinkEstablished linkId
  | .remoteIdentified linkId _ | .linkPacket linkId _ | .linkClosed linkId => linkId

namespace TelephonyRuntimeCore

variable {linkId : LinkId} {core core' : TelephonyRuntimeCore}

/-- The call is on the link. -/
def CallOn (linkId : LinkId) (core : TelephonyRuntimeCore) : Prop :=
  core.activeCall.any (·.linkId = linkId) = true

instance : DecidablePred (CallOn linkId) := fun _ => inferInstanceAs (Decidable (_ = _))

/-- What a core holds about a link: the active call, the link's ingress and whether it is
pending. -/
def held (linkId : LinkId) (core : TelephonyRuntimeCore) :
    Option ActiveCall × Option LxstLinkIngress × Nat :=
  (core.activeCall, core.ingress.lookup linkId, core.pendingLinks.count linkId)

/-- The operations that concern the call on a link. -/
def concerns (linkId : LinkId) : Op → Bool
  | .acceptLinkEvent event => event.linkId = linkId
  | .answerActive expectedLinkId | .retryAnswerActive expectedLinkId
  | .timeoutAnswerActive expectedLinkId => expectedLinkId = linkId
  | .switchActiveProfile _ | .hangupActive _ | .shutdown => true
  | .startOutgoingCall _ _ _ | .setExternalBusy _ | .setAccessPolicy _ => false

/-- The commands for a link. -/
def forLink (linkId : LinkId) (command : TelephonyCommand) : Bool := command.linkId = linkId

theorem CallOn.exists (h : CallOn linkId core) :
    ∃ active, core.activeCall = some active ∧ active.linkId = linkId := by
  simpa [CallOn, Option.any_eq_true] using h

theorem CallOn.lineBusy (h : CallOn linkId core) : core.lineBusy = true := by
  obtain ⟨active, hactive, -⟩ := h.exists
  simp [TelephonyRuntimeCore.lineBusy, hactive]

theorem filter_forLink {commands : List TelephonyCommand} {other : LinkId}
    (h : ∀ command ∈ commands, command.linkId = other) (hne : other ≠ linkId) :
    commands.filter (forLink linkId) = [] := by
  rw [List.filter_eq_nil_iff]
  intro command hmem
  simp [forLink, h command hmem, hne]

/-- The commands of a call's actions are for its link. -/
theorem linkId_commandsFromActions (linkId : LinkId) (remoteIdentity : Option IdentityHash)
    (actions : Actions) :
    ∀ command ∈ commandsFromActions linkId remoteIdentity actions, command.linkId = linkId := by
  intro command hmem
  unfold commandsFromActions at hmem
  rw [List.mem_filterMap] at hmem
  obtain ⟨action, -, he⟩ := hmem
  cases action with
  | ringIncomingCall =>
    obtain ⟨_, -, rfl⟩ := Option.map_eq_some_iff.mp he
    rfl
  | terminate => cases he
  | _ =>
    cases he
    rfl

/-! ## The other links -/

theorem held_forgetLink {other : LinkId} (h : other ≠ linkId) (core : TelephonyRuntimeCore) :
    held linkId (core.forgetLink other) = held linkId core := by
  simp [held, forgetLink, AList.lookup_erase_ne h.symm, List.count_erase_of_ne h.symm]

/-- A link event of another link while the call is on. -/
theorem acceptLinkEvent_other (readValue : List UInt8 → Except String MsgPack.Value)
    (h : CallOn linkId core) {event : TelephonyLinkEvent} (he : event.linkId ≠ linkId) :
    held linkId (core.step readValue (.acceptLinkEvent event)).1 = held linkId core ∧
      (core.step readValue (.acceptLinkEvent event)).2.filter (forLink linkId) = [] := by
  obtain ⟨active, hactive, rfl⟩ := h.exists
  have hbusy := h.lineBusy
  have hincoming (other : LinkId) (hne : other ≠ active.linkId) :
      held active.linkId (core.incomingLinkEstablished other).2 = held active.linkId core ∧
        (core.incomingLinkEstablished other).1.filter (forLink active.linkId) = [] := by
    refine ⟨?_, filter_forLink (linkId_commandsFromActions other _ _) hne⟩
    simp [incomingLinkEstablished, hbusy]
  have houtgoing (other : LinkId) (hne : other ≠ active.linkId) :
      core.outgoingLinkEstablished other = (.error .wrongActiveLink, core) := by
    simp [outgoingLinkEstablished, hactive, hne.symm]
  cases event with
  | linkEstablished other =>
    have hne : active.linkId ≠ other := Ne.symm he
    have hnot : ¬ core.activeCall.any
        (fun active => active.linkId = other ∧ active.call.role = .outgoing) = true := by
      simp [hactive, hne]
    simp only [step, acceptLinkEvent, if_neg hnot, asStep]
    exact hincoming other he
  | incomingLinkEstablished other => exact hincoming other he
  | outgoingLinkEstablished other =>
    simp [step, acceptLinkEvent, houtgoing other he, asStep, Except.map, returned]
  | remoteIdentified other remoteIdentity =>
    simp only [step, acceptLinkEvent, asStep, callerIdentified]
    split
    · exact ⟨rfl, rfl⟩
    · rw [if_pos (by simp [hbusy])]
      exact ⟨held_forgetLink he core,
        filter_forLink (linkId_commandsFromActions other _ _) he⟩
  | linkPacket other plaintext =>
    have hne : active.linkId ≠ other := Ne.symm he
    simp only [step, acceptLinkEvent, acceptLxstPlaintext]
    split
    · exact ⟨rfl, rfl⟩
    split
    · exact ⟨rfl, rfl⟩
    rename_i ingress _ inbound ingress' _
    have hheld : held active.linkId { core with ingress := core.ingress.insert other ingress' } =
        held active.linkId core := by
      simp [held, AList.lookup_insert_ne hne]
    cases hsignals : inbound.packet.signals with
    | nil => exact ⟨hheld, rfl⟩
    | cons signal signals =>
      have hrefused : receiveSignal { core with ingress := core.ingress.insert other ingress' }
          other signal = (.error .wrongActiveLink,
            { core with ingress := core.ingress.insert other ingress' }) := by
        simp [receiveSignal, hactive, hne]
      simp only [receiveSignals, hrefused]
      exact ⟨hheld, rfl⟩
  | linkClosed other =>
    have hne : active.linkId ≠ other := Ne.symm he
    have hnot : ¬ (core.forgetLink other).activeCall.any (·.linkId = other) = true := by
      simp [forgetLink, hactive, hne]
    simp only [step, acceptLinkEvent, asStep, linkClosed, if_neg hnot]
    exact ⟨held_forgetLink he core, rfl⟩

/-- **An operation that does not concern the call** leaves everything about it as it was and
returns no command for its link. -/
theorem step_other (readValue : List UInt8 → Except String MsgPack.Value) (h : CallOn linkId core)
    {op : Op} (hop : concerns linkId op = false) :
    held linkId (core.step readValue op).1 = held linkId core ∧
      (core.step readValue op).2.filter (forLink linkId) = [] := by
  cases op with
  | acceptLinkEvent event =>
    exact acceptLinkEvent_other readValue h (by simpa [concerns] using hop)
  | startOutgoingCall other remoteIdentity profile =>
    simp [step, startOutgoingCall, h.lineBusy]
  | answerActive expectedLinkId =>
    obtain ⟨active, hactive, rfl⟩ := h.exists
    have hne : active.linkId ≠ expectedLinkId := by simpa [concerns, eq_comm] using hop
    simp [step, answerActive, hactive, hne, returned]
  | retryAnswerActive expectedLinkId =>
    obtain ⟨active, hactive, rfl⟩ := h.exists
    have hne : active.linkId ≠ expectedLinkId := by simpa [concerns, eq_comm] using hop
    simp [step, retryAnswerActive, answeredCall, hactive, hne, returned, Except.map]
  | timeoutAnswerActive expectedLinkId =>
    obtain ⟨active, hactive, rfl⟩ := h.exists
    have hne : active.linkId ≠ expectedLinkId := by simpa [concerns, eq_comm] using hop
    simp [step, timeoutAnswerActive, answeredCall, hactive, hne, returned]
  | setExternalBusy busy => exact ⟨rfl, rfl⟩
  | setAccessPolicy access => exact ⟨rfl, rfl⟩
  | switchActiveProfile profile => cases hop
  | hangupActive ringTimeout => cases hop
  | shutdown => cases hop

/-! ## The link of the call -/

theorem held_eq_iff :
    held linkId core = held linkId core' ↔ core.activeCall = core'.activeCall ∧
      core.ingress.lookup linkId = core'.ingress.lookup linkId ∧
      core.pendingLinks.count linkId = core'.pendingLinks.count linkId := by
  simp [held]

theorem CallOn.of_held (h : CallOn linkId core) (he : held linkId core = held linkId core') :
    CallOn linkId core' := by
  unfold CallOn
  rw [← (held_eq_iff.mp he).1]
  exact h

theorem held_forgetLink_self (he : held linkId core = held linkId core') :
    held linkId (core.forgetLink linkId) = held linkId (core'.forgetLink linkId) := by
  obtain ⟨hactive, -, hcount⟩ := held_eq_iff.mp he
  simp [held, forgetLink, hactive, hcount]

/-- The call gone and its link forgotten. -/
theorem held_ended (he : held linkId core = held linkId core') :
    held linkId ({ core with activeCall := none }.forgetLink linkId) =
      held linkId ({ core' with activeCall := none }.forgetLink linkId) := by
  obtain ⟨-, hlookup, hcount⟩ := held_eq_iff.mp he
  exact held_forgetLink_self (held_eq_iff.mpr ⟨rfl, hlookup, hcount⟩)

theorem held_withCall (he : held linkId core = held linkId core') (call : Option ActiveCall) :
    held linkId { core with activeCall := call } = held linkId { core' with activeCall := call } := by
  obtain ⟨-, hlookup, hcount⟩ := held_eq_iff.mp he
  exact held_eq_iff.mpr ⟨rfl, hlookup, hcount⟩

theorem held_withIngress (he : held linkId core = held linkId core') (ingress : LxstLinkIngress) :
    held linkId { core with ingress := core.ingress.insert linkId ingress } =
      held linkId { core' with ingress := core'.ingress.insert linkId ingress } := by
  obtain ⟨hactive, -, hcount⟩ := held_eq_iff.mp he
  exact held_eq_iff.mpr ⟨hactive, by simp [AList.lookup_insert], hcount⟩

theorem held_ensureIngress (he : held linkId core = held linkId core') :
    held linkId (core.ensureIngress linkId) = held linkId (core'.ensureIngress linkId) := by
  have hlookup := (held_eq_iff.mp he).2.1
  unfold ensureIngress
  rw [hlookup]
  cases core'.ingress.lookup linkId with
  | some ingress => exact he
  | none => exact held_withIngress he .new

theorem receiveSignal_same (he : held linkId core = held linkId core') (signal : Signal) :
    (core.receiveSignal linkId signal).1 = (core'.receiveSignal linkId signal).1 ∧
      held linkId (core.receiveSignal linkId signal).2 =
        held linkId (core'.receiveSignal linkId signal).2 := by
  have hactive := (held_eq_iff.mp he).1
  unfold receiveSignal
  rw [hactive]
  cases core'.activeCall with
  | none => exact ⟨rfl, he⟩
  | some active =>
    by_cases hlink : active.linkId ≠ linkId
    · simp only [if_pos hlink]
      exact ⟨trivial, he⟩
    · simp only [if_neg hlink]
      split
      · exact ⟨rfl, held_ended he⟩
      · exact ⟨rfl, held_withCall he _⟩

theorem receiveSignals_same (signals : List Signal) (he : held linkId core = held linkId core') :
    (core.receiveSignals linkId signals).1 = (core'.receiveSignals linkId signals).1 ∧
      held linkId (core.receiveSignals linkId signals).2 =
        held linkId (core'.receiveSignals linkId signals).2 := by
  induction signals generalizing core core' with
  | nil => exact ⟨rfl, he⟩
  | cons signal signals ih =>
    obtain ⟨hresult, hheld⟩ := receiveSignal_same he signal
    unfold receiveSignals
    generalize core.receiveSignal linkId signal = first at hresult hheld ⊢
    generalize core'.receiveSignal linkId signal = first' at hresult hheld ⊢
    obtain ⟨result, core₁⟩ := first
    obtain ⟨result', core₁'⟩ := first'
    obtain rfl : result = result' := hresult
    cases result with
    | error error => exact ⟨rfl, hheld⟩
    | ok commands =>
      obtain ⟨hrest, hheld'⟩ := ih hheld
      dsimp only
      generalize core₁.receiveSignals linkId signals = rest at hrest hheld' ⊢
      generalize core₁'.receiveSignals linkId signals = rest' at hrest hheld' ⊢
      obtain ⟨result, core₂⟩ := rest
      obtain ⟨result', core₂'⟩ := rest'
      obtain rfl : result = result' := hrest
      cases result with
      | error error => exact ⟨rfl, hheld'⟩
      | ok more => exact ⟨rfl, hheld'⟩

theorem acceptLxstPlaintext_same (readValue : List UInt8 → Except String MsgPack.Value)
    (he : held linkId core = held linkId core') (payload : List UInt8) :
    (core.acceptLxstPlaintext readValue linkId payload).1 =
        (core'.acceptLxstPlaintext readValue linkId payload).1 ∧
      held linkId (core.acceptLxstPlaintext readValue linkId payload).2 =
        held linkId (core'.acceptLxstPlaintext readValue linkId payload).2 := by
  have hlookup := (held_eq_iff.mp he).2.1
  unfold acceptLxstPlaintext
  rw [hlookup]
  cases core'.ingress.lookup linkId with
  | none => exact ⟨rfl, he⟩
  | some ingress =>
    dsimp only
    cases ingress.acceptPlaintext readValue linkId payload with
    | mk result ingress' =>
      cases result with
      | error error => exact ⟨rfl, he⟩
      | ok inbound =>
        obtain ⟨hresult, hheld⟩ :=
          receiveSignals_same inbound.packet.signals (held_withIngress he ingress')
        dsimp only
        generalize receiveSignals { core with ingress := _ } linkId _ = rest at hresult hheld ⊢
        generalize receiveSignals { core' with ingress := _ } linkId _ = rest' at hresult hheld ⊢
        obtain ⟨result, core₁⟩ := rest
        obtain ⟨result', core₁'⟩ := rest'
        obtain rfl : result = result' := hresult
        cases result with
        | error error => exact ⟨rfl, hheld⟩
        | ok commands => exact ⟨rfl, hheld⟩

theorem outgoingLinkEstablished_same (he : held linkId core = held linkId core') :
    (core.outgoingLinkEstablished linkId).1 = (core'.outgoingLinkEstablished linkId).1 ∧
      held linkId (core.outgoingLinkEstablished linkId).2 =
        held linkId (core'.outgoingLinkEstablished linkId).2 := by
  have hactive := (held_eq_iff.mp he).1
  unfold outgoingLinkEstablished
  rw [hactive]
  cases core'.activeCall with
  | none => exact ⟨rfl, he⟩
  | some active =>
    by_cases hlink : active.linkId ≠ linkId
    · simp only [if_pos hlink]
      exact ⟨trivial, he⟩
    · simp only [if_neg hlink]
      exact ⟨trivial, held_ensureIngress he⟩

theorem callerIdentified_same (h : CallOn linkId core) (he : held linkId core = held linkId core')
    (remoteIdentity : IdentityHash) :
    (core.callerIdentified linkId remoteIdentity).1 =
        (core'.callerIdentified linkId remoteIdentity).1 ∧
      held linkId (core.callerIdentified linkId remoteIdentity).2 =
        held linkId (core'.callerIdentified linkId remoteIdentity).2 := by
  obtain ⟨-, hlookup, hcount⟩ := held_eq_iff.mp he
  have hpending : core.pendingLinks.contains linkId = core'.pendingLinks.contains linkId := by
    rw [Bool.eq_iff_iff]
    simp [← List.count_pos_iff, hcount]
  have hrefused (core : TelephonyRuntimeCore) (hbusy : core.lineBusy = true) :
      core.callerIdentified linkId remoteIdentity =
        if !core.pendingLinks.contains linkId ∧ (core.ingress.lookup linkId).isNone then
          (.error .unknownLink, core)
        else
          (.ok (commandsFromActions linkId (some remoteIdentity)
            (CallState.incoming.callerIdentified true false).2), core.forgetLink linkId) := by
    simp [callerIdentified, hbusy, CallState.callerIdentified]
  rw [hrefused core h.lineBusy, hrefused core' (h.of_held he).lineBusy, hpending, hlookup]
  split
  · exact ⟨rfl, he⟩
  · exact ⟨rfl, held_forgetLink_self he⟩

theorem linkClosed_same (he : held linkId core = held linkId core') :
    (core.linkClosed linkId).1 = (core'.linkClosed linkId).1 ∧
      held linkId (core.linkClosed linkId).2 = held linkId (core'.linkClosed linkId).2 := by
  have hactive : (core.forgetLink linkId).activeCall = (core'.forgetLink linkId).activeCall :=
    (held_eq_iff.mp he).1
  have hforgot := held_forgetLink_self he
  unfold linkClosed
  dsimp only
  rw [hactive]
  split
  · exact ⟨rfl, held_withCall hforgot none⟩
  · exact ⟨rfl, hforgot⟩

theorem returned_asStep (result : Except Error (List TelephonyCommand) × TelephonyRuntimeCore) :
    returned ((asStep result).1.map (·.commands)) = returned result.1 := by
  obtain ⟨error | commands, core'⟩ := result
  · rfl
  · rfl

theorem acceptLinkEvent_same (readValue : List UInt8 → Except String MsgPack.Value)
    (h : CallOn linkId core) (he : held linkId core = held linkId core')
    {event : TelephonyLinkEvent} (hlink : event.linkId = linkId) :
    held linkId (core.step readValue (.acceptLinkEvent event)).1 =
        held linkId (core'.step readValue (.acceptLinkEvent event)).1 ∧
      (core.step readValue (.acceptLinkEvent event)).2 =
        (core'.step readValue (.acceptLinkEvent event)).2 := by
  have hactive := (held_eq_iff.mp he).1
  have hincoming : held linkId (core.incomingLinkEstablished linkId).2 =
        held linkId (core'.incomingLinkEstablished linkId).2 ∧
      (core.incomingLinkEstablished linkId).1 = (core'.incomingLinkEstablished linkId).1 := by
    simp [incomingLinkEstablished, h.lineBusy, (h.of_held he).lineBusy, he]
  obtain ⟨hresult, hheld⟩ := outgoingLinkEstablished_same he
  cases event with
  | linkEstablished other =>
    obtain rfl : other = linkId := hlink
    simp only [step, acceptLinkEvent]
    rw [hactive]
    split
    · simp only [returned_asStep, hresult]
      exact ⟨hheld, trivial⟩
    · simp only [returned_asStep]
      exact ⟨hincoming.1, congrArg (fun commands => returned (.ok commands)) hincoming.2⟩
  | incomingLinkEstablished other =>
    obtain rfl : other = linkId := hlink
    exact hincoming
  | outgoingLinkEstablished other =>
    obtain rfl : other = linkId := hlink
    simp only [step, acceptLinkEvent, returned_asStep, hresult]
    exact ⟨hheld, trivial⟩
  | remoteIdentified other remoteIdentity =>
    obtain rfl : other = linkId := hlink
    obtain ⟨hresult, hheld⟩ := callerIdentified_same h he remoteIdentity
    simp only [step, acceptLinkEvent, returned_asStep, hresult]
    exact ⟨hheld, trivial⟩
  | linkPacket other plaintext =>
    obtain rfl : other = linkId := hlink
    obtain ⟨hresult, hheld⟩ := acceptLxstPlaintext_same readValue he plaintext
    simp only [step, acceptLinkEvent, hresult]
    exact ⟨hheld, trivial⟩
  | linkClosed other =>
    obtain rfl : other = linkId := hlink
    obtain ⟨hcommands, hheld⟩ := linkClosed_same he
    simp only [step, acceptLinkEvent, returned_asStep, hcommands]
    exact ⟨hheld, trivial⟩

theorem filter_teardowns (linkId : LinkId) (links : List LinkId) :
    (links.map TelephonyCommand.teardownLink).filter (forLink linkId) =
      List.replicate (links.count linkId) (.teardownLink linkId) := by
  induction links with
  | nil => rfl
  | cons link links ih =>
    rw [List.map_cons]
    by_cases hlink : link = linkId
    · subst hlink
      rw [List.filter_cons_of_pos (by simp [forLink, TelephonyCommand.linkId]), ih,
        List.count_cons_self, List.replicate_succ]
    · rw [List.filter_cons_of_neg (by simp [forLink, TelephonyCommand.linkId, hlink]), ih,
        List.count_cons_of_ne hlink]

/-- **What an operation that concerns the call does** depends only on what the core holds about
its link. -/
theorem step_same (readValue : List UInt8 → Except String MsgPack.Value) (h : CallOn linkId core)
    (he : held linkId core = held linkId core') {op : Op} (hop : concerns linkId op = true) :
    held linkId (core.step readValue op).1 = held linkId (core'.step readValue op).1 ∧
      (core.step readValue op).2.filter (forLink linkId) =
        (core'.step readValue op).2.filter (forLink linkId) := by
  obtain ⟨hcalls, hlookup, hcount⟩ := held_eq_iff.mp he
  obtain ⟨active, hactive, hlink⟩ := h.exists
  have hactive' : core'.activeCall = some active := hcalls ▸ hactive
  cases op with
  | acceptLinkEvent event =>
    obtain ⟨hheld, hcommands⟩ :=
      acceptLinkEvent_same readValue h he (of_decide_eq_true hop : event.linkId = linkId)
    exact ⟨hheld, congrArg _ hcommands⟩
  | answerActive expectedLinkId =>
    simp only [step, answerActive, hactive, hactive']
    split
    · exact ⟨he, rfl⟩
    split
    · exact ⟨he, rfl⟩
    · exact ⟨held_withCall he _, rfl⟩
  | retryAnswerActive expectedLinkId =>
    simp only [step, retryAnswerActive, answeredCall, hactive, hactive']
    exact ⟨he, trivial⟩
  | timeoutAnswerActive expectedLinkId =>
    have hanswered : core.answeredCall expectedLinkId = core'.answeredCall expectedLinkId := by
      simp only [answeredCall, hactive, hactive']
    simp only [step, timeoutAnswerActive, terminateActive, hanswered, hactive, hactive']
    cases core'.answeredCall expectedLinkId with
    | error error => exact ⟨he, rfl⟩
    | ok answered =>
      rw [hlink]
      exact ⟨held_ended he, rfl⟩
  | switchActiveProfile profile =>
    simp only [step, switchActiveProfile, hactive, hactive']
    split
    · exact ⟨he, rfl⟩
    · exact ⟨held_withCall he _, rfl⟩
  | hangupActive ringTimeout =>
    simp only [step, hangupActive, terminateActive, hactive, hactive']
    rw [hlink]
    exact ⟨held_ended he, trivial⟩
  | shutdown =>
    simp only [step, shutdown, hactive, hactive', List.filter_append, filter_teardowns]
    have hpending : (forgetLink { core with activeCall := none } active.linkId).pendingLinks.count
          linkId =
        (forgetLink { core' with activeCall := none } active.linkId).pendingLinks.count linkId := by
      simp [forgetLink, hlink, hcount]
    exact ⟨held_eq_iff.mpr ⟨rfl, rfl, rfl⟩, by rw [hpending]⟩
  | startOutgoingCall => cases hop
  | setExternalBusy => cases hop
  | setAccessPolicy => cases hop

/-- **A call is isolated**: in every run with a call on a link throughout, up to the operation
that ends it, taking out all operations that do not concern the call changes neither the call, the
link's ingress and pending mark at the end, nor any command for the link or their order. -/
theorem call_isolated (readValue : List UInt8 → Except String MsgPack.Value) (linkId : LinkId)
    (core : TelephonyRuntimeCore) (ops : List Op)
    (h : Machine.Admits (fun core _ => CallOn linkId core)
      (fun core op => (core.step readValue op).1) core ops) :
    held linkId (Machine.run (step readValue) core ops) =
        held linkId (Machine.run (step readValue) core (ops.filter (concerns linkId))) ∧
      (Machine.output (step readValue) core ops).filter (forLink linkId) =
        (Machine.output (step readValue) core (ops.filter (concerns linkId))).filter
          (forLink linkId) := by
  apply Machine.run_purge (G := CallOn linkId) _ _ rfl h
  · intro core op h hop
    exact step_other readValue h hop
  · intro core core' op h he hop
    exact step_same readValue h he hop

/-- A call is answered and hung up while another link comes, identifies itself and closes. -/
theorem call_isolated_answered :
    let readValue : List UInt8 → Except String MsgPack.Value := fun _ => .error ""
    let core := Machine.run (step readValue) new
      [.acceptLinkEvent (.linkEstablished (.replicate 16 1)),
        .acceptLinkEvent (.linkEstablished (.replicate 16 2)),
        .acceptLinkEvent (.remoteIdentified (.replicate 16 1) (.replicate 16 7))]
    let ops : List Op :=
      [.acceptLinkEvent (.linkEstablished (.replicate 16 3)), .setExternalBusy true,
        .acceptLinkEvent (.remoteIdentified (.replicate 16 2) (.replicate 16 8)),
        .answerActive (.replicate 16 1), .acceptLinkEvent (.linkClosed (.replicate 16 3)),
        .hangupActive false]
    let alone := ops.filter (concerns (.replicate 16 1))
    alone = [.answerActive (.replicate 16 1), .hangupActive false] ∧
      held (.replicate 16 1) (Machine.run (step readValue) core ops) =
        held (.replicate 16 1) (Machine.run (step readValue) core alone) ∧
      (Machine.output (step readValue) core ops).filter (forLink (.replicate 16 1)) =
        (Machine.output (step readValue) core alone).filter (forLink (.replicate 16 1)) :=
  ⟨by decide +kernel, call_isolated _ _ _ _ (by decide +kernel)⟩

end TelephonyRuntimeCore

end Lxst.Telephony
