import RsLxst.Core.Proof.CallState
import RsLxst.Telephony.Proof.Handlers
import RsLxst.Telephony.Proof.Signalling

/-!
# Answering is all or nothing

An answer is a batch of two signals (`signalCommands_answer`). `answer_atomic` puts the cases of a
batch together with what `answer_exact` does to the core; publishing touches neither.
-/

set_option autoImplicit false

namespace Lxst.Telephony

open Program

variable {rns : Rns} {audio : Audio}

/-! ## Publishing -/

namespace TelephonyService

/-- It leaves the endpoint alone. -/
def KeepsEndpoint {α : Type} (p : ServiceM rns audio α) : Prop :=
  ∀ s, wp p (fun _ s' => s'.endpoint = s.endpoint) s

theorem KeepsEndpoint.ifSent {α : Type} {p : ServiceM rns audio Bool} {q r : ServiceM rns audio α}
    (hp : KeepsEndpoint p) (hq : KeepsEndpoint q) (hr : KeepsEndpoint r) :
    KeepsEndpoint (do if ← p then q else r) := by
  intro s
  rw [wp_bind]
  refine wp_mono (hp s) fun sent s₁ h₁ => ?_
  split
  · exact wp_mono (hq s₁) fun _ _ h₂ => h₂.trans h₁
  · exact wp_mono (hr s₁) fun _ _ h₂ => h₂.trans h₁

theorem pure_keepsEndpoint {α : Type} (a : α) : KeepsEndpoint (pure a : ServiceM rns audio α) :=
  fun _ => rfl

theorem emitServiceEvent_keepsEndpoint (event : TelephonyServiceEvent audio) :
    KeepsEndpoint (emitServiceEvent event : ServiceM rns audio Bool) := by
  intro s
  unfold wp emitServiceEvent
  split
  · rfl
  · rfl
  · rfl

theorem emitServiceEvents_keepsEndpoint (events : List (TelephonyServiceEvent audio)) :
    KeepsEndpoint (emitServiceEvents events : ServiceM rns audio Bool) := by
  induction events with
  | nil => exact pure_keepsEndpoint true
  | cons event events ih =>
    exact .ifSent (emitServiceEvent_keepsEndpoint event) ih (pure_keepsEndpoint false)

theorem publishCommands_keepsEndpoint (commands : List TelephonyCommand)
    (effects : List TelephonyCommandEffect) (now : Instant) :
    KeepsEndpoint (publishCommands commands effects now : ServiceM rns audio _) := by
  intro s
  have hclosed : KeepsEndpoint
      (pure (.error .serviceEventClosed) : ServiceM rns audio (Except Error Unit)) :=
    pure_keepsEndpoint _
  have hsnapshot : KeepsEndpoint (emitSnapshot : ServiceM rns audio Bool) :=
    fun s => emitServiceEvent_keepsEndpoint (.snapshot s.core.snapshot) s
  have hsent := KeepsEndpoint.ifSent hsnapshot (pure_keepsEndpoint (.ok ())) hclosed
  have hstreams := KeepsEndpoint.ifSent
    (emitServiceEvents_keepsEndpoint (refreshActiveTimeout now s).1) hsent hclosed
  have hevents := KeepsEndpoint.ifSent
    (emitServiceEvents_keepsEndpoint (serviceEventsFromCommands commands)) hstreams hclosed
  exact (KeepsEndpoint.ifSent (emitServiceEvent_keepsEndpoint _) hevents hclosed) (refreshed now s)

/-! ## Answering -/

theorem signalCommands_answer {call : CallState} (hrole : call.role = .incoming)
    (hstatus : call.status = .ringing) (linkId : LinkId) (remoteIdentity : Option IdentityHash) :
    TelephonyRnsEndpoint.signalCommands (commandsFromActions linkId remoteIdentity call.answer.2) =
      [(linkId, .status .connecting), (linkId, .status .established)] := by
  rw [CallState.answer_ringing hrole hstatus]
  rfl

/-- An answer that the core refuses changes nothing. -/
theorem answerExact_unanswerable {linkId : LinkId} {now : Instant}
    {s : TelephonyService rns audio} {error : Error}
    (hanswer : (s.core.answerActive linkId).1 = .error error) :
    answerExact linkId now s = (.error error, s) := by
  have hcore : s.core.answerActive linkId = (.error error, s.core) := by
    rcases s.core.answerActive_cases linkId with ⟨_, h⟩ | ⟨_, _, -, -, -, -, -, h⟩
    · rw [h] at hanswer
      cases hanswer
      exact h
    · rw [h] at hanswer
      cases hanswer
  have hrun : wp (answerExact linkId now)
      (fun result s' => result = .error error ∧ s' = s) s := by
    unfold answerExact
    rw [wp_bind, wp_get]
    rw [hcore]
    exact ⟨rfl, rfl⟩
  exact Prod.ext hrun.1 hrun.2

/-- A refused batch: the call is put back. -/
theorem answerExact_refused {linkId : LinkId} {now : Instant} {s : TelephonyService rns audio}
    {commands : List TelephonyCommand} {error : Error}
    (hanswer : (s.core.answerActive linkId).1 = .ok commands)
    (hbatch : TelephonyRnsEndpoint.executeSignallingBatch commands s.endpoint =
      (.error error, s.endpoint)) : answerExact linkId now s = (.error error, s) := by
  rcases s.core.answerActive_cases linkId with ⟨_, h⟩ | ⟨active, _, -, -, -, -, -, h⟩
  · rw [h] at hanswer
    cases hanswer
  · rw [h] at hanswer
    cases hanswer
    have hrun : wp (answerExact linkId now)
        (fun result s' => result = .error error ∧ s' = s) s := by
      unfold answerExact
      simp only [h, wp_bind, wp_get, wp_set, wp_onEndpoint, hbatch]
      exact ⟨rfl, rfl⟩
    exact Prod.ext hrun.1 hrun.2

/-- A batch that is taken: the call is answered, and publishing leaves that alone. -/
theorem answerExact_taken {linkId : LinkId} (now : Instant) {s : TelephonyService rns audio}
    {commands : List TelephonyCommand} {core : TelephonyRuntimeCore}
    {effects : List TelephonyCommandEffect} {endpoint : TelephonyRnsEndpoint rns}
    (hanswer : s.core.answerActive linkId = (.ok commands, core))
    (hbatch : TelephonyRnsEndpoint.executeSignallingBatch commands s.endpoint =
      (.ok effects, endpoint)) :
    wp (answerExact linkId now) (fun _ s' => s'.endpoint = endpoint ∧ s'.core = core) s := by
  unfold answerExact
  simp only [hanswer, wp_bind, wp_get, wp_set, wp_onEndpoint, hbatch, wp_modify]
  have hpublish := publishCommands_keepsEndpoint commands effects now
    (answered linkId core now s endpoint)
  refine wp_mono (wp_and hpublish (publishCommands_frame commands effects now
    (answered linkId core now s endpoint))) fun result s₁ h₁ => ?_
  have hkept : s₁.endpoint = endpoint ∧ s₁.core = core := ⟨h₁.1, h₁.2.core⟩
  cases result with
  | error error => exact hkept
  | ok =>
    simp only [wp_bind, wp_get]
    split
    · exact hkept
    · split <;> exact hkept

/-- Both packets of an answer are queued for the link that the endpoint holds, and recorded. -/
def AnswerQueued (linkId : LinkId) (before after : TelephonyRnsEndpoint rns) : Prop :=
  ∃ link role connecting established,
    before.ownedLink linkId = .ok (link, role) ∧
      rns.packLxstLinkPacket link (signallingPacket (.status .connecting)) = .ok connecting ∧
      rns.packLxstLinkPacket link (signallingPacket (.status .established)) = .ok established ∧
      after.transport.queue = before.transport.queue ++
        [.sendLinkEndpoint (rns.linkId link) role connecting,
          .sendLinkEndpoint (rns.linkId link) role established] ∧
      after.pendingControlResults = before.pendingControlResults ++
        [⟨linkId, role, .waiting⟩, ⟨linkId, role, .waiting⟩]

/-- The call is answered and not yet established. -/
def AnswerPending (linkId : LinkId) (core : TelephonyRuntimeCore) : Prop :=
  ∃ active, core.activeCall = some active ∧ active.linkId = linkId ∧
    active.call.status = .connecting ∧ active.call.answered = true

theorem prepareSignal_ok {endpoint : TelephonyRnsEndpoint rns} {command : LinkId × Signal}
    {prepared : TelephonyRnsEndpoint.PreparedSignal}
    (h : endpoint.prepareSignal command = .ok prepared) :
    ∃ link role raw, endpoint.ownedLink command.1 = .ok (link, role) ∧
      rns.packLxstLinkPacket link (signallingPacket command.2) = .ok raw ∧
      prepared = { linkId := command.1, role,
                   message := .sendLinkEndpoint (rns.linkId link) role raw,
                   encryptedLen := rns.packedPayloadLen raw } := by
  unfold TelephonyRnsEndpoint.prepareSignal at h
  obtain ⟨⟨link, role⟩, howned, h⟩ := result_bind_ok h
  obtain ⟨raw, hraw, h⟩ := result_bind_ok h
  cases h
  exact ⟨link, role, raw, howned, hraw, rfl⟩

theorem executeSignallingBatch_answer {linkId : LinkId} {commands : List TelephonyCommand}
    {effects : List TelephonyCommandEffect} {endpoint : TelephonyRnsEndpoint rns}
    (hsignals : TelephonyRnsEndpoint.signalCommands commands =
      [(linkId, .status .connecting), (linkId, .status .established)])
    (hbatch : (TelephonyRnsEndpoint.executeSignallingBatch commands endpoint).1 = .ok effects) :
    AnswerQueued linkId endpoint
      (TelephonyRnsEndpoint.executeSignallingBatch commands endpoint).2 := by
  rcases TelephonyRnsEndpoint.executeSignallingBatch_cases commands endpoint with
    ⟨_, h⟩ | ⟨prepared, hprepared, h⟩
  · rw [h] at hbatch
    cases hbatch
  rw [hsignals, List.mapM_cons, List.mapM_cons, List.mapM_nil] at hprepared
  obtain ⟨first, hfirst, hprepared⟩ := result_bind_ok hprepared
  obtain ⟨others, hothers, hprepared⟩ := result_bind_ok hprepared
  obtain ⟨second, hsecond, hothers⟩ := result_bind_ok hothers
  cases hprepared
  cases hothers
  obtain ⟨link, role, connecting, howned, hconnecting, rfl⟩ := prepareSignal_ok hfirst
  obtain ⟨link', role', established, howned', hestablished, rfl⟩ := prepareSignal_ok hsecond
  rw [howned] at howned'
  cases howned'
  obtain ⟨htransport, hpending⟩ := TelephonyRnsEndpoint.recordSends_kept _ _
  rw [h]
  refine ⟨link, role, connecting, established, howned, hconnecting, hestablished, ?_, hpending⟩
  rw [htransport]
  rfl

/-- If the core or the endpoint refuses the answer, nothing has changed. Otherwise both packets
are queued, one after the other, and the call is connecting. -/
theorem answer_atomic (linkId : LinkId) (now : Instant) (s : TelephonyService rns audio) :
    (∀ error, (s.core.answerActive linkId).1 = .error error →
      answerExact linkId now s = (.error error, s)) ∧
    ∀ commands, (s.core.answerActive linkId).1 = .ok commands →
      (∀ error,
        (TelephonyRnsEndpoint.executeSignallingBatch commands s.endpoint).1 = .error error →
        answerExact linkId now s = (.error error, s)) ∧
      ∀ effects,
        (TelephonyRnsEndpoint.executeSignallingBatch commands s.endpoint).1 = .ok effects →
        AnswerQueued linkId s.endpoint (answerExact linkId now s).2.endpoint ∧
          AnswerPending linkId (answerExact linkId now s).2.core := by
  refine ⟨fun error => answerExact_unanswerable, fun commands hanswer => ⟨?_, ?_⟩⟩
  · intro error hbatch
    apply answerExact_refused hanswer
    rcases TelephonyRnsEndpoint.executeSignallingBatch_cases commands s.endpoint with
      ⟨_, h⟩ | ⟨_, -, h⟩
    · rw [h] at hbatch
      cases hbatch
      exact h
    · rw [h] at hbatch
      cases hbatch
  · intro effects hbatch
    rcases s.core.answerActive_cases linkId with
      ⟨_, h⟩ | ⟨active, _, hactive, hlink, hrole, hstatus, -, h⟩
    · rw [h] at hanswer
      cases hanswer
    have hcommands : commands =
        commandsFromActions active.linkId (some active.remoteIdentity) active.call.answer.2 := by
      rw [← Except.ok.injEq (ε := Error), ← hanswer]
      simp only [TelephonyRuntimeCore.answerActive, hactive]
      simp [hlink, hrole, hstatus]
    rw [h] at hanswer
    cases hanswer
    obtain ⟨hendpoint, hcore⟩ := answerExact_taken now h (Prod.ext hbatch rfl)
    rw [hendpoint, hcore]
    refine ⟨executeSignallingBatch_answer ?_ hbatch, _, rfl, hlink, ?_⟩
    · rw [hcommands, hlink]
      exact signalCommands_answer hrole hstatus linkId _
    · rw [CallState.answer_ringing hrole hstatus]
      exact ⟨rfl, rfl⟩

end TelephonyService

end Lxst.Telephony
