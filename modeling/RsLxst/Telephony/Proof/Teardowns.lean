import RsLxst.Lib.Attempts
import RsLxst.Lib.Machine
import RsLxst.Telephony.Endpoint

/-!
# Teardowns after a failed command

`execute_commands` stops at the first command that fails, so what is left of the list is not
attempted. `refuses` says on the state before a command whether the endpoint fails it
(`executeCommand_isOk`), and every teardown of a list is attempted exactly if no command is refused
while a teardown is still to come (`teardowns_attempted_iff`).
-/

set_option autoImplicit false

namespace Lxst.Telephony

variable {rns : Rns}

namespace TelephonyRnsEndpoint

variable (self : TelephonyRnsEndpoint rns)

/-! ## What is attempted -/

def commandFails (command : TelephonyCommand) : Bool := !(executeCommand command self).1.isOk

def afterCommand (command : TelephonyCommand) : TelephonyRnsEndpoint rns :=
  (executeCommand command self).2

/-- The commands of the list that are run on the endpoint. -/
def attempted (commands : List TelephonyCommand) : List TelephonyCommand :=
  Attempts.taken commandFails afterCommand self commands

def notAttempted (commands : List TelephonyCommand) : List TelephonyCommand :=
  Attempts.skipped commandFails afterCommand self commands

theorem executeCommands_ok {command : TelephonyCommand} {effect : TelephonyCommandEffect}
    {after : TelephonyRnsEndpoint rns} (h : executeCommand command self = (.ok effect, after))
    (commands : List TelephonyCommand) :
    (executeCommands (command :: commands) self).2 = (executeCommands commands after).2 := by
  have hrun : executeCommands (command :: commands) self =
      ((executeCommands commands).run >>= ExceptT.bindCont fun effects =>
        pure (effect :: effects) : EndpointM rns _) after := by
    show (ExceptT.bindCont _ (executeCommand command self).1 : EndpointM rns _) _ = _
    rw [h]
    rfl
  rw [hrun]
  show ((ExceptT.bindCont _ (executeCommands commands after).1 : EndpointM rns _)
    (executeCommands commands after).2).2 = _
  cases (executeCommands commands after).1 <;> rfl

theorem executeCommands_error {command : TelephonyCommand} {error : Error}
    {after : TelephonyRnsEndpoint rns} (h : executeCommand command self = (.error error, after))
    (commands : List TelephonyCommand) :
    executeCommands (command :: commands) self = (.error error, after) := by
  show (ExceptT.bindCont _ (executeCommand command self).1 : EndpointM rns _) _ = _
  rw [h]
  rfl

/-- A list leaves the endpoint as the commands that are attempted leave it. -/
theorem executeCommands_attempted (commands : List TelephonyCommand) :
    (executeCommands commands self).2 = (self.attempted commands).foldl afterCommand self := by
  induction commands generalizing self with
  | nil => rfl
  | cons command commands ih =>
    rcases h : executeCommand command self with ⟨error | effect, after⟩
    · rw [executeCommands_error self h]
      simp [attempted, Attempts.taken, commandFails, afterCommand, h, Except.isOk, Except.toBool]
    · rw [executeCommands_ok self h, ih]
      simp [attempted, Attempts.taken, commandFails, afterCommand, h, Except.isOk, Except.toBool]

/-! ## What is refused -/

/-- The link manager refuses the command. -/
def managerRefuses (linkId : LinkId) : TelephonyCommand → Bool
  | .sendSignal _ signal =>
    match rns.encodePacket (signallingPacket signal) with
    | .error _ => true
    | .ok payload =>
      !(rns.sendLinkPacket (self.manager, self.transport, self.inbox) linkId payload).1.isOk
  | .identifyLocalIdentity _ =>
    !(rns.sendLinkIdentify (self.manager, self.transport, self.inbox) linkId).1.isOk
  | _ => false

/-- There is no such outgoing link, its packet cannot be prepared, or the queue does not take it. -/
def outgoingRefuses (linkId : LinkId) (command : TelephonyCommand) : Bool :=
  match self.outgoingLinks.lookup linkId with
  | none => true
  | some state =>
    match prepareCommandWithLink state.link .initiator command with
    | .error _ => true
    | .ok prepared => prepared.message.isSome && (self.transport.closed || self.transport.free = 0)

def refuses (command : TelephonyCommand) : Bool :=
  if !actsOnLink command then false
  else if (rns.getLink self.manager command.linkId).isSome then
    self.managerRefuses command.linkId command
  else if isTeardown command ∧ (self.outgoingAttempts.lookup command.linkId).isSome then false
  else self.outgoingRefuses command.linkId command

theorem isOk_ok {ε α : Type} (a : α) : (Except.ok a : Except ε α).isOk = true := rfl

theorem isOk_error {ε α : Type} (e : ε) : (Except.error e : Except ε α).isOk = false := rfl

theorem executeManagedCommand_isOk (linkId : LinkId) (command : TelephonyCommand) :
    (executeManagedCommand linkId command self).1.isOk = !self.managerRefuses linkId command := by
  cases command with
  | sendSignal target signal =>
    simp only [executeManagedCommand, managerRefuses]
    cases hencode : rns.encodePacket (signallingPacket signal) with
    | error error =>
      rw [ofResult_bind_error rfl]
      rfl
    | ok payload =>
      rw [ofResult_bind_ok rfl, always_bind]
      simp only [onManager]
      cases (rns.sendLinkPacket (self.manager, self.transport, self.inbox) linkId payload).1 with
      | error text => rfl
      | ok => rfl
  | identifyLocalIdentity target =>
    simp only [executeManagedCommand, managerRefuses, always_bind, onManager]
    cases (rns.sendLinkIdentify (self.manager, self.transport, self.inbox) linkId).1 with
    | error text => rfl
    | ok => rfl
  | _ => rfl

theorem queuePreparedControl_isOk (linkId : LinkId) (role : LinkEndpointRole)
    (message : TransportMessage) :
    ((queuePreparedControl linkId role message).run self).1.isOk =
      !(self.transport.closed || self.transport.free = 0) := by
  have hsend : ((queuePreparedControl linkId role message).run self).1.isOk =
      (self.transport.trySend message).1.isOk := by
    show (Prod.fst ((ExceptT.bindCont _ ((self.transport.trySend message).1.mapError
      transportError) : EndpointM rns _) _)).isOk = _
    cases (self.transport.trySend message).1 <;> rfl
  rw [hsend, BoundedQueue.trySend]
  cases self.transport.closed with
  | true => rfl
  | false =>
    by_cases hfull : self.transport.free = 0
    · simp [hfull, isOk_error]
    · simp [hfull, isOk_ok]

theorem updateOutgoingLink_transport (linkId : LinkId) (f : rns.Link → rns.Link) :
    (updateOutgoingLink linkId f self).2.transport = self.transport := by
  unfold updateOutgoingLink Program.modify
  dsimp only
  split <;> rfl

theorem executeOutgoingCommand_isOk (linkId : LinkId) (command : TelephonyCommand) :
    (executeOutgoingCommand linkId command self).1.isOk =
      !self.outgoingRefuses linkId command := by
  unfold executeOutgoingCommand outgoingRefuses
  rw [get_bind]
  cases self.outgoingLinks.lookup linkId with
  | none => rfl
  | some state =>
    dsimp only
    cases prepareCommandWithLink state.link .initiator command with
    | error error =>
      rw [ofResult_bind_error rfl]
      rfl
    | ok prepared =>
      obtain ⟨effect, message, link⟩ := prepared
      rw [ofResult_bind_ok rfl, always_bind]
      have htransport := self.updateOutgoingLink_transport linkId fun _ => link
      generalize (updateOutgoingLink linkId (fun _ => link) self).2 = updated at *
      cases message with
      | none =>
        dsimp only
        split <;> rfl
      | some message =>
        have hqueue := updated.queuePreparedControl_isOk linkId .initiator message.1
        rw [htransport] at hqueue
        dsimp only
        rw [always_bind]
        rw [Option.isSome_some, Bool.true_and, ← hqueue]
        cases ((queuePreparedControl linkId .initiator message.1).run updated).1 with
        | error error =>
          dsimp only
          split <;> rfl
        | ok =>
          dsimp only
          rw [always_bind]
          split <;> rfl

/-- A command fails exactly if the endpoint refuses it. -/
theorem executeCommand_isOk (command : TelephonyCommand) :
    (executeCommand command self).1.isOk = !self.refuses command := by
  unfold executeCommand refuses
  by_cases hacts : !actsOnLink command
  · rw [if_pos hacts, if_pos hacts]
    rfl
  · rw [if_neg hacts, if_neg hacts, get_bind]
    by_cases hmanaged : (rns.getLink self.manager command.linkId).isSome
    · rw [if_pos hmanaged, if_pos hmanaged]
      exact self.executeManagedCommand_isOk command.linkId command
    · rw [if_neg hmanaged, if_neg hmanaged]
      by_cases hattempt : isTeardown command ∧
          (self.outgoingAttempts.lookup command.linkId).isSome
      · rw [if_pos hattempt, if_pos hattempt]
        rfl
      · rw [if_neg hattempt, if_neg hattempt]
        exact self.executeOutgoingCommand_isOk command.linkId command

/-! ## The teardowns of a list -/

/-- Every teardown of the list is attempted. -/
def AttemptsTeardowns (commands : List TelephonyCommand) : Prop :=
  ∀ command ∈ self.notAttempted commands, isTeardown command = false

/-- No command is refused while a teardown is still to come. -/
def ClearForTeardowns (commands : List TelephonyCommand) : Prop :=
  Attempts.ClearFor refuses afterCommand isTeardown self commands

/-- **Every teardown of a list is attempted** exactly if no command that stands before a teardown
is refused in the state that the commands before it leave. -/
theorem teardowns_attempted_iff (commands : List TelephonyCommand) :
    self.AttemptsTeardowns commands ↔ self.ClearForTeardowns commands := by
  have hfails (self : TelephonyRnsEndpoint rns) (command : TelephonyCommand) :
      self.commandFails command = self.refuses command := by
    rw [commandFails, executeCommand_isOk, Bool.not_not]
  rw [ClearForTeardowns, ← Attempts.ClearFor.congr hfails, ← Attempts.skips_none_iff]
  rw [AttemptsTeardowns, notAttempted, List.any_eq_false]
  simp only [Bool.not_eq_true]

/-- A call over an established outgoing link, while the transport queue is full and another link
waits for its caller to be identified. -/
def congested : TelephonyRnsEndpoint Rns.plain :=
  { TelephonyRnsEndpoint.new (.replicate 16 0) [.replicate 16 8] ⟨[], [], [], []⟩
      ⟨[.requestPath (.replicate 16 1)], 1, false⟩ with
    outgoingLinks := AList.insert (.replicate 16 7)
      { link := (.replicate 16 7 : Vector UInt8 16), eventRx := ⟨[], true⟩, endpoint := none } ∅ }

/-- At shutdown the teardown of the call's link fails, and that of the other link is left out. -/
theorem teardowns_attempted_shutdown :
    ¬ ∀ (rns : Rns) (self : TelephonyRnsEndpoint rns) (ops : List TelephonyRuntimeCore.Op)
      (op : TelephonyRuntimeCore.Op),
      self.AttemptsTeardowns ((Machine.run (TelephonyRuntimeCore.step rns.readValue) .new ops).step
        rns.readValue op).2 := by
  intro hall
  have hskipped := hall Rns.plain congested
    [.acceptLinkEvent (.linkEstablished (.replicate 16 8)),
      .startOutgoingCall (.replicate 16 7) (.replicate 16 9) none,
      .acceptLinkEvent (.linkEstablished (.replicate 16 7))] .shutdown
    (.teardownLink (.replicate 16 8)) (by decide)
  cases hskipped

end TelephonyRnsEndpoint

end Lxst.Telephony
