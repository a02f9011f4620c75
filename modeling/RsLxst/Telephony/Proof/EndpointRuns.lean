import RsLxst.Lib.Machine
import RsLxst.Telephony.Media
import RsLxst.Telephony.Proof.Signalling

/-!
# The endpoint's methods as runs of its primitive operations

`Primitives Step` lists the operations that the methods of the endpoint are made of, each a step of
a relation `Step` between endpoints. `Moves Step p` says that the method `p` is a run of such steps.
It holds of every call on an endpoint, for any `Step` with the primitives
(`EndpointCall.moves`); so what is shown of the runs of `Step` holds of the endpoint's calls in any
order, with the link manager and the reader of the transport queue in between.
-/

set_option autoImplicit false

namespace Lxst.Telephony

variable {rns : Rns} {α β ι : Type} {self : TelephonyRnsEndpoint rns}

/-! ## Primitive operations -/

/-- What a primitive operation writes: the tables of links by their keys, and who owes what. -/
structure Tables (rns : Rns) where
  manager : rns.Manager
  attempts : List LinkId
  links : List LinkId
  media : List PendingMediaResult
  cleanup : List PendingOutgoingCleanup
  drops : Table Nat

namespace TelephonyRnsEndpoint

def tables (self : TelephonyRnsEndpoint rns) : Tables rns :=
  { manager := self.manager, attempts := self.outgoingAttempts.keys
    links := self.outgoingLinks.keys, media := self.pendingMediaResults
    cleanup := self.pendingOutgoingCleanup, drops := self.mediaDrops }

/-- The endpoint sends to the link in this role. -/
def Owns (self : TelephonyRnsEndpoint rns) (linkId : LinkId) (role : LinkEndpointRole) : Prop :=
  ∃ link, self.ownedLink linkId = .ok (link, role)

/-- The results of earlier media sends are taken and the dropped ones are counted. -/
def observed (self : TelephonyRnsEndpoint rns) : TelephonyRnsEndpoint rns :=
  { (countDrops self.pendingMediaResults self).2 with
    pendingMediaResults := self.pendingMediaResults.filter (isWaiting ·.resultRx) }

theorem countDrops_eq (pendings : List PendingMediaResult) (self : TelephonyRnsEndpoint rns) :
    ∃ mediaDrops, (countDrops pendings self).2 = { self with mediaDrops } := by
  induction pendings generalizing self with
  | nil => exact ⟨_, rfl⟩
  | cons pending rest ih =>
    rw [countDrops]
    split
    · exact ih (countDrop pending.linkId self).2
    · exact ih self

/-- A link that is replaced by itself after an operation. -/
theorem updateOutgoingLink_tables (linkId : LinkId) (f : rns.Link → rns.Link) :
    (updateOutgoingLink linkId f self).2.tables = self.tables := by
  show (Program.wp _ (fun _ after => after.tables = self.tables) self)
  unfold updateOutgoingLink
  rw [Program.wp_modify]
  split
  · simp [tables, AList.keys_replace]
  · rfl

end TelephonyRnsEndpoint

/-- The primitive operations are steps. -/
structure Primitives (Step : TelephonyRnsEndpoint rns → ι → TelephonyRnsEndpoint rns → Prop) :
    Prop where
  keep {before after : TelephonyRnsEndpoint rns} (h : after.tables = before.tables) :
    ∃ i, Step before i after
  flush (self : TelephonyRnsEndpoint rns) : ∃ i, Step self i self.flushOutgoingCleanup.2
  finish (self : TelephonyRnsEndpoint rns) (linkId : LinkId) (unbind : Bool) :
    ∃ i, Step self i (self.finishOutgoingLinkLocally linkId unbind).2
  /-- An operation of the link manager. -/
  manage (self : TelephonyRnsEndpoint rns) (manager : rns.Manager) (transport : TransportQueue)
    (inbox : Inbox) : ∃ i, Step self i { self with manager, transport, inbox }
  dial (self : TelephonyRnsEndpoint rns) (linkId : LinkId) (attempt : OutgoingLinkAttempt rns) :
    ∃ i, Step self i { self with
      outgoingAttempts := self.outgoingAttempts.insert linkId attempt }
  establish (self : TelephonyRnsEndpoint rns) {linkId : LinkId}
    (hattempt : linkId ∈ self.outgoingAttempts) (state : OutgoingLinkState rns)
    (transport : TransportQueue) (pendingControlResults : List PendingControlResult) :
    ∃ i, Step self i { self with
      transport
      outgoingAttempts := self.outgoingAttempts.erase linkId
      pendingControlResults
      outgoingLinks := self.outgoingLinks.insert linkId state }
  enqueue (self : TelephonyRnsEndpoint rns) {linkId : LinkId} {role : LinkEndpointRole}
    (howns : self.Owns linkId role) (encryptedLen : Nat) (transport : TransportQueue) :
    ∃ i, Step self i { self with
      transport
      pendingMediaResults :=
        self.pendingMediaResults ++ [⟨linkId, role, encryptedLen, .waiting⟩] }
  refuse (self : TelephonyRnsEndpoint rns) {linkId : LinkId} {role : LinkEndpointRole}
    (howns : self.Owns linkId role) {message : TransportMessage}
    (hfull : (self.transport.trySend message).1 = .error .full) :
    ∃ i, Step self i (TelephonyRnsEndpoint.countDrop linkId self).2
  observe (self : TelephonyRnsEndpoint rns) : ∃ i, Step self i self.observed

/-! ## Runs -/

variable {Step : TelephonyRnsEndpoint rns → ι → TelephonyRnsEndpoint rns → Prop}

/-- From this state the method is a run of steps. -/
def MovesAt (Step : TelephonyRnsEndpoint rns → ι → TelephonyRnsEndpoint rns → Prop)
    (self : TelephonyRnsEndpoint rns) (p : EndpointM rns α) : Prop :=
  ∃ ts, Machine.Trace Step self ts (p self).2

def Moves (Step : TelephonyRnsEndpoint rns → ι → TelephonyRnsEndpoint rns → Prop)
    (p : EndpointM rns α) : Prop := ∀ self, MovesAt Step self p

theorem MovesAt.step {p : EndpointM rns α} (h : ∃ i, Step self i (p self).2) :
    MovesAt Step self p := by
  obtain ⟨i, hstep⟩ := h
  exact ⟨[_], .cons hstep (.nil _)⟩

theorem MovesAt.bind {p : EndpointM rns α} {f : α → EndpointM rns β} (hp : MovesAt Step self p)
    (hf : MovesAt Step (p self).2 (f (p self).1)) : MovesAt Step self (p >>= f) := by
  obtain ⟨ts, hts⟩ := hp
  obtain ⟨us, hus⟩ := hf
  exact ⟨ts ++ us, Machine.Trace.append_iff.2 ⟨_, hts, hus⟩⟩

theorem MovesAt.pure (a : α) : MovesAt Step self (pure a : EndpointM rns α) := ⟨[], .nil _⟩

theorem MovesAt.get {f : TelephonyRnsEndpoint rns → EndpointM rns α}
    (hf : MovesAt Step self (f self)) : MovesAt Step self (Program.get >>= f) := hf

theorem MovesAt.set {s' : TelephonyRnsEndpoint rns} {f : Unit → EndpointM rns α}
    (h : ∃ i, Step self i s') (hf : MovesAt Step s' (f ())) :
    MovesAt Step self (Program.set s' >>= f) := MovesAt.bind (p := Program.set s') (.step h) hf

theorem MovesAt.getE {f : TelephonyRnsEndpoint rns → EndpointE rns α}
    (hf : MovesAt Step self (f self).run) :
    MovesAt Step self (TelephonyRnsEndpoint.always Program.get >>= f).run := hf

theorem MovesAt.setE {s' : TelephonyRnsEndpoint rns} {f : Unit → EndpointE rns α}
    (h : ∃ i, Step self i s') (hf : MovesAt Step s' (f ()).run) :
    MovesAt Step self (TelephonyRnsEndpoint.always (Program.set s') >>= f).run :=
  MovesAt.bind (p := Program.set s') (.step h) hf

theorem Moves.bind {p : EndpointM rns α} {f : α → EndpointM rns β} (hp : Moves Step p)
    (hf : ∀ a, Moves Step (f a)) : Moves Step (p >>= f) :=
  fun self => (hp self).bind (hf _ _)

theorem Moves.pure (a : α) : Moves Step (pure a : EndpointM rns α) := fun _ => .pure a

theorem Moves.get : Moves Step (Program.get : EndpointM rns _) := fun _ => ⟨[], .nil _⟩

theorem Moves.modify (hprim : Primitives Step)
    {f : TelephonyRnsEndpoint rns → TelephonyRnsEndpoint rns}
    (h : ∀ self, (f self).tables = self.tables) : Moves Step (Program.modify f) :=
  fun self => .step (hprim.keep (h self))

theorem Moves.modifyE (hprim : Primitives Step)
    {f : TelephonyRnsEndpoint rns → TelephonyRnsEndpoint rns}
    (h : ∀ self, (f self).tables = self.tables) :
    Moves Step (TelephonyRnsEndpoint.always (Program.modify f)).run :=
  fun self => .step (hprim.keep (h self))

/-- A fallible method, and what follows its success. -/
theorem MovesAt.bindE {p : EndpointE rns α} {f : α → EndpointE rns β}
    (hp : MovesAt Step self p.run) (hf : ∀ a, MovesAt Step (p.run self).2 (f a).run) :
    MovesAt Step self (p >>= f).run := by
  show MovesAt Step self (p.run >>= ExceptT.bindCont f)
  apply MovesAt.bind hp
  cases (p.run self).1 with
  | error error => exact .pure _
  | ok a => exact hf a

theorem Moves.bindE {p : EndpointE rns α} {f : α → EndpointE rns β} (hp : Moves Step p.run)
    (hf : ∀ a, Moves Step (f a).run) : Moves Step (p >>= f).run :=
  fun self => (hp self).bindE fun a => hf a _

/-- Two methods that do not fail, taken together. -/
theorem MovesAt.bothE {p q : EndpointM rns Unit} {f : Unit → EndpointE rns α}
    (h : MovesAt Step self (p >>= fun _ => q)) (hf : Moves Step (f ()).run) :
    MovesAt Step self (TelephonyRnsEndpoint.always p >>= fun _ =>
      TelephonyRnsEndpoint.always q >>= f).run := by
  obtain ⟨ts, hts⟩ := h
  obtain ⟨us, hus⟩ := hf _
  exact ⟨ts ++ us, Machine.Trace.append_iff.2 ⟨_, hts, hus⟩⟩

theorem MovesAt.ofResultBind {result : Except Error α} {f : α → EndpointE rns β}
    (hf : ∀ a, result = .ok a → MovesAt Step self (f a).run) :
    MovesAt Step self (TelephonyRnsEndpoint.ofResult result >>= f).run := by
  cases result with
  | error error => exact .pure _
  | ok a => exact hf a rfl

theorem Moves.alwaysBind {p : EndpointM rns α} {f : α → EndpointE rns β} (hp : Moves Step p)
    (hf : ∀ a, Moves Step (f a).run) : Moves Step (TelephonyRnsEndpoint.always p >>= f).run :=
  fun self => (hp self).bind (hf _ _)

theorem Moves.ofResultBind {result : Except Error α} {f : α → EndpointE rns β}
    (hf : ∀ a, Moves Step (f a).run) :
    Moves Step (TelephonyRnsEndpoint.ofResult result >>= f).run :=
  fun self => .ofResultBind fun a _ => hf a self

theorem Moves.throwBind (error : Error) (f : α → EndpointE rns β) :
    Moves Step (throw error >>= f).run := fun _ => ⟨[], .nil _⟩

section
variable (hprim : Primitives Step)
include hprim

namespace TelephonyRnsEndpoint

/-! ## Sends and closings -/

theorem finishOutgoingLinkLocally_moves (linkId : LinkId) (unbind : Bool) :
    Moves Step (finishOutgoingLinkLocally linkId unbind : EndpointM rns Unit) :=
  fun self => .step (hprim.finish self linkId unbind)

theorem flushOutgoingCleanup_moves : Moves Step (flushOutgoingCleanup : EndpointM rns Unit) :=
  fun self => .step (hprim.flush self)

theorem onManager_moves (op : rns.Manager × TransportQueue × Inbox →
    α × rns.Manager × TransportQueue × Inbox) : Moves Step (onManager op) :=
  fun self => .step (hprim.manage self _ _ _)

theorem closeLinkOwner_moves (linkId : LinkId) (role : LinkEndpointRole) :
    Moves Step (closeLinkOwner linkId role : EndpointM rns Unit) := by
  cases role with
  | initiator => exact finishOutgoingLinkLocally_moves hprim linkId true
  | responder => exact .bind (onManager_moves hprim _) fun _ => .pure ()

theorem trySendTransport_moves (message : TransportMessage) :
    Moves Step (trySendTransport message : EndpointE rns Unit).run :=
  fun _ => .step (hprim.keep rfl)

theorem updateOutgoingLink_moves (linkId : LinkId) (f : rns.Link → rns.Link) :
    Moves Step (updateOutgoingLink linkId f) :=
  fun _ => .step (hprim.keep (updateOutgoingLink_tables linkId f))

theorem updateOwnedLink_moves (linkId : LinkId) (f : rns.Link → rns.Link) :
    Moves Step (updateOwnedLink linkId f) := by
  intro self
  apply MovesAt.get
  split
  · exact .step (hprim.manage self _ self.transport self.inbox)
  · exact updateOutgoingLink_moves hprim linkId f self

theorem queuePreparedControl_moves (linkId : LinkId) (role : LinkEndpointRole)
    (message : TransportMessage) :
    Moves Step (queuePreparedControl linkId role message : EndpointE rns Unit).run :=
  .bindE (trySendTransport_moves hprim message) fun _ => .modifyE hprim fun _ => rfl

/-! ## Commands -/

theorem executeManagedCommand_moves (linkId : LinkId) (command : TelephonyCommand) :
    Moves Step (executeManagedCommand linkId command : EndpointE rns _).run := by
  cases command with
  | sendSignal target signal =>
    refine .ofResultBind fun payload => .alwaysBind (onManager_moves hprim _) fun sent => ?_
    cases sent <;> exact .pure _
  | identifyLocalIdentity target =>
    refine .alwaysBind (onManager_moves hprim _) fun sent => ?_
    cases sent <;> exact .pure _
  | teardownLink target => exact .alwaysBind (onManager_moves hprim _) fun _ => .pure _
  | _ => exact .pure _

theorem executeOutgoingCommand_moves (linkId : LinkId) (command : TelephonyCommand) :
    Moves Step (executeOutgoingCommand linkId command : EndpointE rns _).run := by
  unfold executeOutgoingCommand
  refine .alwaysBind .get fun self => ?_
  cases self.outgoingLinks.lookup linkId with
  | none => exact .pure _
  | some state =>
    refine .ofResultBind fun prepared => ?_
    refine .alwaysBind (updateOutgoingLink_moves hprim linkId _) fun _ => ?_
    have hend : Moves Step (do
        if isTeardown command then always (finishOutgoingLinkLocally linkId false)
        pure prepared.effect : EndpointE rns _).run := by
      split
      · exact .alwaysBind (finishOutgoingLinkLocally_moves hprim linkId false) fun _ => .pure _
      · exact .pure _
    cases prepared.message with
    | none => exact hend
    | some message =>
      refine .alwaysBind (queuePreparedControl_moves hprim _ _ _) fun sent => ?_
      cases sent with
      | ok => exact .alwaysBind (updateOutgoingLink_moves hprim linkId _) fun _ => hend
      | error error =>
        dsimp only
        split
        · exact .alwaysBind (finishOutgoingLinkLocally_moves hprim linkId true) fun _ =>
            .throwBind error _
        · exact .throwBind error _

theorem executeCommand_moves (command : TelephonyCommand) :
    Moves Step (executeCommand command : EndpointE rns _).run := by
  unfold executeCommand
  split
  · exact .pure _
  · refine .alwaysBind .get fun self => ?_
    split
    · exact executeManagedCommand_moves hprim _ command
    · split
      · exact .alwaysBind (finishOutgoingLinkLocally_moves hprim _ true) fun _ => .pure _
      · exact executeOutgoingCommand_moves hprim _ command

theorem executeCommands_moves (commands : List TelephonyCommand) :
    Moves Step (executeCommands commands : EndpointE rns _).run := by
  induction commands with
  | nil => exact .pure _
  | cons command commands ih =>
    exact .bindE (executeCommand_moves hprim command) fun _ => .bindE ih fun _ => .pure _

theorem recordSends_moves (prepared : List PreparedSignal) :
    Moves Step (recordSends prepared : EndpointM rns Unit) := by
  induction prepared with
  | nil => exact .pure ()
  | cons first rest ih =>
    refine .bind (updateOwnedLink_moves hprim _ _) fun _ => ?_
    exact .bind (.modify hprim fun _ => rfl) fun _ => ih

theorem executeSignallingBatch_moves (commands : List TelephonyCommand) :
    Moves Step (executeSignallingBatch commands : EndpointE rns _).run := by
  intro self
  show ∃ ts, Machine.Trace Step self ts (executeSignallingBatch commands self).2
  rcases executeSignallingBatch_cases commands self with ⟨_, h⟩ | ⟨prepared, -, h⟩
  · rw [h]
    exact ⟨[], .nil self⟩
  · rw [h]
    let queued : TelephonyRnsEndpoint rns :=
      { self with transport := self.transport.push (prepared.map (·.message)) }
    obtain ⟨ts, hts⟩ := recordSends_moves hprim prepared queued
    obtain ⟨i, hqueued⟩ : ∃ i, Step self i queued := hprim.keep rfl
    exact ⟨_, .cons hqueued hts⟩

/-! ## Link events -/

theorem outgoingClosed_moves (linkId : LinkId) :
    Moves Step (outgoingClosed linkId : EndpointE rns _).run :=
  .alwaysBind (finishOutgoingLinkLocally_moves hprim linkId true) fun _ => .pure _

omit hprim in
/-- An attempt that is replaced. -/
theorem tables_attempt (linkId : LinkId) (attempt : OutgoingLinkAttempt rns) :
    { self with outgoingAttempts := self.outgoingAttempts.replace linkId attempt }.tables =
      self.tables := by
  simp [tables, AList.keys_replace]

omit hprim in
theorem tables_link (linkId : LinkId) (state : OutgoingLinkState rns) :
    { self with outgoingLinks := self.outgoingLinks.replace linkId state }.tables =
      self.tables := by
  simp [tables, AList.keys_replace]

theorem receiveProof_moves (linkId : LinkId) (body : List UInt8) (interfaceId : Nat)
    (interfaceOwner : Option Nat) (metrics : rns.Metrics) :
    Moves Step (receiveProof linkId body interfaceId interfaceOwner metrics).run := by
  intro self
  apply MovesAt.getE
  cases hattempt : self.outgoingAttempts.lookup linkId with
  | none => exact .pure _
  | some attempt =>
    have hmem : linkId ∈ self.outgoingAttempts :=
      AList.lookup_isSome.mp (Option.isSome_of_eq_some hattempt)
    dsimp only
    cases rns.verifyKey attempt.remotePublicKey with
    | error text => exact .pure _
    | ok key =>
      dsimp only
      rcases rns.validateProof attempt.link body key with ⟨_ | rttData, link⟩
      · exact .setE (hprim.keep (tables_attempt linkId _)) (.pure _)
      · dsimp only
        split
        · refine Moves.alwaysBind (finishOutgoingLinkLocally_moves hprim linkId true)
            (fun _ => ?_) self
          exact .alwaysBind (.modify hprim fun _ => rfl) fun _ => .pure _
        · exact .setE (hprim.establish self hmem _ _ _) (.pure _)

theorem handleOutgoingAttemptEvent_moves (linkId : LinkId) (event : DestinationEvent rns) :
    Moves Step (handleOutgoingAttemptEvent linkId event).run := by
  cases event with
  | other => exact .pure _
  | linkClosed closed =>
    rw [handleOutgoingAttemptEvent]
    split
    · exact outgoingClosed_moves hprim linkId
    · exact .pure _
  | inboundPacket raw interfaceId interfaceOwner metrics =>
    rw [handleOutgoingAttemptEvent]
    split
    · exact .pure _
    · split
      · exact .pure _
      · exact receiveProof_moves hprim linkId _ interfaceId interfaceOwner metrics

theorem receiveActivePacket_moves (linkId : LinkId) (context : PacketContext) (body : List UInt8)
    (metrics : rns.Metrics) :
    Moves Step (receiveActivePacket linkId context body metrics).run := by
  refine .alwaysBind .get fun self => ?_
  cases self.outgoingLinks.lookup linkId with
  | none => exact .pure _
  | some state =>
    refine .alwaysBind (updateOutgoingLink_moves hprim linkId _) fun _ => ?_
    cases context with
    | linkClose =>
      refine .alwaysBind (updateOutgoingLink_moves hprim linkId _) fun _ => ?_
      split
      · exact outgoingClosed_moves hprim linkId
      · exact .pure _
    | none =>
      dsimp only
      split
      · exact .pure _
      · exact .alwaysBind (updateOutgoingLink_moves hprim linkId _) fun _ => .pure _
    | keepalive => exact .alwaysBind (updateOutgoingLink_moves hprim linkId _) fun _ => .pure _
    | _ => exact .pure _

theorem handleOutgoingActiveEvent_moves (linkId : LinkId) (event : DestinationEvent rns) :
    Moves Step (handleOutgoingActiveEvent linkId event).run := by
  cases event with
  | other => exact .pure _
  | linkClosed closed =>
    rw [handleOutgoingActiveEvent]
    split
    · exact outgoingClosed_moves hprim linkId
    · exact .pure _
  | inboundPacket raw interfaceId interfaceOwner metrics =>
    refine .alwaysBind .get fun self => ?_
    dsimp only
    split
    · exact .pure _
    · split
      · exact .pure _
      · split
        · exact .pure _
        · exact receiveActivePacket_moves hprim linkId _ _ metrics

theorem pollBindings_moves (linkIds : List LinkId) :
    Moves Step (pollBindings linkIds : EndpointE rns _).run := by
  induction linkIds with
  | nil => exact .pure _
  | cons linkId rest ih =>
    intro self
    apply MovesAt.getE
    split
    · rename_i endpoint _
      rcases pollBindResult endpoint.bindResultRx with ⟨_, unbound⟩
      apply MovesAt.setE
      · exact hprim.keep (tables_link linkId _)
      · split
        · exact outgoingClosed_moves hprim linkId _
        · exact ih _
    · exact ih self

theorem pollControlResults_moves : Moves Step (pollControlResults : EndpointE rns _).run := by
  intro self
  apply MovesAt.getE
  dsimp only
  apply MovesAt.setE
  · exact hprim.keep rfl
  · split
    · exact .pure _
    · exact Moves.alwaysBind (closeLinkOwner_moves hprim _ _) (fun _ => .pure _) _

theorem recordMediaSent_moves (pending : PendingMediaResult) :
    Moves Step (recordMediaSent pending : EndpointM rns Unit) := by
  intro self
  unfold recordMediaSent
  split
  · apply MovesAt.get
    split
    · exact .step (hprim.manage self _ self.transport self.inbox)
    · exact .pure _
  · exact updateOutgoingLink_moves hprim _ _ self

theorem recordMediaSents_moves (pendings : List PendingMediaResult) :
    Moves Step (recordMediaSents pendings : EndpointM rns Unit) := by
  induction pendings with
  | nil => exact .pure ()
  | cons pending rest ih =>
    rw [recordMediaSents]
    split
    · exact .bind (recordMediaSent_moves hprim pending) fun _ => ih
    · exact ih

theorem pollMediaResults_moves : Moves Step (pollMediaResults : EndpointE rns _).run := by
  intro self
  apply MovesAt.getE
  dsimp only
  apply MovesAt.bothE
  · exact .step (hprim.observe self)
  · refine .alwaysBind (recordMediaSents_moves hprim _) fun _ => ?_
    split
    · exact .pure _
    · exact .alwaysBind (closeLinkOwner_moves hprim _ _) fun _ => .pure _

omit hprim in
theorem orElseEvent_moves {first second : EndpointE rns (Option TelephonyLinkEvent)}
    (hfirst : Moves Step first.run) (hsecond : Moves Step second.run) :
    Moves Step (orElseEvent first second).run := by
  refine .bindE hfirst fun event => ?_
  cases event with
  | some event => exact .pure _
  | none => exact hsecond

theorem pollOutgoingEndpointState_moves :
    Moves Step (pollOutgoingEndpointState : EndpointE rns _).run :=
  .alwaysBind .get fun _ => orElseEvent_moves (pollBindings_moves hprim _)
    (orElseEvent_moves (pollControlResults_moves hprim) (pollMediaResults_moves hprim))

theorem pollAttempt_moves (linkId : LinkId) :
    Moves Step (pollAttempt linkId : EndpointE rns _).run := by
  intro self
  apply MovesAt.getE
  cases self.outgoingAttempts.lookup linkId with
  | none => exact .pure _
  | some attempt =>
    dsimp only
    split
    · exact outgoingClosed_moves hprim linkId self
    · exact outgoingClosed_moves hprim linkId self
    · exact .pure _
    all_goals
      split
      · apply MovesAt.setE
        · exact hprim.keep (tables_attempt linkId _)
        · exact handleOutgoingAttemptEvent_moves hprim linkId _ _
      · apply MovesAt.setE
        · exact hprim.keep (tables_attempt linkId _)
        · split
          · exact .pure _
          · exact outgoingClosed_moves hprim linkId _

theorem pollAttempts_moves (linkIds : List LinkId) :
    Moves Step (pollAttempts linkIds : EndpointE rns _).run := by
  induction linkIds with
  | nil => exact .pure _
  | cons linkId rest ih => exact orElseEvent_moves (pollAttempt_moves hprim linkId) ih

theorem pollLinks_moves (linkIds : List LinkId) :
    Moves Step (pollLinks linkIds : EndpointE rns _).run := by
  induction linkIds with
  | nil => exact .pure _
  | cons linkId rest ih =>
    intro self
    apply MovesAt.getE
    cases self.outgoingLinks.lookup linkId with
    | none => exact ih self
    | some state =>
      dsimp only
      split
      · apply MovesAt.setE
        · exact hprim.keep (tables_link linkId _)
        · exact handleOutgoingActiveEvent_moves hprim linkId _ _
      · split
        · exact ih self
        · exact outgoingClosed_moves hprim linkId self

theorem tryRecvOutgoingEvent_moves : Moves Step (tryRecvOutgoingEvent : EndpointE rns _).run := by
  refine .alwaysBind (flushOutgoingCleanup_moves hprim) fun _ self => ?_
  apply MovesAt.getE
  split
  · exact .setE (hprim.keep rfl) (.pure _)
  · refine orElseEvent_moves (pollOutgoingEndpointState_moves hprim) ?_ self
    refine .alwaysBind .get fun _ => orElseEvent_moves (pollAttempts_moves hprim _) ?_
    exact .alwaysBind .get fun _ => pollLinks_moves hprim _

theorem tryRecvLinkEvent_moves : Moves Step (tryRecvLinkEvent : EndpointE rns _).run := by
  intro self
  apply MovesAt.getE
  split
  · exact .setE (hprim.keep rfl) (.pure _)
  · exact .setE (hprim.keep rfl) (.pure _)
  · exact .setE (hprim.keep rfl) (.pure _)
  · exact .setE (hprim.keep rfl) (.pure _)
  · exact tryRecvOutgoingEvent_moves hprim self

/-! ## Media and ticks -/

/-- A packet is queued on a link that the endpoint owns, before and after the packet. -/
theorem queuePackedMediaPackets_moves {linkId : LinkId} {role : LinkEndpointRole}
    (howns : self.Owns linkId role) (packets : List (List UInt8)) :
    MovesAt Step self (queuePackedMediaPackets linkId role packets : EndpointE rns _).run := by
  induction packets generalizing self with
  | nil => exact .pure _
  | cons raw rest ih =>
    apply MovesAt.getE
    split
    · exact .pure _
    · rename_i hfull
      obtain ⟨i, hrefuse⟩ := hprim.refuse self howns (congrArg Prod.fst hfull)
      obtain ⟨ts, hts⟩ := @ih (countDrop linkId self).2 howns
      exact ⟨_, .cons hrefuse hts⟩
    · apply MovesAt.setE
      · exact hprim.enqueue self howns _ _
      · refine MovesAt.bindE (ih ?_) fun _ => .pure _
        exact howns

theorem queueFrames_moves (linkId : LinkId) (frames : List Frame) :
    Moves Step (queueFrames linkId frames : EndpointE rns _).run := by
  intro self
  apply MovesAt.getE
  refine .ofResultBind fun owned howned => .ofResultBind fun packets _ => ?_
  exact queuePackedMediaPackets_moves hprim ⟨owned.1, howned⟩ packets

theorem queueRawFrames_moves (audio : Audio) (linkId : LinkId) (bitDepth : RawBitDepth)
    (frames : List audio.Pcm) :
    Moves Step (queueRawFrames audio linkId bitDepth frames : EndpointE rns _).run := by
  intro self
  apply MovesAt.getE
  refine .ofResultBind fun owned howned => .ofResultBind fun frames _ => ?_
  refine .ofResultBind fun packets _ => ?_
  exact queuePackedMediaPackets_moves hprim ⟨owned.1, howned⟩ packets

theorem retireLink_moves (linkId : LinkId) (unbind : Bool) :
    Moves Step (retireLink linkId unbind : EndpointM rns Unit) :=
  .bind (finishOutgoingLinkLocally_moves hprim linkId unbind) fun _ => .modify hprim fun _ => rfl

theorem tickAttempts_moves (linkIds : List LinkId) :
    Moves Step (tickAttempts linkIds : EndpointM rns Unit) := by
  induction linkIds with
  | nil => exact .pure ()
  | cons linkId rest ih =>
    intro self
    apply MovesAt.get
    cases self.outgoingAttempts.lookup linkId with
    | none => exact ih self
    | some attempt =>
      dsimp only
      rcases rns.tickLink attempt.link with ⟨action, link⟩
      apply MovesAt.set
      · exact hprim.keep (tables_attempt linkId _)
      · split
        · exact Moves.bind (retireLink_moves hprim linkId true) (fun _ => ih) _
        · exact ih _

theorem tickLinks_moves (linkIds : List LinkId) :
    Moves Step (tickLinks linkIds : EndpointM rns Unit) := by
  induction linkIds with
  | nil => exact .pure ()
  | cons linkId rest ih =>
    refine .bind .get fun self => ?_
    cases self.outgoingLinks.lookup linkId with
    | none => exact ih
    | some state =>
      have hretire (unbind : Bool) : Moves Step (do
          retireLink linkId unbind
          tickLinks rest : EndpointM rns Unit) :=
        .bind (retireLink_moves hprim linkId unbind) fun _ => ih
      refine .bind (updateOutgoingLink_moves hprim linkId _) fun _ => ?_
      split
      case h_2 | h_3 =>
        refine .bind (queuePreparedControl_moves hprim linkId _ _) fun sent => ?_
        cases sent with
        | ok => exact .bind (updateOutgoingLink_moves hprim linkId _) fun _ => ih
        | error error => exact hretire true
      · exact ih
      · refine .bind (queuePreparedControl_moves hprim linkId _ _) fun sent => ?_
        cases sent with
        | ok => exact hretire false
        | error error => exact hretire true
      · exact hretire true

theorem tickReticulum_moves : Moves Step (tickReticulum : EndpointM rns Unit) := by
  refine .bind (flushOutgoingCleanup_moves hprim) fun _ => ?_
  refine .bind (onManager_moves hprim _) fun _ => ?_
  refine .bind .get fun self => .bind (tickAttempts_moves hprim _) fun _ => ?_
  exact .bind .get fun self => tickLinks_moves hprim _

/-! ## Outgoing calls -/

theorem announce_moves (entropy : Nat) :
    Moves Step (announce entropy : EndpointE rns Unit).run := by
  unfold announce
  cases rns.announcePacket entropy with
  | none => exact .pure _
  | some raw => exact .alwaysBind .get fun self => trySendTransport_moves hprim _

omit hprim in
theorem trySendTransport_tables {message : TransportMessage} {self after : TelephonyRnsEndpoint rns}
    {result : Except Error Unit} (h : trySendTransport message self = (result, after)) :
    after.tables = self.tables := by
  cases h
  rfl

theorem beginOutgoingLink_moves (self : TelephonyRnsEndpoint rns) (core : TelephonyRuntimeCore)
    (remoteIdentity : IdentityHash) (remotePublicKey : Vector UInt8 64) (profile : Option Profile)
    (hops entropy : Nat) :
    ∃ ts, Machine.Trace Step self ts (self.beginOutgoingLinkWithRemotePubkey core
      remoteIdentity remotePublicKey profile hops entropy).2.1 := by
  have hsent {after : TelephonyRnsEndpoint rns} (h : after.tables = self.tables) :
      ∃ ts, Machine.Trace Step self ts after := by
    obtain ⟨i, hstep⟩ := hprim.keep h
    exact ⟨[_], .cons hstep (.nil _)⟩
  unfold beginOutgoingLinkWithRemotePubkey requestPathToIdentity
  dsimp only
  split
  · rename_i hpath
    exact hsent (trySendTransport_tables hpath)
  rename_i hpath
  have hkept := trySendTransport_tables hpath
  split
  · exact hsent hkept
  split
  · rename_i hregister
    exact hsent ((trySendTransport_tables hregister).trans hkept)
  rename_i hregister
  have hkept := (trySendTransport_tables hregister).trans hkept
  split
  · rename_i hrequest
    obtain ⟨i, hstep⟩ := hprim.keep ((trySendTransport_tables hrequest).trans hkept)
    obtain ⟨j, hfinish⟩ := hprim.finish _ _ true
    exact ⟨[_, _], .cons hstep (.cons hfinish (.nil _))⟩
  · rename_i hrequest
    obtain ⟨i, hstep⟩ := hprim.keep ((trySendTransport_tables hrequest).trans hkept)
    obtain ⟨j, hdial⟩ := hprim.dial _ _ _
    exact ⟨[_, _], .cons hstep (.cons hdial (.nil _))⟩

end TelephonyRnsEndpoint

end

/-! ## Calls -/

/-- The calls on the endpoint. `recv_link_event` polls the outgoing side and then waits for the
inbox. -/
inductive EndpointCall
  | tryPumpReticulum
  | tickReticulum
  | tryRecvLinkEvent
  | tryRecvOutgoingEvent
  | executeCommand (command : TelephonyCommand)
  | executeCommands (commands : List TelephonyCommand)
  | executeSignallingBatch (commands : List TelephonyCommand)
  | announce (entropy : Nat)
  | requestPathToIdentity (identityHash : IdentityHash)
  | deregisterDestination
  | deregisterLinkDestination (linkId : LinkId)
  | queueFrames (linkId : LinkId) (frames : List Frame)
  | queueRawFrames (audio : Audio) (linkId : LinkId) (bitDepth : RawBitDepth)
    (frames : List audio.Pcm)
  | beginOutgoingLink (core : TelephonyRuntimeCore) (remoteIdentity : IdentityHash)
    (remotePublicKey : Vector UInt8 64) (profile : Option Profile) (hops : Nat) (entropy : Nat)

/-- The endpoint after a call. -/
def EndpointCall.after (self : TelephonyRnsEndpoint rns) :
    EndpointCall → TelephonyRnsEndpoint rns
  | tryPumpReticulum => self.tryPumpReticulum.2
  | tickReticulum => self.tickReticulum.2
  | tryRecvLinkEvent => (TelephonyRnsEndpoint.tryRecvLinkEvent self).2
  | tryRecvOutgoingEvent => (TelephonyRnsEndpoint.tryRecvOutgoingEvent self).2
  | executeCommand command => (TelephonyRnsEndpoint.executeCommand command self).2
  | executeCommands commands => (TelephonyRnsEndpoint.executeCommands commands self).2
  | executeSignallingBatch commands =>
    (TelephonyRnsEndpoint.executeSignallingBatch commands self).2
  | announce entropy => (TelephonyRnsEndpoint.announce entropy self).2
  | requestPathToIdentity identityHash =>
    (TelephonyRnsEndpoint.requestPathToIdentity identityHash self).2
  | deregisterDestination => (TelephonyRnsEndpoint.deregisterDestination self).2
  | deregisterLinkDestination linkId =>
    (TelephonyRnsEndpoint.deregisterLinkDestination linkId self).2
  | queueFrames linkId frames => (TelephonyRnsEndpoint.queueFrames linkId frames self).2
  | queueRawFrames audio linkId bitDepth frames =>
    (TelephonyRnsEndpoint.queueRawFrames audio linkId bitDepth frames self).2
  | beginOutgoingLink core remoteIdentity remotePublicKey profile hops entropy =>
    (self.beginOutgoingLinkWithRemotePubkey core remoteIdentity remotePublicKey profile hops
      entropy).2.1

/-- **Every call is a run** of the primitive operations. -/
theorem EndpointCall.moves (hprim : Primitives Step) (call : EndpointCall)
    (self : TelephonyRnsEndpoint rns) : ∃ ts, Machine.Trace Step self ts (call.after self) := by
  cases call with
  | tryPumpReticulum => exact TelephonyRnsEndpoint.onManager_moves hprim _ self
  | tickReticulum => exact TelephonyRnsEndpoint.tickReticulum_moves hprim self
  | tryRecvLinkEvent => exact TelephonyRnsEndpoint.tryRecvLinkEvent_moves hprim self
  | tryRecvOutgoingEvent => exact TelephonyRnsEndpoint.tryRecvOutgoingEvent_moves hprim self
  | executeCommand command => exact TelephonyRnsEndpoint.executeCommand_moves hprim command self
  | executeCommands commands =>
    exact TelephonyRnsEndpoint.executeCommands_moves hprim commands self
  | executeSignallingBatch commands =>
    exact TelephonyRnsEndpoint.executeSignallingBatch_moves hprim commands self
  | announce entropy => exact TelephonyRnsEndpoint.announce_moves hprim entropy self
  | requestPathToIdentity identityHash =>
    exact TelephonyRnsEndpoint.trySendTransport_moves hprim _ self
  | deregisterDestination => exact TelephonyRnsEndpoint.trySendTransport_moves hprim _ self
  | deregisterLinkDestination linkId =>
    exact TelephonyRnsEndpoint.trySendTransport_moves hprim _ self
  | queueFrames linkId frames =>
    exact TelephonyRnsEndpoint.queueFrames_moves hprim linkId frames self
  | queueRawFrames audio linkId bitDepth frames =>
    exact TelephonyRnsEndpoint.queueRawFrames_moves hprim audio linkId bitDepth frames self
  | beginOutgoingLink core remoteIdentity remotePublicKey profile hops entropy =>
    exact TelephonyRnsEndpoint.beginOutgoingLink_moves hprim self core remoteIdentity
      remotePublicKey profile hops entropy

end Lxst.Telephony
