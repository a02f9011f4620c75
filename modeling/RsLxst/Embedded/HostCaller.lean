import RsLxst.Core.Proof.CallState
import RsLxst.Embedded.Session

/-!
# An embedded callee and a host caller

An incoming `Session` and an outgoing `CallState` that exchange the signals of their events and
actions over reliable FIFO channels. The embedder may call any operation of the session at any
moment, signals reaching it from its channel only; the caller switches its profile at will once
it is established. `sessionSent` and `callerSent` are everything each side has put on the wire.
-/

set_option autoImplicit false

namespace Lxst.Embedded

/-- The signals among the events, in order: what goes on the wire. -/
def sentOf (es : Events) : List Signal :=
  es.filterMap fun
    | .transition (.sendSignal signal) => some signal
    | _ => none

structure Peers where
  session : Session
  caller : CallState
  toSession : List Signal
  toCaller : List Signal
  sessionSent : List Signal
  callerSent : List Signal

namespace Peers

open Session (Op)

inductive Act
  | session (op : Op)
  | deliverToSession (nowMs : UInt64)
  | deliverToCaller
  | callerSwitches (profile : Profile)
  deriving DecidableEq, Repr

/-- A session waiting for its link, and a caller that offers the profile `offer`. -/
def start (session : Session) (offer : Profile) : Peers :=
  { session
    caller := .outgoing (some offer)
    toSession := []
    toCaller := []
    sessionSent := []
    callerSent := [] }

/-- An operation of the session, which leaves `rest` in flight to it. -/
def sessionDoes (h : Peers) (op : Op) (rest : List Signal) : Peers :=
  { h with
    session := (h.session.step op).1
    toSession := rest
    toCaller := h.toCaller ++ sentOf (h.session.step op).2
    sessionSent := h.sessionSent ++ sentOf (h.session.step op).2 }

/-- A transition of the caller, which leaves `rest` in flight to it. -/
def callerDoes (h : Peers) (t : CallState × Actions) (rest : List Signal) : Peers :=
  { h with
    caller := t.1
    toCaller := rest
    toSession := h.toSession ++ signalsOf t.2
    callerSent := h.callerSent ++ signalsOf t.2 }

/-- One action; a delivery from an empty channel does nothing. -/
def act (h : Peers) : Act → Peers
  | .session op => h.sessionDoes op h.toSession
  | .deliverToSession nowMs =>
    match h.toSession with
    | [] => h
    | m :: rest => h.sessionDoes (.receiveSignal m nowMs) rest
  | .deliverToCaller =>
    match h.toCaller with
    | [] => h
    | m :: rest => h.callerDoes (h.caller.receiveSignal m) rest
  | .callerSwitches p => h.callerDoes (h.caller.switchProfile p) h.toCaller

def isReceiveSignal : Op → Bool
  | .receiveSignal _ _ => true
  | _ => false

/-- The session hears its channel only and never ends, and an established caller switches to
profiles the session allows. -/
def Enabled (h : Peers) : Act → Prop
  | .session op => isReceiveSignal op = false ∧ (h.act (.session op)).session.ended = none
  | .deliverToSession nowMs => (h.act (.deliverToSession nowMs)).session.ended = none
  | .deliverToCaller => True
  | .callerSwitches p =>
    h.caller.status = .established ∧ h.session.config.allowed.contains p = true

instance (h : Peers) : DecidablePred h.Enabled
  | .session _ => inferInstanceAs (Decidable (_ ∧ _))
  | .deliverToSession _ => inferInstanceAs (Decidable (_ = none))
  | .deliverToCaller => isTrue trivial
  | .callerSwitches _ => inferInstanceAs (Decidable (_ ∧ _))

end Peers

end Lxst.Embedded
