import RsLxst.Core.Proof.CallState
import RsLxst.Lib.Channel
import RsLxst.Lib.Machine

/-!
# Two calls and the channels between them

A caller's and a callee's `CallState`, each sending the signals of its actions
(`signalsOf`) to the other. `Handshake.Step` is one step over channels that may lose, duplicate
and reorder; `Handshake.start` is the callee's link established and the caller identified, with
the signals of both transitions in flight.
-/

set_option autoImplicit false

namespace Lxst

structure Handshake where
  caller : CallState
  callee : CallState
  toCaller : List Signal
  toCallee : List Signal

namespace Handshake

def start (p : Option Profile) : Handshake :=
  { caller := .outgoing p
    callee := (CallState.incoming.callerIdentified false true).1
    toCaller := signalsOf (CallState.incomingLinkEstablished false) ++
      signalsOf (CallState.incoming.callerIdentified false true).2
    toCallee := [] }

/-- The caller takes the signal `m`, with `rest` left in flight to it. -/
def callerReceives (h : Handshake) (m : Signal) (rest : List Signal) : Handshake :=
  { h with
    caller := (h.caller.receiveSignal m).1
    toCaller := rest
    toCallee := h.toCallee ++ signalsOf (h.caller.receiveSignal m).2 }

/-- The callee takes the signal `m`, with `rest` left in flight to it. -/
def calleeReceives (h : Handshake) (m : Signal) (rest : List Signal) : Handshake :=
  { h with
    callee := (h.callee.receiveSignal m).1
    toCallee := rest
    toCaller := h.toCaller ++ signalsOf (h.callee.receiveSignal m).2 }

def answer (h : Handshake) : Handshake :=
  { h with
    callee := h.callee.answer.1
    toCaller := h.toCaller ++ signalsOf h.callee.answer.2 }

def retryAnswer (h : Handshake) : Handshake :=
  { h with toCaller := h.toCaller ++ signalsOf h.callee.retryAnswer }

inductive Step : Handshake → Handshake → Prop
  | answer (h : Handshake) : Step h h.answer
  | retryAnswer (h : Handshake) : Step h h.retryAnswer
  | deliverToCaller {h : Handshake} {m : Signal} {rest : List Signal} :
      h.toCaller = m :: rest → Step h (h.callerReceives m rest)
  | deliverToCallee {h : Handshake} {m : Signal} {rest : List Signal} :
      h.toCallee = m :: rest → Step h (h.calleeReceives m rest)
  | faultToCaller {h : Handshake} {c : List Signal} :
      Channel.Fault h.toCaller c → Step h { h with toCaller := c }
  | faultToCallee {h : Handshake} {c : List Signal} :
      Channel.Fault h.toCallee c → Step h { h with toCallee := c }

abbrev Reachable (p : Option Profile) : Handshake → Prop :=
  Machine.Reachable (fun h => h = start p) Step

end Handshake

/-- A call takes signals one after another; the signals it sends in return, in order. -/
def CallState.receiveAll (c : CallState) : List Signal → CallState × List Signal
  | [] => (c, [])
  | m :: ms =>
    let (c, actions) := c.receiveSignal m
    let (c, sent) := c.receiveAll ms
    (c, signalsOf actions ++ sent)

end Lxst
