import RsLxst.Lib.Channel
import RsLxst.Telephony.Proof.Isolation
import RsLxst.Telephony.Rns

/-!
# Two runtime cores and the bytes between them

Two hosts with one link between them: each runs its `TelephonyRuntimeCore`, sends the packets of
its commands for the link (`signalling_packets_from_commands`, encoded) and takes the payloads that
arrive as `linkPacket` events. The channels may lose, duplicate and reorder payloads, and on either
core any operation may come that does not concern the link.
-/

set_option autoImplicit false

namespace Lxst.Telephony

open MsgPack (Value)

def TelephonyCommand.signal : TelephonyCommand → Option Signal
  | .sendSignal _ signal => some signal
  | _ => none

def TelephonyCommand.toLxstPacket (self : TelephonyCommand) : Option LxstPacket :=
  self.signal.map signallingPacket

def signallingPacketsFromCommands (commands : List TelephonyCommand) :
    List (LinkId × LxstPacket) :=
  commands.filterMap fun command => command.toLxstPacket.map fun packet => (command.linkId, packet)

structure TwoCores where
  caller : TelephonyRuntimeCore
  callee : TelephonyRuntimeCore
  toCaller : List (List UInt8)
  toCallee : List (List UInt8)

namespace TwoCores

open TelephonyRuntimeCore

variable (readValue : List UInt8 → Except String Value)
  (writeValue : Value → Except String (List UInt8)) (link : LinkId)

/-- The payloads that the commands put on the link. -/
def payloads (commands : List TelephonyCommand) : List (List UInt8) :=
  (signallingPacketsFromCommands commands).filterMap fun (linkId, packet) =>
    if linkId = link then (packet.encode writeValue).toOption else none

/-- An operation on the caller's core. -/
def onCaller (s : TwoCores) (op : Op) : TwoCores :=
  { s with
    caller := (s.caller.step readValue op).1
    toCallee := s.toCallee ++ payloads writeValue link (s.caller.step readValue op).2 }

/-- An operation on the callee's core. -/
def onCallee (s : TwoCores) (op : Op) : TwoCores :=
  { s with
    callee := (s.callee.step readValue op).1
    toCaller := s.toCaller ++ payloads writeValue link (s.callee.step readValue op).2 }

def retryAnswer (s : TwoCores) : TwoCores :=
  { s with
    toCaller := s.toCaller ++
      payloads writeValue link (returned (s.callee.retryAnswerActive link)) }

/-- The caller dials, the link is established on both sides and the caller identified. -/
def start (caller callee : TelephonyRuntimeCore) (callerIdentity calleeIdentity : IdentityHash)
    (profile : Option Profile) : TwoCores :=
  let s : TwoCores := { caller, callee, toCaller := [], toCallee := [] }
  let s := onCaller readValue writeValue link s (.startOutgoingCall link calleeIdentity profile)
  let s := onCaller readValue writeValue link s (.acceptLinkEvent (.linkEstablished link))
  let s := onCallee readValue writeValue link s (.acceptLinkEvent (.linkEstablished link))
  onCallee readValue writeValue link s (.acceptLinkEvent (.remoteIdentified link callerIdentity))

inductive Step : TwoCores → TwoCores → Prop
  | answer (s : TwoCores) : Step s (onCallee readValue writeValue link s (.answerActive link))
  | retryAnswer (s : TwoCores) : Step s (retryAnswer writeValue link s)
  | callerElsewhere (s : TwoCores) {op : Op} :
      concerns link op = false → Step s (onCaller readValue writeValue link s op)
  | calleeElsewhere (s : TwoCores) {op : Op} :
      concerns link op = false → Step s (onCallee readValue writeValue link s op)
  | deliverToCaller {s : TwoCores} {payload : List UInt8} {rest : List (List UInt8)} :
      s.toCaller = payload :: rest →
        Step s (onCaller readValue writeValue link { s with toCaller := rest }
          (.acceptLinkEvent (.linkPacket link payload)))
  | deliverToCallee {s : TwoCores} {payload : List UInt8} {rest : List (List UInt8)} :
      s.toCallee = payload :: rest →
        Step s (onCallee readValue writeValue link { s with toCallee := rest }
          (.acceptLinkEvent (.linkPacket link payload)))
  | faultToCaller {s : TwoCores} {c : List (List UInt8)} :
      Channel.Fault s.toCaller c → Step s { s with toCaller := c }
  | faultToCallee {s : TwoCores} {c : List (List UInt8)} :
      Channel.Fault s.toCallee c → Step s { s with toCallee := c }

end TwoCores

end Lxst.Telephony
