import RsLxst.Lib.Machine
import RsLxst.Telephony.Service

/-!
# Runs of the telephony service

The loop of `TelephonyService::run` selects between the handlers. Here the handlers run in any
order and number, which includes the loop's own orders. Between them everything outside the
service moves: the transport drains its queue, the link manager and the other tasks report, and
the other ends of the streams read, write and close.
-/

set_option autoImplicit false

namespace Lxst.Telephony

inductive Activity (rns : Rns) (audio : Audio)
  | control (control : TelephonyControl audio) (now : Instant) (entropy : Nat)
  | internal (event : TelephonyInternalEvent) (now : Instant) (entropy : Nat)
  | tickReticulum
  | dueAnnounce (now : Instant) (entropy : Nat)
  | driveReady (fuel : Nat) (now : Instant)
  | dueAnswerRetry (now : Instant)
  | dueTimeout (now : Instant)
  | pumpOpusStream (now : Instant)
  | outside (endpoint : TelephonyRnsEndpoint rns) (media : TelephonyServiceMedia audio)
  /-- The end of the loop. -/
  | stop (now : Instant)

namespace TelephonyService

variable {rns : Rns} {audio : Audio}

/-- Whether the loop goes on after the activity, and the service then; no value if the activity
has not finished. -/
def perform (self : TelephonyService rns audio) :
    Activity rns audio → Option (Bool × TelephonyService rns audio)
  | .control control now entropy => some (handleControl control now entropy self)
  | .internal event now entropy => some (handleInternal event now entropy self)
  | .tickReticulum =>
    some (true, { self with endpoint := (TelephonyRnsEndpoint.tickReticulum self.endpoint).2 })
  | .dueAnnounce now entropy => some (handleDueAnnounce now entropy self)
  | .driveReady fuel now => driveReady fuel now self
  | .dueAnswerRetry now => some (handleDueAnswerRetry now self)
  | .dueTimeout now => some (handleDueTimeout now self)
  | .pumpOpusStream now => some (pumpOpusStream now self)
  | .outside endpoint media => some (true, { self with endpoint, media })
  | .stop now => some (false, (stop now self).2)

/-- The activity finishes with this state. -/
def Performs (s : TelephonyService rns audio) (activity : Activity rns audio)
    (s' : TelephonyService rns audio) : Prop :=
  ∃ continues, s.perform activity = some (continues, s')

/-- The activity finishes with this state, and the loop goes on. -/
def Continues (s : TelephonyService rns audio) (activity : Activity rns audio)
    (s' : TelephonyService rns audio) : Prop := s.perform activity = some (true, s')

/-- The endpoint and the core, as link events find them. -/
def line (self : TelephonyService rns audio) : TelephonyRnsEndpoint.Line rns :=
  { endpoint := self.endpoint, core := self.core }

/-- A new service with a caller on a link, a transport queue of this capacity and more packets, for
runs on fixed inputs. -/
def calledBy (capacity : Nat) (packets : List (List UInt8 × LinkId)) :
    TelephonyService Rns.plain Audio.plain :=
  .withConfig
    (.new (.replicate 16 0) [.replicate 16 1]
      { established := [.replicate 16 1]
        identified := [(.replicate 16 1, .replicate 16 7)]
        packets
        closed := [] }
      { queue := [], capacity, closed := false })
    .new .default none 0

end TelephonyService

end Lxst.Telephony
