import RsLxst.Telephony.Service

/-!
# The pump, step by step

`pump_opus_stream` of a gated stream shares the gate with the application and the channel with the
source, and reads the gate several times. Here it is taken apart at these reads: each `service`
action is one step of it, and between two of them the application and the source may do anything.
`drainFrames` and `gateAllows` are what its steps come to when nothing is between them.

Actions are counted, and a frame carries the time at which the source enqueued it. What the steps
read of the core, the encoder and the endpoint decides only whether the send fails; it is an
argument (`fails`), as is the contention of the gate's mutex.
-/

set_option autoImplicit false

namespace Lxst.Telephony

/-- A frame, and when the source enqueued it. -/
structure StampedFrame (audio : Audio) where
  frame : audio.Pcm
  enqueuedAt : Nat

/-- Where `pump_opus_stream` stands, with its locals. -/
inductive PumpPhase (audio : Audio)
  | idle
  /-- `drain_opus_stream_frames` has read the serial. -/
  | serialRead (serial : UInt64)
  | flushing (serial : UInt64)
  | draining (left : Nat) (frames : List (StampedFrame audio))
  /-- A frame has been received, the gate not yet asked. -/
  | received (left : Nat) (frames : List (StampedFrame audio)) (frame : StampedFrame audio)
  | drained (frames : List (StampedFrame audio)) (sourceClosed : Bool)
  /-- `send_opus_frames` has read the serial. -/
  | serialCaptured (serial : UInt64) (frames : List (StampedFrame audio)) (sourceClosed : Bool)
  | encoded (serial : UInt64) (frames : List (StampedFrame audio)) (sourceClosed : Bool)
  | allowed (serial : UInt64) (frames : List (StampedFrame audio)) (sourceClosed : Bool)
  | queueing (frames : List (StampedFrame audio)) (sourceClosed : Bool)
  /-- The stream is no longer installed. -/
  | removed

structure Pump (audio : Audio) where
  /-- The number of actions so far. -/
  time : Nat
  gate : AudioTransmitGate
  /-- When the gate's serial was set. -/
  serialSetAt : Nat
  framesRx : Mailbox (StampedFrame audio)
  gateSerial : UInt64
  mediaFramesPerTick : Nat
  phase : PumpPhase audio
  /-- The frames queued to the endpoint, each with when the serial current then was set. -/
  queued : List (StampedFrame audio × Nat)

inductive PumpAction (audio : Audio)
  | update (serial : UInt64) (pressed : Bool) (now : Instant)
  | close
  | enqueue (frame : audio.Pcm)
  | disconnect
  | service (now : Instant) (contended fails : Bool)

namespace Pump

variable {audio : Audio}

/-- The gate after a call of the application. -/
def setGate (self : Pump audio) (gate : AudioTransmitGate) : Pump audio :=
  { self with
    gate, serialSetAt := if gate.serial = self.gate.serial then self.serialSetAt else self.time }

/-- `allows`, which refuses when the mutex is contended. -/
def allows (self : Pump audio) (now : Instant) (contended : Bool) : Bool × AudioTransmitGate :=
  if contended then (false, self.gate) else self.gate.allows now

/-- The end of `pump_opus_stream`: the stream goes if the source has closed. -/
def finish (self : Pump audio) (sourceClosed : Bool) : Pump audio :=
  { self with phase := if sourceClosed then .removed else .idle }

/-- The next step of `pump_opus_stream`. -/
def service (self : Pump audio) (now : Instant) (contended fails : Bool) : Pump audio :=
  match self.phase with
  | .idle => { self with phase := .serialRead self.gate.serial }
  | .serialRead serial =>
    if serial ≠ self.gateSerial then { self with phase := .flushing serial }
    else { self with phase := .draining (max self.mediaFramesPerTick 1) [] }
  | .flushing serial =>
    match self.framesRx.queue with
    | _ :: queue => { self with framesRx.queue := queue }
    | [] =>
      { self with gateSerial := serial, phase := .draining (max self.mediaFramesPerTick 1) [] }
  | .draining 0 frames => { self with phase := .drained frames false }
  | .draining (left + 1) frames =>
    match self.framesRx.queue with
    | [] => { self with phase := .drained frames !self.framesRx.connected }
    | frame :: queue =>
      { self with framesRx.queue := queue, phase := .received left frames frame }
  | .received left frames frame =>
    let (allowed, gate) := self.allows now contended
    { self with gate, phase := .draining left (if allowed then frames ++ [frame] else frames) }
  | .drained frames sourceClosed =>
    if frames.isEmpty then self.finish sourceClosed
    else if fails then { self with phase := .removed }
    else { self with phase := .serialCaptured self.gate.serial frames sourceClosed }
  | .serialCaptured serial frames sourceClosed =>
    { self with phase := if fails then .removed else .encoded serial frames sourceClosed }
  | .encoded serial frames sourceClosed =>
    let (allowed, gate) := self.allows now contended
    let self := { self with gate }
    if allowed then { self with phase := .allowed serial frames sourceClosed }
    else self.finish sourceClosed
  | .allowed serial frames sourceClosed =>
    if self.gate.serial ≠ serial then self.finish sourceClosed
    else { self with phase := .queueing frames sourceClosed }
  | .queueing [] sourceClosed =>
    if fails then { self with phase := .removed } else self.finish sourceClosed
  | .queueing (frame :: frames) sourceClosed =>
    if fails then { self with phase := .removed }
    else { self with
      queued := self.queued ++ [(frame, self.serialSetAt)]
      phase := .queueing frames sourceClosed }
  | .removed => self

def act (self : Pump audio) : PumpAction audio → Pump audio
  | .update serial pressed now => self.setGate (self.gate.update serial pressed now).2
  | .close => self.setGate self.gate.close
  | .enqueue frame =>
    if self.framesRx.connected then
      { self with
        framesRx.queue := self.framesRx.queue ++ [{ frame, enqueuedAt := self.time }] }
    else self
  | .disconnect => { self with framesRx.connected := false }
  | .service now contended fails => self.service now contended fails

def step (self : Pump audio) (action : PumpAction audio) : Pump audio :=
  { self.act action with time := self.time + 1 }

end Pump

end Lxst.Telephony
