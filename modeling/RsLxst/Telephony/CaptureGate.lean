/-!
# The push-to-talk gate

`lxst-telephony/src/capture_gate.rs`. Instants are nanoseconds. The mutex is not contended: an
operation takes effect at once.
-/

set_option autoImplicit false

namespace Lxst.Telephony

abbrev Instant := Nat
abbrev Duration := Nat

def fromSecs (secs : Nat) : Duration := secs * 1000000000
def fromMillis (millis : Nat) : Duration := millis * 1000000

structure AudioTransmitGate where
  serial : UInt64
  began : Option Instant
  until_ : Option Instant
  blocked : Bool
  deriving DecidableEq, Repr

namespace AudioTransmitGate

def new : AudioTransmitGate := { serial := 0, began := none, until_ := none, blocked := false }

/-- The end of `update_at` for a press: the burst goes on, or its expiry is observed. -/
def renew (self : AudioTransmitGate) (now : Instant) : Bool × AudioTransmitGate :=
  if self.blocked || self.began.isNone then (false, self)
  else if self.began.any (now - · ≥ fromSecs 10) || self.until_.any (now ≥ ·) then
    (false, { self with blocked := true, until_ := none })
  else (true, { self with until_ := some (now + fromMillis 750) })

/-- `update_at` -/
def update (self : AudioTransmitGate) (serial : UInt64) (pressed : Bool) (now : Instant) :
    Bool × AudioTransmitGate :=
  if serial = 0 ∨ serial < self.serial then (false, self)
  else if serial > self.serial then
    let self := { self with serial, began := none, until_ := none }
    if !pressed then (true, { self with blocked := false })
    else if self.blocked then (false, self)
    else { self with began := some now }.renew now
  else if !pressed then (true, { self with began := none, until_ := none, blocked := false })
  else self.renew now

def close (self : AudioTransmitGate) : AudioTransmitGate :=
  { self with
    serial := UInt64.ofNat (UInt64.size - 1)
    until_ := none
    began := none
    blocked := true }

/-- `allows_at` -/
def allows (self : AudioTransmitGate) (now : Instant) : Bool × AudioTransmitGate :=
  let allowed := !self.blocked && self.until_.any (now < ·) &&
    self.began.any (now - · < fromSecs 10)
  (allowed,
    if !allowed ∧ self.began.isSome then { self with blocked := true, until_ := none } else self)

end AudioTransmitGate

/-- The calls of a gate's owner and of the service. -/
inductive GateCall
  | update (serial : UInt64) (pressed : Bool) (now : Instant)
  | allows (now : Instant)
  | close
  deriving DecidableEq, Repr

namespace AudioTransmitGate

/-- A call and what it returns. -/
def step (self : AudioTransmitGate) : GateCall → AudioTransmitGate × List Bool
  | .update serial pressed now =>
    let (accepted, self) := self.update serial pressed now
    (self, [accepted])
  | .allows now =>
    let (allowed, self) := self.allows now
    (self, [allowed])
  | .close => (self.close, [])

end AudioTransmitGate

end Lxst.Telephony
