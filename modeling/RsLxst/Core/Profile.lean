/-!
# Signalling status and profile identifiers

`shared/profile.rs`, shared by the host and the embedded crate: the `repr(u32)` enumerations and
their conversions to and from wire values. A `u32` is a `UInt32`.
-/

set_option autoImplicit false

namespace Lxst

inductive SignallingStatus
  | busy
  | rejected
  | calling
  | available
  | ringing
  | connecting
  | established
  deriving DecidableEq, Repr

namespace SignallingStatus

def AUTO_STATUS_CODES : List SignallingStatus :=
  [.calling, .available, .ringing, .connecting, .established]

def wireValue : SignallingStatus → UInt32
  | .busy => 0x00
  | .rejected => 0x01
  | .calling => 0x02
  | .available => 0x03
  | .ringing => 0x04
  | .connecting => 0x05
  | .established => 0x06

def fromWire (value : UInt32) : Option SignallingStatus :=
  match value with
  | 0x00 => some .busy
  | 0x01 => some .rejected
  | 0x02 => some .calling
  | 0x03 => some .available
  | 0x04 => some .ringing
  | 0x05 => some .connecting
  | 0x06 => some .established
  | _ => none

def isAutoStatus (self : SignallingStatus) : Bool := AUTO_STATUS_CODES.contains self

end SignallingStatus

inductive Profile
  | bandwidthUltraLow
  | bandwidthVeryLow
  | bandwidthLow
  | qualityMedium
  | qualityHigh
  | qualityMax
  | latencyUltraLow
  | latencyLow
  deriving DecidableEq, Repr

namespace Profile

def DEFAULT : Profile := .qualityMedium

def wireValue : Profile → UInt32
  | .bandwidthUltraLow => 0x10
  | .bandwidthVeryLow => 0x20
  | .bandwidthLow => 0x30
  | .qualityMedium => 0x40
  | .qualityHigh => 0x50
  | .qualityMax => 0x60
  | .latencyUltraLow => 0x70
  | .latencyLow => 0x80

def fromWire (value : UInt32) : Option Profile :=
  match value with
  | 0x10 => some .bandwidthUltraLow
  | 0x20 => some .bandwidthVeryLow
  | 0x30 => some .bandwidthLow
  | 0x40 => some .qualityMedium
  | 0x50 => some .qualityHigh
  | 0x60 => some .qualityMax
  | 0x70 => some .latencyUltraLow
  | 0x80 => some .latencyLow
  | _ => none

end Profile

end Lxst
