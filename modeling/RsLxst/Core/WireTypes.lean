import RsLxst.Core.Profile

/-!
# Codec kinds and signals

`shared/wire_types.rs`, included by the host and the embedded wire modules. The enclosing module
supplies the error type, so `CodecKind.fromWire` takes that module's `UnknownCodec`.
-/

set_option autoImplicit false

namespace Lxst

def PREFERRED_PROFILE_BASE : UInt32 := 0xFF

/-- `CodecKind`, `repr(u8)`. -/
inductive CodecKind
  | raw
  | opus
  | codec2
  | null
  deriving DecidableEq, Repr

namespace CodecKind

def wireId : CodecKind → UInt8
  | .raw => 0x00
  | .opus => 0x01
  | .codec2 => 0x02
  | .null => 0xFF

def fromWire {ε : Type} (unknownCodec : UInt8 → ε) (id : UInt8) : Except ε CodecKind :=
  match id with
  | 0x00 => .ok .raw
  | 0x01 => .ok .opus
  | 0x02 => .ok .codec2
  | 0xFF => .ok .null
  | other => .error (unknownCodec other)

def isTransmittable : CodecKind → Bool
  | .null => false
  | _ => true

end CodecKind

/-- `Codec2Mode`, `repr(u8)`. -/
inductive Codec2Mode
  | mode700C
  | mode1200
  | mode1300
  | mode1400
  | mode1600
  | mode2400
  | mode3200
  deriving DecidableEq, Repr

inductive Signal
  | status (status : SignallingStatus)
  | preferredProfile (profile : Profile)
  | raw (value : UInt32)
  deriving DecidableEq, Repr

namespace Signal

def wireValue : Signal → UInt32
  | .status s => s.wireValue
  | .preferredProfile p => PREFERRED_PROFILE_BASE + p.wireValue
  | .raw v => v

def fromWire (value : UInt32) : Signal :=
  match SignallingStatus.fromWire value with
  | some s => .status s
  | none =>
    if value ≥ PREFERRED_PROFILE_BASE then
      match Profile.fromWire (value - PREFERRED_PROFILE_BASE) with
      | some p => .preferredProfile p
      | none => .raw value
    else .raw value

/-- `matches!(signal, Signal::Status(_))`. -/
def isStatus : Signal → Bool
  | .status _ => true
  | _ => false

end Signal

end Lxst
