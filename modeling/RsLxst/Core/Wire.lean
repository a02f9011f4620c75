import RsLxst.Core.WireTypes
import RsLxst.Lib.MsgPackWriter

/-!
# The host's packet codec

`lxst-core/src/wire.rs`: frames, `LxstPacket::decode` over the value that the MessagePack library
reads and `LxstPacket::encode` with the value it writes. That library is outside the repository:
`readValue` stands for `rmpv::decode::read_value` on a byte slice, `writeValue` for
`rmpv::encode::write_value`. `ReadsMsgPack` is what is assumed of the reader (values of at most
`READ_DEPTH` nested levels, below its own limit of 1024), `WritesShortest` of the writer.
-/

set_option autoImplicit false

namespace Lxst

open MsgPack (Value)

def FIELD_SIGNALLING : Nat := 0x00
def FIELD_FRAMES : Nat := 0x01

namespace Wire

/-- The errors of the packet codec. -/
inductive Error
  | decode (message : String)
  | encode (message : String)
  | rootNotMap
  | invalidFieldKey
  | invalidFieldType (field : Nat)
  | invalidSignal
  | emptyFrame
  | unknownCodec (id : UInt8)
  | nonTransmittableCodec (codec : CodecKind)
  deriving DecidableEq, Repr

/-- `{:#04x}` of a byte. -/
def hexByte (n : Nat) : String :=
  "0x" ++ String.ofList [Nat.digitChar (n / 16 % 16), Nat.digitChar (n % 16)]

def codecName : CodecKind → String
  | .raw => "Raw"
  | .opus => "Opus"
  | .codec2 => "Codec2"
  | .null => "Null"

def Error.toText : Error → String
  | .decode message => "msgpack decode error: " ++ message
  | .encode message => "msgpack encode error: " ++ message
  | .rootNotMap => "LXST packet root must be a msgpack map"
  | .invalidFieldKey => "LXST field key must be a non-negative integer"
  | .invalidFieldType field => "LXST field " ++ hexByte field ++ " has invalid value type"
  | .invalidSignal => "LXST signal value must be a non-negative integer"
  | .emptyFrame => "LXST frame must contain a codec header byte"
  | .unknownCodec id => "unknown LXST codec id " ++ hexByte id.toNat
  | .nonTransmittableCodec codec =>
    "LXST codec " ++ codecName codec ++ " is not transmittable as a media frame"

end Wire

structure Frame where
  codec : CodecKind
  payload : List UInt8
  deriving DecidableEq, Repr

namespace Frame

def fromWireBytes : List UInt8 → Except Wire.Error Frame
  | [] => .error .emptyFrame
  | codecId :: payload => do
    let codec ← CodecKind.fromWire .unknownCodec codecId
    if !codec.isTransmittable then .error (.nonTransmittableCodec codec)
    else .ok { codec, payload }

def toWireBytes (self : Frame) : Except Wire.Error (List UInt8) :=
  if !self.codec.isTransmittable then .error (.nonTransmittableCodec self.codec)
  else .ok (self.codec.wireId :: self.payload)

end Frame

/-- `rmpv::Value::as_u64` -/
def asU64 : Value → Option Nat
  | .integer n => if 0 ≤ n then some n.toNat else none
  | _ => none

/-- `rmpv::Value::as_i64` -/
def asI64 : Value → Option Int
  | .integer n => if n < 0x8000000000000000 then some n else none
  | _ => none

def integerValue (value : Value) : Option Nat :=
  (asU64 value).or ((asI64 value).bind fun v => if 0 ≤ v then some v.toNat else none)

def parseSignal (value : Value) : Except Wire.Error Signal :=
  match (integerValue value).filter (· < 0x100000000) with
  | some raw => .ok (Signal.fromWire (UInt32.ofNat raw))
  | none => .error .invalidSignal

def parseSignals : Value → Except Wire.Error (List Signal)
  | .array values => values.mapM parseSignal
  | other => do
    let signal ← parseSignal other
    .ok [signal]

/-- An element of a frame array. -/
def parseFrame : Value → Except Wire.Error Frame
  | .binary bytes => Frame.fromWireBytes bytes
  | _ => .error (.invalidFieldType FIELD_FRAMES)

def parseFrames : Value → Except Wire.Error (List Frame)
  | .binary bytes => do
    let frame ← Frame.fromWireBytes bytes
    .ok [frame]
  | .array values => values.mapM parseFrame
  | _ => .error (.invalidFieldType FIELD_FRAMES)

structure LxstPacket where
  signals : List Signal
  frames : List Frame
  deriving DecidableEq, Repr

namespace LxstPacket

def new : LxstPacket := { signals := [], frames := [] }

/-- A field key: an integer that fits a byte. -/
def fieldKey (key : Value) : Option Nat := (integerValue key).filter (· ≤ 255)

/-- One entry of the root map. -/
def addField (packet : LxstPacket) (entry : Value × Value) : Except Wire.Error LxstPacket :=
  match fieldKey entry.1 with
  | none => .error .invalidFieldKey
  | some field =>
    if field = FIELD_SIGNALLING then do
      let signals ← parseSignals entry.2
      .ok { packet with signals := packet.signals ++ signals }
    else if field = FIELD_FRAMES then do
      let frames ← parseFrames entry.2
      .ok { packet with frames := packet.frames ++ frames }
    else .ok packet

def fromValue : Value → Except Wire.Error LxstPacket
  | .map entries => entries.foldlM addField new
  | _ => .error .rootNotMap

def signalling (signals : List Signal) : LxstPacket := { signals, frames := [] }

/-- The root map of a packet. -/
def toValue (self : LxstPacket) : Except Wire.Error Value := do
  let signals : List (Value × Value) :=
    if self.signals.isEmpty then []
    else
      [(.integer FIELD_SIGNALLING,
        .array (self.signals.map fun signal => .integer signal.wireValue.toNat))]
  let frames ← match self.frames with
    | [] => pure []
    | [frame] => do
      let bytes ← frame.toWireBytes
      pure [(.integer FIELD_FRAMES, .binary bytes)]
    | frames => do
      let values ← frames.mapM fun frame => Value.binary <$> frame.toWireBytes
      pure [(.integer FIELD_FRAMES, .array values)]
  pure (.map (signals ++ frames))

def encode (writeValue : Value → Except String (List UInt8)) (self : LxstPacket) :
    Except Wire.Error (List UInt8) := do
  let value ← self.toValue
  match writeValue value with
  | .ok bytes => .ok bytes
  | .error message => .error (.encode message)

def decode (readValue : List UInt8 → Except String Value) (bytes : List UInt8) :
    Except Wire.Error LxstPacket :=
  match readValue bytes with
  | .ok value => fromValue value
  | .error message => .error (.decode message)

end LxstPacket

def READ_DEPTH : Nat := 512

/-- `readValue` reads MessagePack: the first value, whatever follows it. -/
def ReadsMsgPack (readValue : List UInt8 → Except String Value) : Prop :=
  ∀ v bs rest, MsgPack.Encodes [v] bs → MsgPack.Within READ_DEPTH v →
    readValue (bs ++ rest) = .ok v

/-- The first value of a byte string, of at most `READ_DEPTH` levels. -/
def firstValue (bytes : List UInt8) : Except String Value :=
  match MsgPack.read (READ_DEPTH + 1) bytes with
  | some (value, _) => .ok value
  | none => .error "no value"

/-- `writeValue` writes MessagePack in the shortest forms. -/
def WritesShortest (writeValue : Value → Except String (List UInt8)) : Prop :=
  ∀ v, MsgPack.Fits v → writeValue v = .ok (MsgPack.write v)

theorem readsMsgPack_firstValue : ReadsMsgPack firstValue := fun v bs rest h hw => by
  rw [firstValue, MsgPack.read_of_encodes h hw]

end Lxst
