import RsLxst.Embedded.Wire
import RsLxst.Lib.Writer

/-!
# The embedded packet encoder

`encode` of `lxst-embedded/src/wire.rs` and its `Writer`. A method of `Writer` is a state
transformer over the writer; it has no value where an index or a slice would leave the output.
`encode` has no value where a method has none.
-/

set_option autoImplicit false

namespace Lxst.Embedded.Wire

open Writing (each)

/-- `uint_bytes` -/
def uintBytes (value : UInt32) : Nat :=
  if value ≤ 127 then 1
  else if value ≤ 255 then 2
  else if value ≤ 65535 then 3
  else 5

/-! ## The writer -/

structure Writer where
  output : List UInt8
  offset : Nat
  inBounds : offset ≤ output.length

abbrev Write := Writing.W Writer

namespace Writer

def byte (value : UInt8) : Write Unit := fun self =>
  if h : self.offset < self.output.length then
    some ((), {
      output := self.output.set self.offset value
      offset := self.offset + 1
      inBounds := by rw [List.length_set]; exact h })
  else none

def bytes (bytes : List UInt8) : Write Unit := fun self =>
  if h : self.offset + bytes.length ≤ self.output.length then
    some ((), {
      output := self.output.take self.offset ++ bytes ++
        self.output.drop (self.offset + bytes.length)
      offset := self.offset + bytes.length
      inBounds := by simp only [List.length_append, List.length_take, List.length_drop]; omega })
  else none

/-- `u16::to_be_bytes` -/
def beBytes16 (value : UInt16) : List UInt8 := [(value >>> 8).toUInt8, value.toUInt8]

/-- `u32::to_be_bytes` -/
def beBytes32 (value : UInt32) : List UInt8 :=
  [(value >>> 24).toUInt8, (value >>> 16).toUInt8, (value >>> 8).toUInt8, value.toUInt8]

def uint (value : UInt32) : Write Unit :=
  if value ≤ 127 then byte value.toUInt8
  else if value ≤ 255 then do
    byte 0xcc
    byte value.toUInt8
  else if value ≤ 65535 then do
    byte 0xcd
    bytes (beBytes16 value.toUInt16)
  else do
    byte 0xce
    bytes (beBytes32 value)

end Writer

/-! ## Sizes -/

/-- The sum of `uint_bytes` over the signals. -/
def signalsSize : List Signal → Nat
  | [] => 0
  | signal :: signals => uintBytes signal.wireValue + signalsSize signals

/-- The frames' part of the size, after `size` bytes. -/
def framesSize : List Frame → (size : Nat) → Except Error Nat
  | [], size => .ok size
  | frame :: frames, size =>
    if !frame.codec.isTransmittable then .error (.nonTransmittableCodec frame.codec)
    else if frame.payload.length ≥ MAX_FRAME_BYTES then .error .limit
    else
      let length := frame.payload.length + 1
      framesSize frames (size + (length + if length ≤ 255 then 2 else 3))

/-- The size that `encode` computes before it writes. -/
def packetSize (signals : List Signal) (frames : List Frame) : Except Error Nat :=
  let size := 1
  let size :=
    if signals.isEmpty then size
    else size + (2 + signalsSize signals)
  if frames.isEmpty then .ok size
  else framesSize frames (size + (1 + if frames.length > 1 then 1 else 0))

/-! ## Encoding -/

/-- The header of a binary of `length` bytes. -/
def writeBinaryHeader (length : Nat) : Write Unit :=
  if length ≤ 255 then do
    Writer.byte 0xc4
    Writer.byte (UInt8.ofNat length)
  else do
    Writer.byte 0xc5
    Writer.bytes (Writer.beBytes16 (UInt16.ofNat length))

def writeFrame (frame : Frame) : Write Unit := do
  writeBinaryHeader (frame.payload.length + 1)
  Writer.byte frame.codec.wireId
  Writer.bytes frame.payload

def writeSignals (signals : List Signal) : Write Unit :=
  if !signals.isEmpty then do
    Writer.byte 0
    Writer.byte (0x90 ||| UInt8.ofNat signals.length)
    each (fun signal => Writer.uint signal.wireValue) signals
  else pure ()

def writeFrames (frames : List Frame) : Write Unit :=
  if !frames.isEmpty then do
    Writer.byte 1
    (if frames.length > 1 then Writer.byte (0x90 ||| UInt8.ofNat frames.length) else pure ())
    each writeFrame frames
  else pure ()

def writePacket (signals : List Signal) (frames : List Frame) : Write Unit := do
  Writer.byte (0x80 ||| ((if signals.isEmpty then 0 else 1) + if frames.isEmpty then 0 else 1))
  writeSignals signals
  writeFrames frames

/-- The result, and the output after it. -/
def encode (signals : List Signal) (frames : List Frame) (output : List UInt8) :
    Option (Except Error Nat × List UInt8) :=
  if signals.length > MAX_SIGNALS ∨ frames.length > MAX_FRAMES then some (.error .limit, output)
  else
    match packetSize signals frames with
    | .error error => some (.error error, output)
    | .ok size =>
      if size > MAX_PACKET_BYTES then some (.error .limit, output)
      else if output.length < size then some (.error .outputCapacity, output)
      else do
        let ((), writer) ← writePacket signals frames
          { output, offset := 0, inBounds := Nat.zero_le _ }
        some (.ok size, writer.output)

end Lxst.Embedded.Wire
