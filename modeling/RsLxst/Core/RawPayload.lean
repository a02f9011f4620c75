import RsLxst.Core.Raw
import RsLxst.Lib.Blocks
import RsLxst.Lib.LittleEndian

/-!
# The payload of a raw audio frame

`lxst-core/src/raw.rs` and the raw header of `wire.rs`. A payload keeps the bits of its samples,
and `Float32` has a single NaN, so here the samples of a frame are their bit patterns
(`RawAudioBits`). The conversions between float formats, some of them of the crate `half`, are a
parameter.
-/

set_option autoImplicit false

namespace Lxst

open LittleEndian

/-- The errors of the crate that a payload can meet. -/
inductive RawPayloadError
  | unknownRawBitDepth (bits : UInt8)
  | emptyRawPayload
  | invalidRawSampleBytes (bytesPerSample : Nat)
  | samples (error : RawError)
  deriving DecidableEq, Repr

def RawError.toText : RawError → String
  | .invalidRawChannels channels =>
    "invalid raw channel count " ++ toString channels ++ "; expected 1..=64"
  | .invalidRawSampleCount samples channels =>
    "raw sample count " ++ toString samples ++ " is not divisible by channel count " ++
      toString channels

def RawPayloadError.toText : RawPayloadError → String
  | .unknownRawBitDepth bits => "unknown raw bit-depth header " ++ toString bits
  | .emptyRawPayload => "raw payload is empty; expected one header byte plus sample data"
  | .invalidRawSampleBytes bytesPerSample =>
    "raw payload sample bytes are not aligned to " ++ toString bytesPerSample ++ "-byte samples"
  | .samples error => error.toText

/-! ## The header -/

/-- `RawBitDepth`, `repr(u8)`. -/
inductive RawBitDepth
  | float16
  | float32
  | float64
  | float128
  deriving DecidableEq, Repr

namespace RawBitDepth

def headerBits : RawBitDepth → UInt8
  | .float16 => 0x00
  | .float32 => 0x01
  | .float64 => 0x02
  | .float128 => 0x03

def fromHeaderBits (bits : UInt8) : Except RawPayloadError RawBitDepth :=
  match bits with
  | 0x00 => .ok .float16
  | 0x01 => .ok .float32
  | 0x02 => .ok .float64
  | 0x03 => .ok .float128
  | other => .error (.unknownRawBitDepth other)

def bits : RawBitDepth → Nat
  | .float16 => 16
  | .float32 => 32
  | .float64 => 64
  | .float128 => 128

def bytesPerSample (self : RawBitDepth) : Nat := self.bits / 8

end RawBitDepth

structure RawFrameHeader where
  channels : UInt8
  bitDepth : RawBitDepth
  deriving DecidableEq, Repr

namespace RawFrameHeader

def new (channels : UInt8) (bitDepth : RawBitDepth) : Except RawError RawFrameHeader :=
  if channels = 0 ∨ channels > 64 then .error (.invalidRawChannels channels)
  else .ok { channels, bitDepth }

def parse (byte : UInt8) : Except RawPayloadError RawFrameHeader := do
  let channels := (byte &&& 0x3F) + 1
  let bitDepth ← RawBitDepth.fromHeaderBits (byte >>> 6)
  (new channels bitDepth).mapError .samples

def encode (self : RawFrameHeader) : UInt8 :=
  (self.bitDepth.headerBits <<< 6) ||| (self.channels - 1)

end RawFrameHeader

/-! ## The samples -/

/-- The conversions between float formats, on bit patterns. -/
structure FloatFormats where
  f16ToF32 : UInt16 → UInt32
  f32ToF16 : UInt32 → UInt16
  f64ToF32 : UInt64 → UInt32
  f32ToF64 : UInt32 → UInt64

/-- The full chunks of `as_chunks`. -/
def asChunks (size : Nat) (bytes : List UInt8) : List (List UInt8) :=
  Blocks.equalBlocks size (bytes.length / size) bytes

section
variable (float : FloatFormats)

def decodeFloat128Lossy (bytes : List UInt8) : UInt32 :=
  if bytes.all (· == 0) then 0
  else float.f64ToF32 (UInt64.ofNat (leNat (bytes.take 8)))

/-- A chunk of the loops of `decode_samples`. -/
def decodeSample (bitDepth : RawBitDepth) (chunk : List UInt8) : UInt32 :=
  match bitDepth with
  | .float16 => float.f16ToF32 (UInt16.ofNat (leNat chunk))
  | .float32 => UInt32.ofNat (leNat chunk)
  | .float64 => float.f64ToF32 (UInt64.ofNat (leNat chunk))
  | .float128 => decodeFloat128Lossy float chunk

def decodeSamples (bytes : List UInt8) (bitDepth : RawBitDepth) :
    Except RawPayloadError (List UInt32) :=
  let bytesPerSample := bitDepth.bytesPerSample
  if ¬ bytes.length % bytesPerSample = 0 then .error (.invalidRawSampleBytes bytesPerSample)
  else .ok ((asChunks bytesPerSample bytes).map (decodeSample float bitDepth))

def encodeFloat128FromF32 (sample : UInt32) : List UInt8 :=
  leBytes 8 (float.f32ToF64 sample).toNat ++ List.replicate 8 0

/-- A sample of the loops of `encode_samples`. -/
def encodeSample (bitDepth : RawBitDepth) (sample : UInt32) : List UInt8 :=
  match bitDepth with
  | .float16 => leBytes 2 (float.f32ToF16 sample).toNat
  | .float32 => leBytes 4 sample.toNat
  | .float64 => leBytes 8 (float.f32ToF64 sample).toNat
  | .float128 => encodeFloat128FromF32 float sample

def encodeSamples (samples : List UInt32) (bitDepth : RawBitDepth) : List UInt8 :=
  samples.flatMap (encodeSample float bitDepth)

end

/-! ## The frame -/

/-- `RawAudioFrame`, its samples as bit patterns. -/
structure RawAudioBits where
  channels : UInt8
  samples : List UInt32
  deriving DecidableEq, Repr

namespace RawAudioBits

variable (float : FloatFormats)

def fromPayload (payload : List UInt8) : Except RawPayloadError RawAudioBits :=
  match payload with
  | [] => .error .emptyRawPayload
  | headerByte :: sampleBytes => do
    let header ← RawFrameHeader.parse headerByte
    let samples ← decodeSamples float sampleBytes header.bitDepth
    (validateSampleCount header.channels samples.length).mapError .samples
    pure { channels := header.channels, samples }

def toPayload (self : RawAudioBits) (bitDepth : RawBitDepth) :
    Except RawPayloadError (List UInt8) := do
  (validateSampleCount self.channels self.samples.length).mapError .samples
  let header ← (RawFrameHeader.new self.channels bitDepth).mapError .samples
  pure (header.encode :: encodeSamples float self.samples bitDepth)

end RawAudioBits

end Lxst
