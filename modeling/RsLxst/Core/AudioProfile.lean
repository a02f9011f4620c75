import RsLxst.Core.WireTypes

/-!
# The audio side of a profile

`shared/profile.rs`: the codec, the rates and the byte budget that a `Profile` stands for. A `u16`
is a `UInt16`, a `u32` a `UInt32` and a `usize` a `Nat`; the products below fit 32 bits.
-/

set_option autoImplicit false

namespace Lxst

inductive OpusApplication
  | voip
  | audio
  deriving DecidableEq, Repr

inductive OpusProfile
  | voiceLow
  | voiceMedium
  | voiceHigh
  | voiceMax
  | audioMin
  | audioLow
  | audioMedium
  | audioHigh
  | audioMax
  deriving DecidableEq, Repr

/-- `usize::div_ceil` -/
def divCeil (a b : Nat) : Nat := if a % b > 0 then a / b + 1 else a / b

namespace OpusProfile

def channels : OpusProfile → UInt8
  | .voiceLow | .voiceMedium | .voiceHigh => 1
  | .voiceMax => 2
  | .audioMin | .audioLow => 1
  | .audioMedium | .audioHigh | .audioMax => 2

def sampleRate : OpusProfile → UInt32
  | .voiceLow => 8000
  | .voiceMedium => 24000
  | .voiceHigh | .voiceMax => 48000
  | .audioMin => 8000
  | .audioLow => 12000
  | .audioMedium => 24000
  | .audioHigh | .audioMax => 48000

def application : OpusProfile → OpusApplication
  | .voiceLow | .voiceMedium | .voiceHigh | .voiceMax => .voip
  | .audioMin | .audioLow | .audioMedium | .audioHigh | .audioMax => .audio

def bitrateCeiling : OpusProfile → UInt32
  | .voiceLow => 6000
  | .voiceMedium => 8000
  | .voiceHigh => 16000
  | .voiceMax => 32000
  | .audioMin => 8000
  | .audioLow => 14000
  | .audioMedium => 28000
  | .audioHigh => 56000
  | .audioMax => 128000

def maxBytesPerFrameMs (self : OpusProfile) (frameDurationMs : UInt16) : Nat :=
  divCeil (self.bitrateCeiling.toNat * frameDurationMs.toNat) 8000

end OpusProfile

inductive AudioCodec
  | opus (profile : OpusProfile)
  | codec2 (mode : Codec2Mode)
  deriving DecidableEq, Repr

namespace AudioCodec

def sampleRateHz : AudioCodec → UInt32
  | .opus profile => profile.sampleRate
  | .codec2 _ => 8000

end AudioCodec

namespace Profile

def frameTimeMs : Profile → UInt16
  | .bandwidthUltraLow => 400
  | .bandwidthVeryLow => 320
  | .bandwidthLow => 200
  | .qualityMedium => 60
  | .qualityHigh => 60
  | .qualityMax => 60
  | .latencyLow => 20
  | .latencyUltraLow => 10

def audioCodec : Profile → AudioCodec
  | .bandwidthUltraLow => .codec2 .mode700C
  | .bandwidthVeryLow => .codec2 .mode1600
  | .bandwidthLow => .codec2 .mode3200
  | .qualityMedium => .opus .voiceMedium
  | .qualityHigh => .opus .voiceHigh
  | .qualityMax => .opus .voiceMax
  | .latencyLow => .opus .voiceMedium
  | .latencyUltraLow => .opus .voiceMedium

def sampleRateHz (self : Profile) : UInt32 := self.audioCodec.sampleRateHz

def sampleFramesPerPacket (self : Profile) : Nat :=
  self.sampleRateHz.toNat * self.frameTimeMs.toNat / 1000

end Profile

end Lxst
