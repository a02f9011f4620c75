import RsLxst.Core.Profile
import RsLxst.Lib.Checked

/-!
# Raw audio frames

`lxst-core/src/raw.rs`: `RawAudioFrame` and its sample count check, which takes the bound on the
channels from `RawFrameHeader::new`. Samples are `f32`; a `usize` is a `Nat`.
-/

set_option autoImplicit false

namespace Lxst

open Checked

/-- The errors of the crate that the sample count check can return. -/
inductive RawError
  | invalidRawChannels (channels : UInt8)
  | invalidRawSampleCount (samples : Nat) (channels : UInt8)
  deriving DecidableEq, Repr

structure RawAudioFrame where
  channels : UInt8
  samples : List Float32

def validateSampleCount (channels : UInt8) (samples : Nat) : Except RawError Unit :=
  if channels = 0 ∨ channels > 64 then .error (.invalidRawChannels channels)
  else if ¬ samples % channels.toNat = 0 then .error (.invalidRawSampleCount samples channels)
  else .ok ()

namespace RawAudioFrame

def new (channels : UInt8) (samples : List Float32) : Except RawError RawAudioFrame := do
  validateSampleCount channels samples.length
  pure { channels, samples }

/-- The fields are public, so a frame may have no channels; the division then panics. -/
def sampleFrames {ε : Type} (self : RawAudioFrame) : Checked ε Nat :=
  div self.samples.length self.channels.toNat

end RawAudioFrame

end Lxst
