import RsLxst.Core.AudioProfile
import RsLxst.Lib.Blocks

/-!
# Codec2 packets

`lxst-core/src/shared/codec2.rs`: `Codec2PacketCodec` over any native backend. A `Codec2Backend` is
any state with calls that fill a buffer of the caller, which keeps its length; a call may change
the state and still fail. An operation returns its result, the caller's output buffer and the codec
after it. The sizes of a codec are those of its profile (`framed`), so that no slice of the two
operations leaves its buffer.
-/

set_option autoImplicit false

namespace Lxst

/-- `self as u8` -/
def Codec2Mode.header : Codec2Mode → UInt8
  | .mode700C => 0x00
  | .mode1200 => 0x01
  | .mode1300 => 0x02
  | .mode1400 => 0x03
  | .mode1600 => 0x04
  | .mode2400 => 0x05
  | .mode3200 => 0x06

namespace Codec2

open Blocks (equalBlocks)

structure Codec2Backend where
  State : Type
  Error : Type
  mode : State → Codec2Mode
  encodeNative : State → (pcm : List Int16) → (encoded : List UInt8) →
    Except Error Unit × List UInt8 × State
  decodeNative : State → (encoded : List UInt8) → (pcm : List Int16) →
    Except Error Unit × List Int16 × State
  encodeNative_length : ∀ s pcm encoded, (encodeNative s pcm encoded).2.1.length = encoded.length
  decodeNative_length : ∀ s encoded pcm, (decodeNative s encoded pcm).2.1.length = pcm.length

inductive Codec2PacketError (ε : Type)
  | nonCodec2Profile (profile : Profile)
  | backendModeMismatch (expected actual : Codec2Mode)
  | sampleCount (expected actual : Nat)
  | outputCapacity (required actual : Nat)
  | payloadLength (expected actual : Nat)
  | modeHeader (expected actual : UInt8)
  | backend (error : ε)
  | failed

/-- The samples and the bytes of a native frame. -/
def nativeFrame : Profile → Option (Nat × Nat)
  | .bandwidthUltraLow => some (320, 4)
  | .bandwidthVeryLow => some (320, 8)
  | .bandwidthLow => some (160, 8)
  | _ => none

structure Codec2PacketCodec (B : Codec2Backend) where
  backend : B.State
  profile : Profile
  mode : Codec2Mode
  nativeSamples : Nat
  nativeBytes : Nat
  failed : Bool
  matching : profile.audioCodec = .codec2 mode
  framed : nativeFrame profile = some (nativeSamples, nativeBytes)

/-- `chunks_exact` -/
def chunksExact {α : Type} (size : Nat) (xs : List α) : List (List α) :=
  equalBlocks size (xs.length / size) xs

/-- `blocks` are written one after another from `start` on. -/
def overwrite {α : Type} (start : Nat) (blocks : List (List α)) (output : List α) : List α :=
  output.take start ++ blocks.flatten ++ output.drop (start + blocks.flatten.length)

namespace Codec2PacketCodec

variable {B : Codec2Backend}

def new (profile : Profile) (backend : B.State) :
    Except (Codec2PacketError B.Error) (Codec2PacketCodec B) :=
  match matching : profile.audioCodec with
  | .opus _ => .error (.nonCodec2Profile profile)
  | .codec2 mode =>
    if B.mode backend ≠ mode then .error (.backendModeMismatch mode (B.mode backend))
    else
      match framed : nativeFrame profile with
      | none => .error (.nonCodec2Profile profile)
      | some (nativeSamples, nativeBytes) =>
        .ok { backend, profile, mode, nativeSamples, nativeBytes, failed := false, matching, framed }

def sampleFrames (self : Codec2PacketCodec B) : Nat := self.profile.sampleFramesPerPacket

def payloadBytes (self : Codec2PacketCodec B) : Nat :=
  1 + self.sampleFrames / self.nativeSamples * self.nativeBytes

def ready (self : Codec2PacketCodec B) : Except (Codec2PacketError B.Error) Unit :=
  if self.failed then .error .failed
  else if B.mode self.backend ≠ self.mode then
    .error (.backendModeMismatch self.mode (B.mode self.backend))
  else .ok ()

/-- The loop of both operations: a native call for each pair of blocks until one fails. Returns
the output blocks as they are afterwards. -/
def nativeCalls {α β : Type}
    (native : B.State → List α → List β → Except B.Error Unit × List β × B.State) :
    Codec2PacketCodec B → List (List α × List β) →
      Except (Codec2PacketError B.Error) Unit × List (List β) × Codec2PacketCodec B
  | self, [] => (.ok (), [], self)
  | self, (input, output) :: blocks =>
    match native self.backend input output with
    | (.error error, output, backend) =>
      (.error (.backend error), output :: blocks.map Prod.snd,
        { self with backend, failed := true })
    | (.ok (), output, backend) =>
      let (result, outputs, self) := nativeCalls native { self with backend } blocks
      (result, output :: outputs, self)

/-- The blocks of PCM and of output that `encode_into` zips. -/
def encodeBlocks (self : Codec2PacketCodec B) (pcm : List Int16) (output : List UInt8) :
    List (List Int16 × List UInt8) :=
  (chunksExact self.nativeSamples pcm).zip
    (chunksExact self.nativeBytes ((output.take self.payloadBytes).drop 1))

/-- The blocks of payload and of output that `decode_into` zips. -/
def decodeBlocks (self : Codec2PacketCodec B) (payload : List UInt8) (output : List Int16) :
    List (List UInt8 × List Int16) :=
  (chunksExact self.nativeBytes (payload.drop 1)).zip
    (chunksExact self.nativeSamples (output.take self.sampleFrames))

def encodeInto (self : Codec2PacketCodec B) (pcm : List Int16) (output : List UInt8) :
    Except (Codec2PacketError B.Error) Nat × List UInt8 × Codec2PacketCodec B :=
  match self.ready with
  | .error error => (.error error, output, self)
  | .ok () =>
    if pcm.length ≠ self.sampleFrames then
      (.error (.sampleCount self.sampleFrames pcm.length), output, self)
    else
      let required := self.payloadBytes
      if output.length < required then
        (.error (.outputCapacity required output.length), output, self)
      else
        match nativeCalls B.encodeNative self (self.encodeBlocks pcm output) with
        | (.error error, bytes, self) => (.error error, overwrite 1 bytes output, self)
        | (.ok (), bytes, self) =>
          (.ok required, (overwrite 1 bytes output).set 0 self.mode.header, self)

theorem ne_nil_of_length {self : Codec2PacketCodec B} {payload : List UInt8}
    (h : ¬ payload.length ≠ self.payloadBytes) : payload ≠ [] := by
  intro hnil
  subst hnil
  unfold payloadBytes at h
  rw [List.length_nil] at h
  omega

def decodeInto (self : Codec2PacketCodec B) (payload : List UInt8) (output : List Int16) :
    Except (Codec2PacketError B.Error) Nat × List Int16 × Codec2PacketCodec B :=
  match self.ready with
  | .error error => (.error error, output, self)
  | .ok () =>
    if h : payload.length ≠ self.payloadBytes then
      (.error (.payloadLength self.payloadBytes payload.length), output, self)
    else
      let header := payload.head (ne_nil_of_length h)
      if header ≠ self.mode.header then
        (.error (.modeHeader self.mode.header header), output, self)
      else
        let required := self.sampleFrames
        if output.length < required then
          (.error (.outputCapacity required output.length), output, self)
        else
          match nativeCalls B.decodeNative self (self.decodeBlocks payload output) with
          | (.error error, samples, self) => (.error error, overwrite 0 samples output, self)
          | (.ok (), samples, self) => (.ok required, overwrite 0 samples output, self)

end Codec2PacketCodec

/-! ## Calls -/

inductive Call
  | encode (pcm : List Int16) (output : List UInt8)
  | decode (payload : List UInt8) (output : List Int16)

/-- The result of a call and the caller's output buffer after it. -/
inductive Outcome (ε : Type)
  | encoded (result : Except (Codec2PacketError ε) Nat) (output : List UInt8)
  | decoded (result : Except (Codec2PacketError ε) Nat) (output : List Int16)

def Codec2PacketCodec.call {B : Codec2Backend} (self : Codec2PacketCodec B) :
    Call → Codec2PacketCodec B × List (Outcome B.Error)
  | .encode pcm output =>
    let (result, output, self) := self.encodeInto pcm output
    (self, [.encoded result output])
  | .decode payload output =>
    let (result, output, self) := self.decodeInto payload output
    (self, [.decoded result output])

end Codec2

end Lxst
