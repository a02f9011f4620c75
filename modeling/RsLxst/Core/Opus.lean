import RsLxst.Core.AudioProfile
import RsLxst.Core.OpusPacket

/-!
# The Opus codec of a call profile

`lxst-core/src/opus.rs`: `OpusEncoderState` and `OpusDecoderState`. The codec library is outside
the repository: `OpusEncoder` and `OpusDecoder` are its two types, any state with calls that fill
the buffer they are given and return how much of it counts. A call may change the state of the
codec and still fail, so a method is a `Task`, which keeps the state on errors.
-/

set_option autoImplicit false

namespace Lxst

namespace Opus

open Checked

/-- The library's encoder. A call writes into `output`, which keeps its length. -/
structure OpusEncoder where
  State : Type
  new : (samplingRate : Int32) → (channels : Nat) → OpusApplication → Except String State
  setBitrateBps : Int32 → State → State
  setUseCbr : Bool → State → State
  encode : State → (input : List Float32) → (frameSize : Nat) → (output : List UInt8) →
    Except String Nat × List UInt8 × State
  encode_length : ∀ s input frameSize output,
    (encode s input frameSize output).2.1.length = output.length

/-- The library's decoder. -/
structure OpusDecoder where
  State : Type
  new : (samplingRate : Int32) → (channels : Nat) → Except String State
  decode : State → (input : List UInt8) → (frameSize : Nat) → (output : List Float32) →
    Except String Nat × List Float32 × State
  decode_length : ∀ s input frameSize output,
    (decode s input frameSize output).2.1.length = output.length

abbrev Task (σ α : Type) := EStateM (Abort OpusCodecError) σ α

/-- `.map_err(|err| OpusCodecError::Codec(err.to_string()))` -/
def codecResult {α : Type} : Except String α → Outcome α
  | .ok a => pure a
  | .error err => fail (.codec err)

/-- `Ok(RawAudioFrame::new(channels, samples)?)` -/
def rawFrame (channels : UInt8) (samples : List Float32) : Outcome RawAudioFrame :=
  match RawAudioFrame.new channels samples with
  | .ok frame => pure frame
  | .error err => fail (.wire err)

/-! ## Packet layout -/

structure PacketLayout where
  subframeCount : Nat
  subframeSampleFrames : Nat
  deriving DecidableEq, Repr

def supportsDirectFrame (sampleRateHz : UInt32) (sampleFrames : Nat) : Bool :=
  sampleFrames ≠ 0 ∧ sampleRateHz.toNat % sampleFrames = 0

def PacketLayout.new (sampleRateHz : UInt32) (sampleFrames : Nat) : Outcome PacketLayout :=
  if supportsDirectFrame sampleRateHz sampleFrames then
    pure { subframeCount := 1, subframeSampleFrames := sampleFrames }
  else
    let subframeSampleFrames := sampleRateHz.toNat / 50
    if sampleFrames ≠ 0 ∧ subframeSampleFrames ≠ 0 ∧ sampleFrames % subframeSampleFrames = 0 ∧
        supportsDirectFrame sampleRateHz subframeSampleFrames then
      pure { subframeCount := sampleFrames / subframeSampleFrames, subframeSampleFrames }
    else fail (.unsupportedFrameDuration sampleRateHz sampleFrames)

/-- At the bitrate of `VoiceMedium` the library picks too wide a band from the 24 kHz rate. -/
def encodeSampleRate : OpusProfile → UInt32
  | .voiceMedium => 16000
  | profile => profile.sampleRate

variable (host : Host)

def scaleSampleFrames (sampleFrames : Nat) (sourceSampleRate encodeSampleRate : UInt32) :
    Outcome Nat := do
  let numerator ← okOr (checkedMul host.usizeMax sampleFrames encodeSampleRate.toNat)
    (.unsupportedFrameDuration encodeSampleRate sampleFrames)
  let denominator := sourceSampleRate.toNat
  if ¬ numerator % denominator = 0 then
    fail (.unsupportedFrameDuration encodeSampleRate sampleFrames)
  else div numerator denominator

def clamp (x lo hi : Float) : Float := if x < lo then lo else if x > hi then hi else x

def resampleInterleavedLinear (input : List Float32) (inputFrames outputFrames channels : Nat) :
    Outcome (List Float32) :=
  if inputFrames = outputFrames then pure input
  else do
    let len ← mul host.usizeMax outputFrames channels
    if inputFrames = 0 ∨ outputFrames = 0 ∨ channels = 0 then pure (List.replicate len 0)
    else if inputFrames = 1 then do
      let frame ← slice input 0 channels
      pure (List.replicate outputFrames frame).flatten
    else do
      let scale := Float.ofNat inputFrames / Float.ofNat outputFrames
      let maxInputIndex := inputFrames - 1
      let output ← (List.range outputFrames).mapM fun outFrame => do
        let src := clamp ((Float.ofNat outFrame + 0.5) * scale - 0.5) 0 (Float.ofNat maxInputIndex)
        let left := src.floor.toUInt64.toNat
        let right := min (left + 1) maxInputIndex
        let fraction := (src - Float.ofNat left).toFloat32
        let leftOffset ← mul host.usizeMax left channels
        let rightOffset ← mul host.usizeMax right channels
        (List.range channels).mapM fun channel => do
          let a ← index input (leftOffset + channel)
          let b ← index input (rightOffset + channel)
          pure (a + (b - a) * fraction)
      pure output.flatten

/-- Where the samples of a subframe start and end. -/
def subframeRange (index subframeSampleFrames channels : Nat) : Outcome (Nat × Nat) := do
  let startFrames ← mul host.usizeMax index subframeSampleFrames
  let start ← mul host.usizeMax startFrames channels
  let len ← mul host.usizeMax subframeSampleFrames channels
  let stop ← add host.usizeMax start len
  pure (start, stop)

/-! ## The encoder -/

structure OpusEncoderState (E : OpusEncoder) where
  profile : Profile
  channels : UInt8
  sampleFrames : Nat
  subframeCount : Nat
  subframeSampleFrames : Nat
  encodeSampleFrames : Nat
  encodeSubframeSampleFrames : Nat
  maxPayloadBytes : Nat
  encoder : E.State

def pushSubframePayloadLen (output : List UInt8) (len : Nat) : Outcome (List UInt8) :=
  if len < 252 then pure (output ++ [UInt8.ofNat len])
  else if len ≤ 1275 then do
    let first := 252 + len % 4
    let rest ← sub len first
    pure (output ++ [UInt8.ofNat first, UInt8.ofNat (rest / 4)])
  else fail (.unsupportedSubframePayloadLength len)

namespace OpusEncoderState

variable (E : OpusEncoder)

def new (profile : Profile) : Outcome (OpusEncoderState E) :=
  match profile.audioCodec with
  | .codec2 _ => fail (.nonOpusProfile profile)
  | .opus opusProfile => do
    let sampleRate := opusProfile.sampleRate
    let encodeRate := encodeSampleRate opusProfile
    let sampleFrames := profile.sampleFramesPerPacket
    let encodeSampleFrames ← scaleSampleFrames host sampleFrames sampleRate encodeRate
    let packetLayout ← PacketLayout.new encodeRate encodeSampleFrames
    let subframeSampleFrames ← okOr
      ((if packetLayout.subframeCount = 0 then none
        else some (sampleFrames / packetLayout.subframeCount)).filter
        fun frames => frames * packetLayout.subframeCount = sampleFrames)
      (.unsupportedFrameDuration sampleRate sampleFrames)
    let encoder ← codecResult
      (E.new encodeRate.toInt32 opusProfile.channels.toNat opusProfile.application)
    pure {
      profile
      channels := opusProfile.channels
      sampleFrames
      subframeCount := packetLayout.subframeCount
      subframeSampleFrames
      encodeSampleFrames
      encodeSubframeSampleFrames := packetLayout.subframeSampleFrames
      maxPayloadBytes := opusProfile.maxBytesPerFrameMs profile.frameTimeMs
      encoder := E.setUseCbr false (E.setBitrateBps opusProfile.bitrateCeiling.toInt32 encoder)
    }

variable {E}

def validateFrameShape (self : OpusEncoderState E) (frame : RawAudioFrame) : Outcome Unit :=
  if frame.channels ≠ self.channels then fail (.channelMismatch self.channels frame.channels)
  else do
    let sampleFrames ← frame.sampleFrames
    if sampleFrames ≠ self.sampleFrames then
      fail (.sampleFrameMismatch self.sampleFrames sampleFrames)
    else pure ()

/-- One call of the library's encoder, and `encoded.truncate(written)`. -/
def callEncoder (input : List Float32) (frameSize : Nat) (encoded : List UInt8) :
    Task (OpusEncoderState E) (List UInt8) := do
  let self ← get
  let (result, encoded, encoder) := E.encode self.encoder input frameSize encoded
  set { self with encoder }
  let written ← codecResult result
  pure (encoded.take written)

def subframePayloadBudgets (self : OpusEncoderState E) : Outcome (List Nat) := do
  let total ← add host.usizeMax 2 self.subframeCount
  let headerBytes ← sub total 1
  let payloadBudget ← okOr (checkedSub self.maxPayloadBytes headerBytes)
    .unsupportedSubpacketLayout
  let base ← div payloadBudget self.subframeCount
  let extra := payloadBudget % self.subframeCount
  pure ((List.range self.subframeCount).map fun index => base + if index < extra then 1 else 0)

/-- The samples of one subframe, resampled if the library encodes at another rate. -/
def subframeInput (self : OpusEncoderState E) (frame : RawAudioFrame) (subframeIndex : Nat) :
    Outcome (List Float32) := do
  let channels := self.channels.toNat
  let (start, stop) ← subframeRange host subframeIndex self.subframeSampleFrames channels
  let samples ← slice frame.samples start stop
  if self.encodeSubframeSampleFrames = self.subframeSampleFrames then pure samples
  else
    resampleInterleavedLinear host samples self.subframeSampleFrames
      self.encodeSubframeSampleFrames channels

/-- The samples of a whole frame, resampled likewise. -/
def frameInput (self : OpusEncoderState E) (frame : RawAudioFrame) : Outcome (List Float32) :=
  if self.encodeSampleFrames = self.sampleFrames then pure frame.samples
  else
    resampleInterleavedLinear host frame.samples self.sampleFrames self.encodeSampleFrames
      self.channels.toNat

/-- The loop over the subframes: what the library makes of each within its budget. -/
def encodeSubframes (frame : RawAudioFrame) :
    Nat → List Nat → Task (OpusEncoderState E) (List (List UInt8))
  | _, [] => pure []
  | subframeIndex, payloadBudget :: budgets => do
    let self ← get
    let input ← subframeInput host self frame subframeIndex
    let capacity ← (add host.usizeMax payloadBudget 1 : Outcome Nat)
    let encoded ← callEncoder input self.encodeSubframeSampleFrames (List.replicate capacity 0)
    if encoded.head?.all fun toc => toc &&& 0x03 != 0 then
      throw (.error .unsupportedSubpacketLayout)
    else do
      let subpackets ← encodeSubframes frame (subframeIndex + 1) budgets
      pure (encoded :: subpackets)

/-- `push_subframe_payload_len(&mut payload, subpacket.len() - 1)` -/
def pushLen (payload subpacket : List UInt8) : Outcome (List UInt8) := do
  let len ← sub subpacket.length 1
  pushSubframePayloadLen payload len

/-- `payload.extend_from_slice(&subpacket[1..])` -/
def pushBody (payload subpacket : List UInt8) : Outcome (List UInt8) := do
  let body ← slice subpacket 1 subpacket.length
  pure (payload ++ body)

/-- The code 3 packet of the subpackets, under the TOC byte of the first. The debug assertion on
its length never fires for a profile's encoder (`encodeMultiSubframePacket_merged`). -/
def mergeSubpackets (self : OpusEncoderState E) (subpackets : List (List UInt8)) :
    Outcome (List UInt8) := do
  let first ← index subpackets 0
  let firstToc ← index first 0
  let toc := (firstToc &&& ~~~0x03) ||| 0x03
  let count ← sub self.subframeCount 1
  let payload ← (subpackets.take count).foldlM pushLen
    [toc, 0x80 ||| UInt8.ofNat self.subframeCount]
  subpackets.foldlM pushBody payload

def encodeMultiSubframePacket (frame : RawAudioFrame) : Task (OpusEncoderState E) Frame := do
  let self ← get
  let budgets ← subframePayloadBudgets host self
  let subpackets ← encodeSubframes host frame 0 budgets
  let payload ← mergeSubpackets self subpackets
  pure { codec := .opus, payload }

def encodeFrame (frame : RawAudioFrame) : Task (OpusEncoderState E) Frame := do
  let self ← get
  validateFrameShape self frame
  if self.subframeCount > 1 then encodeMultiSubframePacket host frame
  else do
    let input ← frameInput host self frame
    let payload ← callEncoder input self.encodeSampleFrames (List.replicate self.maxPayloadBytes 0)
    pure { codec := .opus, payload }

end OpusEncoderState

/-! ## The decoder -/

def parseCode3SubframePayloads (packet : List UInt8) (expectedCount : Nat) :
    Outcome (List (List UInt8)) :=
  if packet.length < 2 then malformed "code 3 packet is too short"
  else do
    let countByte ← index packet 1
    let frameCount := (countByte &&& 0x3F).toNat
    if frameCount ≠ expectedCount then
      malformed "code 3 frame count does not match the active profile"
    else if frameCount = 0 then malformed "code 3 frame count is zero"
    else do
      let (cursor, payloadEnd) ← paddedPayload host (add host.usizeMax)
        "padding exceeds packet" "padding exceeds payload" packet countByte
      if countByte &&& 0x80 ≠ 0 then
        vbrFrames host "payload cursor exceeds packet"
          "declared frame lengths exceed packet payload" packet frameCount cursor payloadEnd
      else do
        let compressed ← slice packet cursor payloadEnd
        if ¬ compressed.length % frameCount = 0 then
          malformed "CBR code 3 payload is not evenly divisible"
        else if compressed.length / frameCount = 0 then malformed "CBR code 3 payload is empty"
        else pure (compressed.toChunks (compressed.length / frameCount))

structure OpusDecoderState (D : OpusDecoder) where
  profile : Profile
  channels : UInt8
  sampleFrames : Nat
  subframeCount : Nat
  subframeSampleFrames : Nat
  decoder : D.State

namespace OpusDecoderState

variable (D : OpusDecoder)

def new (profile : Profile) : Outcome (OpusDecoderState D) :=
  match profile.audioCodec with
  | .codec2 _ => fail (.nonOpusProfile profile)
  | .opus opusProfile => do
    let sampleRate := opusProfile.sampleRate
    let sampleFrames := profile.sampleFramesPerPacket
    let packetLayout ← PacketLayout.new sampleRate sampleFrames
    let decoder ← codecResult (D.new sampleRate.toInt32 opusProfile.channels.toNat)
    pure {
      profile
      channels := opusProfile.channels
      sampleFrames
      subframeCount := packetLayout.subframeCount
      subframeSampleFrames := packetLayout.subframeSampleFrames
      decoder
    }

variable {D}

/-- One call of the library's decoder: the sample frames it reports and the filled buffer. -/
def callDecoder (input : List UInt8) (frameSize : Nat) (samples : List Float32) :
    Task (OpusDecoderState D) (Nat × List Float32) := do
  let self ← get
  let (result, samples, decoder) := D.decode self.decoder input frameSize samples
  set { self with decoder }
  let decoded ← codecResult result
  pure (decoded, samples)

/-- `vec![0.0f32; self.sample_frames * channels]` -/
def silence (self : OpusDecoderState D) : Outcome (List Float32) := do
  let len ← mul host.usizeMax self.sampleFrames self.channels.toNat
  pure (List.replicate len 0)

def decodeDirectPacket (frame : Frame) : Task (OpusDecoderState D) RawAudioFrame := do
  let self ← get
  let samples ← silence host self
  let (decoded, samples) ← callDecoder frame.payload self.sampleFrames samples
  let kept ← (mul host.usizeMax decoded self.channels.toNat : Outcome Nat)
  rawFrame self.channels (samples.take kept)

/-- The loop over the subpayloads, each under the packet's TOC byte. -/
def decodeSubframes (toc : UInt8) :
    Nat → List (List UInt8) → List Float32 → Task (OpusDecoderState D) (List Float32)
  | _, [], samples => pure samples
  | index, subpayload :: subpayloads, samples => do
    let self ← get
    let (start, stop) ← subframeRange host index self.subframeSampleFrames self.channels.toNat
    let output ← (slice samples start stop : Outcome (List Float32))
    let (_, output) ← callDecoder (toc :: subpayload) self.subframeSampleFrames output
    decodeSubframes toc (index + 1) subpayloads (samples.take start ++ output ++ samples.drop stop)

def decodeMultiSubframePacket (frame : Frame) : Task (OpusDecoderState D) RawAudioFrame := do
  let self ← get
  let subpayloads ← parseCode3SubframePayloads host frame.payload self.subframeCount
  let samples ← silence host self
  let first ← (index frame.payload 0 : Outcome UInt8)
  let samples ← decodeSubframes host (first &&& ~~~0x03) 0 subpayloads samples
  rawFrame self.channels samples

def decodeFrame (frame : Frame) : Task (OpusDecoderState D) RawAudioFrame := do
  let self ← get
  if frame.codec ≠ .opus then throw (.error (.invalidFrameCodec frame.codec))
  else if self.subframeCount > 1 ∧ frame.payload.head?.any fun toc => toc &&& 0x03 == 0x03 then
    decodeMultiSubframePacket host frame
  else decodeDirectPacket host frame

end OpusDecoderState

end Opus

end Lxst
