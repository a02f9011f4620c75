import RsLxst.Core.Raw
import RsLxst.Core.Wire
import RsLxst.Lib.Checked

/-!
# Opus packet inspection

`lxst-core/src/opus.rs`: `inspect_opus_packet` and the packet parser below it. A slice is the list
of its bytes and a `usize` a `Nat`, with `Host.usizeMax` the largest one; a function that indexes,
slices or computes is `Checked`, so that leaving the range shows as `Abort.panic`. Sums and
products of a few bytes, and 48000 shifted by at most 3, fit every host's `usize` and are plain.
-/

set_option autoImplicit false

namespace Lxst

namespace Opus

open Checked

def OPUS_MONO_DECODE_SAMPLE_RATE_HZ : Nat := 48000
def OPUS_ENCODED_FRAME_MAX_BYTES : Nat := 1275
def OPUS_ENCODED_PACKET_MAX_BYTES : Nat := 61440

inductive OpusCodecError
  | nonOpusProfile (profile : Profile)
  | channelMismatch (expected actual : UInt8)
  | sampleFrameMismatch (expected actual : Nat)
  | unsupportedFrameDuration (sampleRateHz : UInt32) (sampleFrames : Nat)
  | invalidFrameCodec (codec : CodecKind)
  | unsupportedSubframePayloadLength (len : Nat)
  | unsupportedSubpacketLayout
  | malformedPacket (message : String)
  | encodedPacketTooLarge (actual maximum : Nat)
  | encodedFrameTooLarge (index actual maximum : Nat)
  | unsupportedPacketDuration (samples48k : Nat)
  | codec (message : String)
  | wire (error : RawError)
  deriving DecidableEq, Repr

/-- A machine that the standard library supports. -/
structure Host where
  usizeMax : Nat
  thirtyTwoBits : 4294967295 ≤ usizeMax

abbrev Outcome (α : Type) := Checked OpusCodecError α

def malformed {α : Type} (message : String) : Outcome α := fail (.malformedPacket message)

structure InspectedOpusPacket where
  toc : UInt8
  channels : UInt8
  samplesPerFrame48k : Nat
  durationSamples48k : Nat
  frames : List (List UInt8)
  deriving DecidableEq, Repr

def opusSamplesPerFrame48k (toc : UInt8) : Nat :=
  if toc &&& 0x80 ≠ 0 then
    (OPUS_MONO_DECODE_SAMPLE_RATE_HZ <<< ((toc >>> 3) &&& 0x03).toNat) / 400
  else if toc &&& 0x60 = 0x60 then
    if toc &&& 0x08 ≠ 0 then 960 else 480
  else
    let config := ((toc >>> 3) &&& 0x03).toNat
    if config = 3 then 2880
    else (OPUS_MONO_DECODE_SAMPLE_RATE_HZ <<< config) / 100

/-- The frame length at the start of `input` and the bytes it takes. -/
def readSubframePayloadLen (input : List UInt8) : Outcome (Nat × Nat) := do
  let first ← okOr input.head? (.malformedPacket "missing frame length")
  if first < 252 then pure (first.toNat, 1)
  else do
    let second ← okOr input[1]? (.malformedPacket "truncated frame length")
    pure (first.toNat + 4 * second.toNat, 2)

variable (host : Host)

/-! ## Code 3 -/

/-- The padding chain: `rest` is the packet from `cursor` on, `grow` adds to the padding. -/
def readPaddingLen (grow : Nat → Nat → Outcome Nat) (exceeds : String) (rest : List UInt8)
    (cursor padding : Nat) : Outcome (Nat × Nat) :=
  match rest with
  | [] => malformed exceeds
  | byte :: rest => do
    let cursor ← add host.usizeMax cursor 1
    let padding ← grow padding (if byte = 255 then 254 else byte.toNat)
    if byte ≠ 255 then pure (cursor, padding)
    else readPaddingLen grow exceeds rest cursor padding

/-- `cursor` and `payload_end` behind the padding chain. -/
def paddedPayload (grow : Nat → Nat → Outcome Nat) (exceedsPacket exceedsPayload : String)
    (packet : List UInt8) (countByte : UInt8) : Outcome (Nat × Nat) :=
  if countByte &&& 0x40 ≠ 0 then do
    let (cursor, padding) ← readPaddingLen host grow exceedsPacket (packet.drop 2) 2 0
    let payloadEnd ← okOr (checkedSub packet.length padding) (.malformedPacket exceedsPacket)
    if cursor > payloadEnd then malformed exceedsPayload
    else pure (cursor, payloadEnd)
  else pure (2, packet.length)

def readPayloadLens (packet : List UInt8) (payloadEnd : Nat) :
    Nat → Nat → Outcome (List Nat × Nat)
  | 0, cursor => pure ([], cursor)
  | n + 1, cursor => do
    let input ← slice packet cursor payloadEnd
    let (frameLen, lengthBytes) ← readSubframePayloadLen input
    let cursor ← add host.usizeMax cursor lengthBytes
    let (lengths, cursor) ← readPayloadLens packet payloadEnd n cursor
    pure (frameLen :: lengths, cursor)

def sumLens (lengths : List Nat) : Outcome Nat :=
  lengths.foldlM (add host.usizeMax) 0

/-- The frames of the given lengths, from `payloadCursor` on. -/
def sliceFrames (packet : List UInt8) : List Nat → Nat → Outcome (List (List UInt8))
  | [], _ => pure []
  | frameLen :: lengths, payloadCursor => do
    let next ← add host.usizeMax payloadCursor frameLen
    let frame ← slice packet payloadCursor next
    let frames ← sliceFrames packet lengths next
    pure (frame :: frames)

def code3CbrFrames (packet : List UInt8) (frameCount cursor payloadEnd : Nat) :
    Outcome (List (List UInt8)) := do
  let payload ← slice packet cursor payloadEnd
  if ¬ payload.length % frameCount = 0 then
    malformed "code 3 CBR payload is not evenly divisible"
  else do
    let frameLen := payload.length / frameCount
    (List.range frameCount).mapM fun index => do
      let start ← mul host.usizeMax index frameLen
      let stop ← add host.usizeMax start frameLen
      slice payload start stop

/-- The frames behind their lengths; the last takes what the others leave. -/
def vbrFrames (cursorExceeds lengthsExceed : String) (packet : List UInt8)
    (frameCount cursor payloadEnd : Nat) : Outcome (List (List UInt8)) := do
  let declaredCount ← sub frameCount 1
  let (lengths, cursor) ← readPayloadLens host packet payloadEnd declaredCount cursor
  let declared ← sumLens host lengths
  let remaining ← okOr (checkedSub payloadEnd cursor) (.malformedPacket cursorExceeds)
  if declared > remaining then malformed lengthsExceed
  else do
    let last ← sub remaining declared
    sliceFrames host packet (lengths ++ [last]) cursor

def parseCode3PacketFrames (packet : List UInt8) : Outcome (List (List UInt8)) := do
  let countByte ← okOr packet[1]? (.malformedPacket "code 3 packet is too short")
  let frameCount := (countByte &&& 0x3F).toNat
  if frameCount = 0 then malformed "code 3 frame count is zero"
  else if frameCount > 48 then malformed "code 3 frame count exceeds 48"
  else do
    let (cursor, payloadEnd) ← paddedPayload host
      (fun padding len => okOr (checkedAdd host.usizeMax padding len)
        (.malformedPacket "code 3 padding length overflows"))
      "code 3 padding exceeds packet" "code 3 padding exceeds payload" packet countByte
    if countByte &&& 0x80 = 0 then code3CbrFrames host packet frameCount cursor payloadEnd
    else
      vbrFrames host "code 3 payload cursor exceeds packet"
        "code 3 declared frame lengths exceed packet payload" packet frameCount cursor payloadEnd

/-! ## The packet -/

/-- Codes 1 and 2: the payload up to `firstLen` and the rest. -/
def twoFrames (payload : List UInt8) (firstLen : Nat) : Outcome (List (List UInt8)) := do
  let first ← slice payload 0 firstLen
  let second ← slice payload firstLen payload.length
  pure [first, second]

def parseOpusPacketFrames (packet : List UInt8) : Outcome (List (List UInt8)) := do
  let toc ← index packet 0
  let body ← slice packet 1 packet.length
  match toc &&& 0x03 with
  | 0 => pure [body]
  | 1 =>
    if ¬ body.length % 2 = 0 then malformed "code 1 CBR payload has odd length"
    else twoFrames body (body.length / 2)
  | 2 => do
    let (firstLen, lengthBytes) ← readSubframePayloadLen body
    let payload ← slice body lengthBytes body.length
    if firstLen > payload.length then malformed "code 2 first frame exceeds packet payload"
    else twoFrames payload firstLen
  | 3 => parseCode3PacketFrames host packet
  | _ => .error .panic

def checkFrameSizes : Nat → List (List UInt8) → Outcome Unit
  | _, [] => pure ()
  | index, frame :: frames =>
    if frame.length > OPUS_ENCODED_FRAME_MAX_BYTES then
      fail (.encodedFrameTooLarge index frame.length OPUS_ENCODED_FRAME_MAX_BYTES)
    else checkFrameSizes (index + 1) frames

def inspectOpusPacket (packet : List UInt8) : Outcome InspectedOpusPacket :=
  if packet.isEmpty then malformed "packet is empty"
  else if packet.length > OPUS_ENCODED_PACKET_MAX_BYTES then
    fail (.encodedPacketTooLarge packet.length OPUS_ENCODED_PACKET_MAX_BYTES)
  else do
    let toc ← index packet 0
    let samplesPerFrame48k := opusSamplesPerFrame48k toc
    let frames ← parseOpusPacketFrames host packet
    checkFrameSizes 0 frames
    let durationSamples48k ← okOr (checkedMul host.usizeMax samplesPerFrame48k frames.length)
      (.malformedPacket "packet duration overflows")
    if durationSamples48k > 5760 then malformed "packet duration exceeds 120 milliseconds"
    else if durationSamples48k = 0 ∨ ¬ durationSamples48k % 120 = 0 then
      fail (.unsupportedPacketDuration durationSamples48k)
    else pure {
      toc
      channels := if toc &&& 0x04 = 0 then 1 else 2
      samplesPerFrame48k
      durationSamples48k
      frames
    }

end Opus

end Lxst
