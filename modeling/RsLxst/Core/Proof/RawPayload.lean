import Mathlib.Algebra.Order.Ring.Nat
import RsLxst.Core.RawPayload
import RsLxst.Lib.MsgPack

/-!
# The format of a raw payload

A header byte is the depth in its top two bits and one less than the channels in the others
(`parse_eq`, `header_of_encode`); the samples follow, each of the depth's width. `PayloadFormat`
collects what this makes of both directions.
-/

set_option autoImplicit false

namespace Lxst

open LittleEndian Blocks

/-! ## The header -/

/-- The depth that the top two bits select. -/
def depthOf (header : UInt8) : RawBitDepth :=
  match header.toNat / 64 with
  | 0 => .float16
  | 1 => .float32
  | 2 => .float64
  | _ => .float128

/-- The width of a sample, two to sixteen bytes. -/
def sampleWidth (header : UInt8) : Nat := 2 * 2 ^ (header.toNat / 64)

/-- The channel count of the low six bits. -/
def channelCount (header : UInt8) : Nat := header.toNat % 64 + 1

theorem parse_eq (header : UInt8) :
    RawFrameHeader.parse header =
      .ok { channels := UInt8.ofNat (channelCount header), bitDepth := depthOf header } :=
  MsgPack.forall_tag (p := fun header => RawFrameHeader.parse header =
    .ok { channels := UInt8.ofNat (channelCount header), bitDepth := depthOf header })
    (by decide +kernel) header

theorem encode_eq (header : UInt8) :
    RawFrameHeader.encode
      { channels := UInt8.ofNat (channelCount header), bitDepth := depthOf header } = header :=
  MsgPack.forall_tag (p := fun header => RawFrameHeader.encode
    { channels := UInt8.ofNat (channelCount header), bitDepth := depthOf header } = header)
    (by decide +kernel) header

/-- A header reads back the channels and the depth that it was made of. -/
theorem header_of_encode {channels : UInt8} (hpos : channels ≠ 0) (hmax : channels ≤ 64)
    (bitDepth : RawBitDepth) :
    channelCount (RawFrameHeader.encode { channels, bitDepth }) = channels.toNat ∧
      depthOf (RawFrameHeader.encode { channels, bitDepth }) = bitDepth := by
  have h := MsgPack.forall_tag (p := fun channels => channels ≠ 0 → channels ≤ 64 →
    ∀ bitDepth ∈ [RawBitDepth.float16, .float32, .float64, .float128],
      channelCount (RawFrameHeader.encode { channels, bitDepth }) = channels.toNat ∧
        depthOf (RawFrameHeader.encode { channels, bitDepth }) = bitDepth)
    (by decide +kernel) channels hpos hmax
  apply h
  cases bitDepth <;> decide

theorem sampleWidth_eq (header : UInt8) : (depthOf header).bytesPerSample = sampleWidth header :=
  MsgPack.forall_tag (p := fun header => (depthOf header).bytesPerSample = sampleWidth header)
    (by decide +kernel) header

theorem channelCount_bounds (header : UInt8) :
    (UInt8.ofNat (channelCount header)).toNat = channelCount header ∧
      UInt8.ofNat (channelCount header) ≠ 0 ∧ UInt8.ofNat (channelCount header) ≤ 64 :=
  MsgPack.forall_tag (p := fun header =>
    (UInt8.ofNat (channelCount header)).toNat = channelCount header ∧
      UInt8.ofNat (channelCount header) ≠ 0 ∧ UInt8.ofNat (channelCount header) ≤ 64)
    (by decide +kernel) header

theorem bytesPerSample_pos (bitDepth : RawBitDepth) : 0 < bitDepth.bytesPerSample := by
  cases bitDepth <;> decide

theorem validateSampleCount_ok_iff (channels : UInt8) (samples : Nat) :
    validateSampleCount channels samples = .ok () ↔
      (channels ≠ 0 ∧ channels ≤ 64) ∧ samples % channels.toNat = 0 := by
  unfold validateSampleCount
  by_cases hbad : channels = 0 ∨ channels > 64
  · rw [if_pos hbad]
    refine ⟨nofun, fun ⟨⟨hpos, hmax⟩, _⟩ => ?_⟩
    rcases hbad with hzero | hlarge
    · exact absurd hzero hpos
    · exact absurd hlarge (UInt8.not_lt.mpr hmax)
  · obtain ⟨hpos, hmax⟩ := not_or.mp hbad
    rw [if_neg hbad]
    by_cases hdiv : samples % channels.toNat = 0
    · rw [if_neg (not_not.mpr hdiv)]
      exact ⟨fun _ => ⟨⟨hpos, UInt8.not_lt.mp hmax⟩, hdiv⟩, fun _ => rfl⟩
    · rw [if_pos hdiv]
      exact ⟨nofun, fun h => absurd h.2 hdiv⟩

/-! ## The samples -/

section
variable (float : FloatFormats)

@[simp] theorem encodeSample_length (bitDepth : RawBitDepth) (sample : UInt32) :
    (encodeSample float bitDepth sample).length = bitDepth.bytesPerSample := by
  cases bitDepth <;> simp [encodeSample, encodeFloat128FromF32, RawBitDepth.bytesPerSample,
    RawBitDepth.bits]

theorem asChunks_of_mul {size count : Nat} (hsize : 0 < size) {bytes : List UInt8}
    (h : bytes.length = count * size) : asChunks size bytes = equalBlocks size count bytes := by
  rw [asChunks, h, Nat.mul_div_cancel _ hsize]

theorem encodeSamples_length (samples : List UInt32) (bitDepth : RawBitDepth) :
    (encodeSamples float samples bitDepth).length =
      samples.length * bitDepth.bytesPerSample := by
  rw [encodeSamples, List.flatMap_def,
    length_flatten_of_equal (k := bitDepth.bytesPerSample) (by simp), List.length_map]

/-- The chunks of encoded samples are the samples, each encoded. -/
theorem asChunks_encodeSamples (samples : List UInt32) (bitDepth : RawBitDepth) :
    asChunks bitDepth.bytesPerSample (encodeSamples float samples bitDepth) =
      samples.map (encodeSample float bitDepth) := by
  have hlength := encodeSamples_length float samples bitDepth
  rw [asChunks_of_mul (bytesPerSample_pos bitDepth) hlength]
  exact ((eq_equalBlocks_iff hlength _).mpr ⟨List.length_map _, by simp, rfl⟩).symm

theorem decodeSample_float32 (sample : UInt32) :
    decodeSample float .float32 (encodeSample float .float32 sample) = sample := by
  have hlt : sample.toNat < 256 ^ 4 := sample.toNat_lt
  rw [decodeSample, encodeSample, leNat_leBytes hlt, UInt32.ofNat_toNat]

theorem encodeSample_float32 {chunk : List UInt8} (h : chunk.length = 4) :
    encodeSample float .float32 (decodeSample float .float32 chunk) = chunk := by
  have hlt := leNat_lt chunk
  rw [h] at hlt
  have hbytes := leBytes_leNat chunk
  rw [h] at hbytes
  rw [decodeSample, encodeSample, UInt32.toNat_ofNat_of_lt' hlt, hbytes]

/-- Chunks put together again. -/
theorem asChunks_spec {size : Nat} {bytes : List UInt8} (h : bytes.length % size = 0) :
    (asChunks size bytes).length = bytes.length / size ∧
      (∀ chunk ∈ asChunks size bytes, chunk.length = size) ∧
      bytes = (asChunks size bytes).flatten := by
  have hlength : bytes.length = bytes.length / size * size :=
    (Nat.div_mul_cancel (Nat.dvd_of_mod_eq_zero h)).symm
  exact (eq_equalBlocks_iff hlength _).mp rfl

theorem encodeSamples_float32 {bytes : List UInt8} (h : bytes.length % 4 = 0) :
    encodeSamples float ((asChunks 4 bytes).map (decodeSample float .float32)) .float32 =
      bytes := by
  obtain ⟨-, hsize, hbytes⟩ := asChunks_spec h
  have hchunks : (asChunks 4 bytes).map
      (fun chunk => encodeSample float .float32 (decodeSample float .float32 chunk)) =
      asChunks 4 bytes := by
    rw [List.map_congr_left fun chunk hc => encodeSample_float32 float (hsize chunk hc),
      List.map_id']
  rw [encodeSamples, List.flatMap_map, List.flatMap_def, hchunks]
  exact hbytes.symm

/-! ## Whole payloads -/

/-- What a payload of at least the header decodes to, and when it does. -/
theorem fromPayload_cons_ok_iff (header : UInt8) (bytes : List UInt8) (frame : RawAudioBits) :
    RawAudioBits.fromPayload float (header :: bytes) = .ok frame ↔
      bytes.length % sampleWidth header = 0 ∧
        bytes.length / sampleWidth header % channelCount header = 0 ∧
        frame =
          { channels := UInt8.ofNat (channelCount header)
            samples := (asChunks (sampleWidth header) bytes).map
              (decodeSample float (depthOf header)) } := by
  obtain ⟨hcount, hpos, hmax⟩ := channelCount_bounds header
  have hvalid := validateSampleCount_ok_iff (UInt8.ofNat (channelCount header))
    (bytes.length / sampleWidth header)
  rw [hcount] at hvalid
  rw [RawAudioBits.fromPayload, parse_eq]
  simp only [bind, Except.bind, decodeSamples, sampleWidth_eq]
  by_cases halign : bytes.length % sampleWidth header = 0
  · have hchunks := (asChunks_spec halign).1
    rw [if_neg (not_not.mpr halign)]
    simp only [List.length_map, hchunks]
    cases hresult : validateSampleCount (UInt8.ofNat (channelCount header))
      (bytes.length / sampleWidth header) with
    | ok _ =>
      obtain ⟨-, hdiv⟩ := hvalid.mp hresult
      simp [Except.mapError, pure, Except.pure, halign, hdiv, eq_comm]
    | error error =>
      have hdiv : ¬ bytes.length / sampleWidth header % channelCount header = 0 := by
        intro hdiv
        rw [hvalid.mpr ⟨⟨hpos, hmax⟩, hdiv⟩] at hresult
        cases hresult
      simp [Except.mapError, hdiv]
  · rw [if_pos halign]
    simp [halign]

theorem toPayload_ok_iff (frame : RawAudioBits) (bitDepth : RawBitDepth) (payload : List UInt8) :
    frame.toPayload float bitDepth = .ok payload ↔
      (frame.channels ≠ 0 ∧ frame.channels ≤ 64) ∧
        frame.samples.length % frame.channels.toNat = 0 ∧
        payload =
          RawFrameHeader.encode { channels := frame.channels, bitDepth } ::
            encodeSamples float frame.samples bitDepth := by
  have hvalid := validateSampleCount_ok_iff frame.channels frame.samples.length
  unfold RawAudioBits.toPayload
  cases hresult : validateSampleCount frame.channels frame.samples.length with
  | ok _ =>
    obtain ⟨⟨hpos, hmax⟩, hdiv⟩ := hvalid.mp hresult
    have hnew : RawFrameHeader.new frame.channels bitDepth =
        .ok { channels := frame.channels, bitDepth } := by
      rw [RawFrameHeader.new, if_neg (not_or.mpr ⟨hpos, UInt8.not_lt.mpr hmax⟩)]
    rw [hnew]
    simp [bind, Except.bind, Except.mapError, pure, Except.pure, hpos, hmax, hdiv, eq_comm]
  | error error =>
    refine ⟨nofun, fun ⟨hchannels, hdiv, _⟩ => ?_⟩
    rw [hvalid.mpr ⟨hchannels, hdiv⟩] at hresult
    cases hresult

/-- A payload of a frame decodes to its channels and as many samples. -/
theorem fromPayload_encoded {frame : RawAudioBits} {bitDepth : RawBitDepth} {payload : List UInt8}
    (h : frame.toPayload float bitDepth = .ok payload) :
    RawAudioBits.fromPayload float payload =
      .ok { frame with
        samples := frame.samples.map fun sample =>
          decodeSample float bitDepth (encodeSample float bitDepth sample) } := by
  obtain ⟨⟨hpos, hmax⟩, hdiv, rfl⟩ := (toPayload_ok_iff float frame bitDepth payload).mp h
  obtain ⟨hcount, hdepth⟩ := header_of_encode hpos hmax bitDepth
  have hwidth := sampleWidth_eq (RawFrameHeader.encode { channels := frame.channels, bitDepth })
  rw [hdepth] at hwidth
  rw [fromPayload_cons_ok_iff, ← hwidth, hcount, hdepth, asChunks_encodeSamples,
    encodeSamples_length, Nat.mul_div_cancel _ (bytesPerSample_pos bitDepth), List.map_map,
    UInt8.ofNat_toNat]
  exact ⟨Nat.mul_mod_left _ _, hdiv, rfl⟩

/-- The format of raw payloads. -/
structure PayloadFormat : Prop where
  /-- What decodes: a header, whole samples, and as many of them for each channel. -/
  accepted : ∀ payload, (∃ frame, RawAudioBits.fromPayload float payload = .ok frame) ↔
    ∃ header bytes, payload = header :: bytes ∧ bytes.length % sampleWidth header = 0 ∧
      bytes.length / sampleWidth header % channelCount header = 0
  /-- A payload of 32-bit samples is encoded again. -/
  payload_float32 : ∀ header bytes frame, depthOf header = .float32 →
    RawAudioBits.fromPayload float (header :: bytes) = .ok frame →
      frame.toPayload float .float32 = .ok (header :: bytes)
  /-- A frame in 32-bit samples is decoded again. -/
  frame_float32 : ∀ frame payload, frame.toPayload float .float32 = .ok payload →
    RawAudioBits.fromPayload float payload = .ok frame
  /-- A frame with a valid shape has a payload at each depth. -/
  encoded : ∀ (frame : RawAudioBits) (bitDepth : RawBitDepth),
    1 ≤ frame.channels.toNat → frame.channels.toNat ≤ 64 →
    frame.samples.length % frame.channels.toNat = 0 →
    ∃ payload decoded, frame.toPayload float bitDepth = .ok payload ∧
      payload.length = 1 + frame.samples.length * bitDepth.bytesPerSample ∧
      RawAudioBits.fromPayload float payload = .ok decoded ∧
      decoded.channels = frame.channels ∧ decoded.samples.length = frame.samples.length

theorem payload_accepted (payload : List UInt8) :
    (∃ frame, RawAudioBits.fromPayload float payload = .ok frame) ↔
      ∃ header bytes, payload = header :: bytes ∧ bytes.length % sampleWidth header = 0 ∧
        bytes.length / sampleWidth header % channelCount header = 0 := by
  cases payload with
  | nil =>
    refine ⟨fun ⟨frame, h⟩ => ?_, fun ⟨header, bytes, h, _⟩ => ?_⟩
    · cases h
    · cases h
  | cons header bytes =>
    constructor
    · rintro ⟨frame, h⟩
      obtain ⟨halign, hdiv, -⟩ := (fromPayload_cons_ok_iff float header bytes frame).mp h
      exact ⟨header, bytes, rfl, halign, hdiv⟩
    · rintro ⟨_, _, hpayload, halign, hdiv⟩
      cases hpayload
      exact ⟨_, (fromPayload_cons_ok_iff float header bytes _).mpr ⟨halign, hdiv, rfl⟩⟩

theorem payload_of_float32 {header : UInt8} {bytes : List UInt8} {frame : RawAudioBits}
    (hdepth : depthOf header = .float32)
    (h : RawAudioBits.fromPayload float (header :: bytes) = .ok frame) :
    frame.toPayload float .float32 = .ok (header :: bytes) := by
  obtain ⟨halign, hdiv, rfl⟩ := (fromPayload_cons_ok_iff float header bytes frame).mp h
  obtain ⟨hcount, hpos, hmax⟩ := channelCount_bounds header
  have hwidth : sampleWidth header = 4 := by
    rw [← sampleWidth_eq, hdepth]
    rfl
  rw [hwidth] at halign hdiv
  have hencode := encode_eq header
  rw [hdepth] at hencode
  rw [toPayload_ok_iff]
  simp only [hwidth, hdepth, hencode, hcount, List.length_map, (asChunks_spec halign).1,
    encodeSamples_float32 float halign]
  exact ⟨⟨hpos, hmax⟩, hdiv, trivial⟩

theorem frame_of_float32 {frame : RawAudioBits} {payload : List UInt8}
    (h : frame.toPayload float .float32 = .ok payload) :
    RawAudioBits.fromPayload float payload = .ok frame := by
  rw [fromPayload_encoded float h]
  simp only [decodeSample_float32, List.map_id']

/-- **The format of raw payloads**, for any float conversions. -/
theorem payload_format : PayloadFormat float where
  accepted := payload_accepted float
  payload_float32 _ _ _ hdepth h := payload_of_float32 float hdepth h
  frame_float32 _ _ h := frame_of_float32 float h
  encoded frame bitDepth hpos hmax hdiv := by
    have hzero : frame.channels ≠ 0 := by
      intro hzero
      rw [hzero] at hpos
      cases hpos
    have hpayload := (toPayload_ok_iff float frame bitDepth _).mpr
      ⟨⟨hzero, UInt8.le_iff_toNat_le.mpr hmax⟩, hdiv, rfl⟩
    refine ⟨_, _, hpayload, ?_, fromPayload_encoded float hpayload, rfl, List.length_map _⟩
    rw [List.length_cons, encodeSamples_length, Nat.add_comm]

end

end Lxst
