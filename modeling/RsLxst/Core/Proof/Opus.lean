import RsLxst.Core.Opus
import RsLxst.Core.Proof.OpusPacket

/-!
# Multi-subframe packets

`multi_subframe_carries`: what `encode_multi_subframe_packet` merges keeps to the profile's budget,
and `decode_frame` hands the library's decoder the packets that the library's encoder returned
exactly when these carry one TOC byte; the merged packet has only the first one's
(`second_subpacket_relabelled`). The library's two types are seen through `recording`, which writes
down what passes and changes nothing else (`encodeFrame_erases`, `decodeFrame_erases`). The parts:

* `new_encoder`, `new_decoder`: the profiles with several subframes have three and at most 240
  bytes, so every length takes one byte;
* `encodeSubframes_recorded`, `mergeSubpackets_ok`, `encodeMultiSubframePacket_merged`: the packet;
* `parseCode3SubframePayloads_ok`, `decodeSubframes_presents`, `decodeFrame_presents`: what the
  decoder is given.
-/

set_option autoImplicit false

namespace Lxst

namespace Opus

open Checked OpusFraming
open Parsing (Each)

variable {host : Host}

/-! ## Profiles with more than one subframe -/

theorem scaleSampleFrames_ok {sampleFrames n : Nat} {source encode : UInt32}
    (h : scaleSampleFrames host sampleFrames source encode = .ok n) :
    n = sampleFrames * encode.toNat / source.toNat := by
  obtain ⟨numerator, hmul, h⟩ := bind_ok_iff.1 h
  obtain ⟨-, rfl⟩ := checkedMul_eq_some_iff.1 (okOr_ok_iff.1 hmul)
  dsimp only at h
  split at h
  · cases h
  · rw [div] at h
    split at h
    · cases h
    · exact (Except.ok.inj h).symm

/-- The profiles whose packets hold several subframes. -/
def IsQuality (profile : Profile) : Prop :=
  profile = .qualityMedium ∨ profile = .qualityHigh ∨ profile = .qualityMax

theorem encoder_layout {profile : Profile} {opusProfile : OpusProfile} {layout : PacketLayout}
    (hcodec : profile.audioCodec = .opus opusProfile)
    (h : PacketLayout.new (encodeSampleRate opusProfile)
      (profile.sampleFramesPerPacket * (encodeSampleRate opusProfile).toNat /
        opusProfile.sampleRate.toNat) = .ok layout)
    (hmany : 1 < layout.subframeCount) :
    IsQuality profile ∧ layout.subframeCount = 3 ∧
      4 ≤ opusProfile.maxBytesPerFrameMs profile.frameTimeMs ∧
      opusProfile.maxBytesPerFrameMs profile.frameTimeMs ≤ 240 := by
  cases profile with
  | bandwidthUltraLow | bandwidthVeryLow | bandwidthLow => cases hcodec
  | qualityMedium =>
    cases hcodec
    obtain rfl : layout = ⟨3, 320⟩ := (Except.ok.inj h).symm
    exact ⟨.inl rfl, rfl, by decide, by decide⟩
  | qualityHigh =>
    cases hcodec
    obtain rfl : layout = ⟨3, 960⟩ := (Except.ok.inj h).symm
    exact ⟨.inr (.inl rfl), rfl, by decide, by decide⟩
  | qualityMax =>
    cases hcodec
    obtain rfl : layout = ⟨3, 960⟩ := (Except.ok.inj h).symm
    exact ⟨.inr (.inr rfl), rfl, by decide, by decide⟩
  | latencyUltraLow =>
    cases hcodec
    obtain rfl : layout = ⟨1, 160⟩ := (Except.ok.inj h).symm
    exact absurd hmany (by decide)
  | latencyLow =>
    cases hcodec
    obtain rfl : layout = ⟨1, 320⟩ := (Except.ok.inj h).symm
    exact absurd hmany (by decide)

theorem new_encoder {E : OpusEncoder} {profile : Profile} {self : OpusEncoderState E}
    (h : OpusEncoderState.new host E profile = .ok self) (hmany : 1 < self.subframeCount) :
    IsQuality profile ∧ self.subframeCount = 3 ∧
      4 ≤ self.maxPayloadBytes ∧ self.maxPayloadBytes ≤ 240 := by
  rw [OpusEncoderState.new] at h
  split at h
  · cases h
  · next opusProfile hcodec =>
    obtain ⟨encodeSampleFrames, hscale, h⟩ := bind_ok_iff.1 h
    obtain ⟨layout, hlayout, h⟩ := bind_ok_iff.1 h
    obtain ⟨frames, -, h⟩ := bind_ok_iff.1 h
    obtain ⟨encoder, -, h⟩ := bind_ok_iff.1 h
    obtain rfl := scaleSampleFrames_ok hscale
    cases h
    exact encoder_layout hcodec hlayout hmany

/-- What a decoder of such a profile needs to cut its samples into three. -/
structure ThreeSubframes {D : OpusDecoder} (state : OpusDecoderState D) : Prop where
  count : state.subframeCount = 3
  frames : state.sampleFrames = 3 * state.subframeSampleFrames
  framesMax : state.subframeSampleFrames ≤ 960
  channelsMax : state.channels.toNat ≤ 2

theorem decoder_layout {profile : Profile} {opusProfile : OpusProfile} {layout : PacketLayout}
    (hprofile : IsQuality profile) (hcodec : profile.audioCodec = .opus opusProfile)
    (h : PacketLayout.new opusProfile.sampleRate profile.sampleFramesPerPacket = .ok layout) :
    layout.subframeCount = 3 ∧ profile.sampleFramesPerPacket = 3 * layout.subframeSampleFrames ∧
      layout.subframeSampleFrames ≤ 960 ∧ opusProfile.channels.toNat ≤ 2 := by
  rcases hprofile with rfl | rfl | rfl
  · cases hcodec
    obtain rfl : layout = ⟨3, 480⟩ := (Except.ok.inj h).symm
    exact ⟨rfl, rfl, by decide, by decide⟩
  · cases hcodec
    obtain rfl : layout = ⟨3, 960⟩ := (Except.ok.inj h).symm
    exact ⟨rfl, rfl, by decide, by decide⟩
  · cases hcodec
    obtain rfl : layout = ⟨3, 960⟩ := (Except.ok.inj h).symm
    exact ⟨rfl, rfl, by decide, by decide⟩

theorem new_decoder {D : OpusDecoder} {profile : Profile} {self : OpusDecoderState D}
    (hprofile : IsQuality profile) (h : OpusDecoderState.new D profile = .ok self) :
    ThreeSubframes self := by
  rw [OpusDecoderState.new] at h
  split at h
  · cases h
  · next opusProfile hcodec =>
    obtain ⟨layout, hlayout, h⟩ := bind_ok_iff.1 h
    obtain ⟨decoder, -, h⟩ := bind_ok_iff.1 h
    cases h
    obtain ⟨hcount, hframes, hmax, hchannels⟩ := decoder_layout hprofile hcodec hlayout
    exact ⟨hcount, hframes, hmax, hchannels⟩

/-! ## What passes between the codec states and the library -/

/-- An encoder that writes down the packets it returns. -/
def OpusEncoder.recording (E : OpusEncoder) : OpusEncoder where
  State := E.State × List (List UInt8)
  new rate channels application := (E.new rate channels application).map (·, [])
  setBitrateBps bps s := (E.setBitrateBps bps s.1, s.2)
  setUseCbr cbr s := (E.setUseCbr cbr s.1, s.2)
  encode s input frameSize output :=
    let r := E.encode s.1 input frameSize output
    (r.1, r.2.1, r.2.2, match r.1 with
      | .ok written => s.2 ++ [r.2.1.take written]
      | .error _ => s.2)
  encode_length s := E.encode_length s.1

/-- A decoder that writes down the packets it is given, and whether it took them. -/
def OpusDecoder.recording (D : OpusDecoder) : OpusDecoder where
  State := D.State × List (List UInt8 × Bool)
  new rate channels := (D.new rate channels).map (·, [])
  decode s input frameSize output :=
    let r := D.decode s.1 input frameSize output
    (r.1, r.2.1, r.2.2, s.2 ++ [(input, r.1.isOk)])
  decode_length s := D.decode_length s.1

/-- With the library's encoder in any state, and nothing written down. -/
def OpusEncoderState.startAt {E : OpusEncoder} (self : OpusEncoderState E.recording)
    (e : E.State) : OpusEncoderState E.recording :=
  { self with encoder := (e, []) }

/-- With the library's decoder in any state, and nothing written down. -/
def OpusDecoderState.startAt {D : OpusDecoder} (self : OpusDecoderState D.recording)
    (d : D.State) : OpusDecoderState D.recording :=
  { self with decoder := (d, []) }

/-- The packets the library's encoder returned. -/
def OpusEncoderState.returned {E : OpusEncoder} (self : OpusEncoderState E.recording) :
    List (List UInt8) :=
  self.encoder.2

/-- The packets the library's decoder was given, and whether it took them. -/
def OpusDecoderState.given {D : OpusDecoder} (self : OpusDecoderState D.recording) :
    List (List UInt8 × Bool) :=
  self.decoder.2

/-! ### Recording changes nothing -/

def OpusEncoderState.erase {E : OpusEncoder} (self : OpusEncoderState E.recording) :
    OpusEncoderState E where
  profile := self.profile
  channels := self.channels
  sampleFrames := self.sampleFrames
  subframeCount := self.subframeCount
  subframeSampleFrames := self.subframeSampleFrames
  encodeSampleFrames := self.encodeSampleFrames
  encodeSubframeSampleFrames := self.encodeSubframeSampleFrames
  maxPayloadBytes := self.maxPayloadBytes
  encoder := self.encoder.1

def OpusDecoderState.erase {D : OpusDecoder} (self : OpusDecoderState D.recording) :
    OpusDecoderState D where
  profile := self.profile
  channels := self.channels
  sampleFrames := self.sampleFrames
  subframeCount := self.subframeCount
  subframeSampleFrames := self.subframeSampleFrames
  decoder := self.decoder.1

theorem new_encoder_erases (host : Host) (E : OpusEncoder) (profile : Profile) :
    (OpusEncoderState.new host E.recording profile).map OpusEncoderState.erase =
      OpusEncoderState.new host E profile := by
  rw [OpusEncoderState.new, OpusEncoderState.new]
  cases profile.audioCodec with
  | codec2 mode => rfl
  | opus opusProfile =>
    dsimp only
    rw [map_bind]
    refine bind_congr fun encodeSampleFrames => ?_
    rw [map_bind]
    refine bind_congr fun layout => ?_
    rw [map_bind]
    refine bind_congr fun frames => ?_
    show Except.map _ (codecResult ((E.new _ _ _).map _) >>= _) = (codecResult (E.new _ _ _) >>= _)
    cases E.new (encodeSampleRate opusProfile).toInt32 opusProfile.channels.toNat
      opusProfile.application with
    | error err => rfl
    | ok state => rfl

theorem new_decoder_erases (D : OpusDecoder) (profile : Profile) :
    (OpusDecoderState.new D.recording profile).map OpusDecoderState.erase =
      OpusDecoderState.new D profile := by
  rw [OpusDecoderState.new, OpusDecoderState.new]
  cases profile.audioCodec with
  | codec2 mode => rfl
  | opus opusProfile =>
    dsimp only
    rw [map_bind]
    refine bind_congr fun layout => ?_
    show Except.map _ (codecResult ((D.new _ _).map _) >>= _) = (codecResult (D.new _ _) >>= _)
    cases D.new opusProfile.sampleRate.toInt32 opusProfile.channels.toNat with
    | error err => rfl
    | ok state => rfl

theorem callEncoder_erases (E : OpusEncoder) (input : List Float32) (frameSize : Nat)
    (output : List UInt8) :
    Erases (OpusEncoderState.erase (E := E)) (OpusEncoderState.callEncoder input frameSize output)
      (OpusEncoderState.callEncoder input frameSize output) :=
  erases_get fun _ => erases_set ((erases_lift _).bind fun _ => erases_pure _)

theorem encodeSubframes_erases (host : Host) (E : OpusEncoder) (frame : RawAudioFrame) (i : Nat)
    (budgets : List Nat) :
    Erases (OpusEncoderState.erase (E := E)) (OpusEncoderState.encodeSubframes host frame i budgets)
      (OpusEncoderState.encodeSubframes host frame i budgets) := by
  induction budgets generalizing i with
  | nil => exact erases_pure _
  | cons budget budgets ih =>
    refine erases_get fun self => (erases_lift _).bind fun input => (erases_lift _).bind
      fun capacity => (callEncoder_erases E input _ _).bind fun encoded => ?_
    exact (erases_throw _).ite ((ih (i + 1)).bind fun _ => erases_pure _)

theorem encodeMultiSubframePacket_erases (host : Host) (E : OpusEncoder) (frame : RawAudioFrame) :
    Erases (OpusEncoderState.erase (E := E))
      (OpusEncoderState.encodeMultiSubframePacket host frame)
      (OpusEncoderState.encodeMultiSubframePacket host frame) :=
  erases_get fun _ => (erases_lift _).bind fun _ =>
    (encodeSubframes_erases host E frame 0 _).bind fun _ =>
    (erases_lift _).bind fun _ => erases_pure _

theorem encodeFrame_erases (host : Host) (E : OpusEncoder) (frame : RawAudioFrame) :
    Erases (OpusEncoderState.erase (E := E)) (OpusEncoderState.encodeFrame host frame)
      (OpusEncoderState.encodeFrame host frame) := by
  refine erases_get fun _ => (erases_lift _).bind fun _ => Erases.ite ?_ ?_
  · exact encodeMultiSubframePacket_erases host E frame
  · exact (erases_lift _).bind fun _ => (callEncoder_erases E _ _ _).bind fun _ => erases_pure _

theorem callDecoder_erases (D : OpusDecoder) (input : List UInt8) (frameSize : Nat)
    (output : List Float32) :
    Erases (OpusDecoderState.erase (D := D)) (OpusDecoderState.callDecoder input frameSize output)
      (OpusDecoderState.callDecoder input frameSize output) :=
  erases_get fun _ => erases_set ((erases_lift _).bind fun _ => erases_pure _)

theorem decodeSubframes_erases (host : Host) (D : OpusDecoder) (toc : UInt8) (i : Nat)
    (payloads : List (List UInt8)) (samples : List Float32) :
    Erases (OpusDecoderState.erase (D := D))
      (OpusDecoderState.decodeSubframes host toc i payloads samples)
      (OpusDecoderState.decodeSubframes host toc i payloads samples) := by
  induction payloads generalizing i samples with
  | nil => exact erases_pure _
  | cons payload payloads ih =>
    exact erases_get fun self => (erases_lift _).bind fun range => (erases_lift _).bind
      fun output => (callDecoder_erases D _ _ output).bind fun _ => ih (i + 1) _

theorem decodeFrame_erases (host : Host) (D : OpusDecoder) (frame : Frame) :
    Erases (OpusDecoderState.erase (D := D)) (OpusDecoderState.decodeFrame host frame)
      (OpusDecoderState.decodeFrame host frame) := by
  refine erases_get fun _ => (erases_throw _).ite (Erases.ite ?_ ?_)
  · exact erases_get fun _ => (erases_lift _).bind fun _ => (erases_lift _).bind fun _ =>
      (erases_lift _).bind fun _ => (decodeSubframes_erases host D _ 0 _ _).bind fun _ =>
      erases_lift _
  · exact erases_get fun _ => (erases_lift _).bind fun _ => (callDecoder_erases D _ _ _).bind
      fun _ => (erases_lift _).bind fun _ => erases_lift _

/-! ## The subpackets -/

theorem codecResult_ok_iff {α : Type} {r : Except String α} {a : α} :
    codecResult r = .ok a ↔ r = .ok a := by
  cases r with
  | error e => exact ⟨nofun, nofun⟩
  | ok b => exact ⟨fun h => by cases h; rfl, fun h => by cases h; rfl⟩

theorem callEncoder_recorded {E : OpusEncoder} {input : List Float32} {frameSize : Nat}
    {output encoded : List UInt8} {self self' : OpusEncoderState E.recording}
    (h : OpusEncoderState.callEncoder input frameSize output self = .ok encoded self') :
    encoded.length ≤ output.length ∧
      ∃ e, self' = { self with encoder := (e, self.encoder.2 ++ [encoded]) } := by
  obtain ⟨_, _, hget, h⟩ := run_bind_ok_iff.1 h
  cases hget
  obtain ⟨_, _, hset, h⟩ := run_bind_ok_iff.1 h
  cases hset
  obtain ⟨written, _, hlift, h⟩ := run_bind_ok_iff.1 h
  obtain ⟨hcodec, rfl⟩ := lift_ok_iff.1 hlift
  have hresult : (E.encode self.encoder.1 input frameSize output).1 = .ok written :=
    codecResult_ok_iff.1 hcodec
  have hlog : (E.recording.encode self.encoder input frameSize output).2.2 =
      ((E.encode self.encoder.1 input frameSize output).2.2,
        self.encoder.2 ++ [(E.encode self.encoder.1 input frameSize output).2.1.take written]) := by
    simp only [OpusEncoder.recording, hresult]
  cases h
  refine ⟨?_, (E.encode self.encoder.1 input frameSize output).2.2, ?_⟩
  · rw [← E.encode_length self.encoder.1 input frameSize output]
    exact List.length_take_le' _ _
  · show { self with encoder := (E.recording.encode self.encoder input frameSize output).2.2 } = _
    rw [hlog]
    rfl

/-- A code 0 packet whose frame keeps to the budget. -/
def Fits (budget : Nat) (subpacket : List UInt8) : Prop :=
  ∃ toc body, subpacket = toc :: body ∧ toc &&& 0x03 = 0 ∧ body.length ≤ budget

theorem encodeSubframes_recorded {E : OpusEncoder} {frame : RawAudioFrame} {i : Nat}
    {budgets : List Nat} {subpackets : List (List UInt8)}
    {self self' : OpusEncoderState E.recording}
    (h : OpusEncoderState.encodeSubframes host frame i budgets self = .ok subpackets self') :
    List.Forall₂ Fits budgets subpackets ∧
      ∃ e, self' = { self with encoder := (e, self.encoder.2 ++ subpackets) } := by
  induction budgets generalizing i subpackets self self' with
  | nil =>
    obtain ⟨rfl, rfl⟩ : [] = subpackets ∧ self = self' := by
      cases h
      exact ⟨rfl, rfl⟩
    refine ⟨.nil, self.encoder.1, ?_⟩
    rw [List.append_nil]
    rfl
  | cons budget budgets ih =>
    obtain ⟨_, _, hget, h⟩ := run_bind_ok_iff.1 h
    cases hget
    obtain ⟨input, _, hlift, h⟩ := run_bind_ok_iff.1 h
    obtain ⟨-, rfl⟩ := lift_ok_iff.1 hlift
    obtain ⟨capacity, _, hlift, h⟩ := run_bind_ok_iff.1 h
    obtain ⟨hcapacity, rfl⟩ := lift_ok_iff.1 hlift
    obtain ⟨-, rfl⟩ := add_ok_iff.1 hcapacity
    obtain ⟨encoded, _, hcall, h⟩ := run_bind_ok_iff.1 h
    obtain ⟨hlen, e, rfl⟩ := callEncoder_recorded hcall
    split at h
    · cases h
    · next hcode =>
      obtain ⟨rest, _, hrest, h⟩ := run_bind_ok_iff.1 h
      obtain ⟨hfits, e', rfl⟩ := ih hrest
      cases h
      refine ⟨.cons ?_ hfits, e', ?_⟩
      · cases encoded with
        | nil => exact absurd rfl hcode
        | cons toc body =>
          rw [List.length_replicate, List.length_cons] at hlen
          exact ⟨toc, body, rfl, by simpa using hcode, by omega⟩
      · rw [List.append_assoc, List.singleton_append]

/-! ## The merged packet -/

theorem pushSubframePayloadLen_ok {len : Nat} (output : List UInt8) (h : len ≤ 1275) :
    ∃ bytes, LengthCode len bytes ∧ pushSubframePayloadLen output len = .ok (output ++ bytes) ∧
      (len < 252 → bytes.length = 1) := by
  by_cases hshort : len < 252
  · have hlen : (UInt8.ofNat len).toNat = len := Nat.mod_eq_of_lt (by omega)
    refine ⟨[UInt8.ofNat len], ?_, if_pos hshort, fun _ => rfl⟩
    have := LengthCode.one (UInt8.ofNat len) (by omega)
    rwa [hlen] at this
  · have hfirst : (UInt8.ofNat (252 + len % 4)).toNat = 252 + len % 4 :=
      Nat.mod_eq_of_lt (by omega)
    have hsecond : (UInt8.ofNat ((len - (252 + len % 4)) / 4)).toNat =
        (len - (252 + len % 4)) / 4 := Nat.mod_eq_of_lt (by omega)
    refine ⟨[UInt8.ofNat (252 + len % 4), UInt8.ofNat ((len - (252 + len % 4)) / 4)], ?_, ?_,
      fun hlt => absurd hlt hshort⟩
    · have hcode := LengthCode.two (UInt8.ofNat (252 + len % 4))
        (UInt8.ofNat ((len - (252 + len % 4)) / 4)) (by omega)
      have hlen : 252 + len % 4 + 4 * ((len - (252 + len % 4)) / 4) = len := by omega
      rwa [hfirst, hsecond, hlen] at hcode
    · rw [pushSubframePayloadLen, if_neg hshort, if_pos h]
      exact bind_of_ok (sub_ok (by omega))

/-- The payloads of the subpackets, without their TOC bytes. -/
def bodies (subpackets : List (List UInt8)) : List (List UInt8) := subpackets.map List.tail

theorem foldlM_pushLen {subpackets : List (List UInt8)} (payload : List UInt8)
    (h : ∀ s ∈ subpackets, Fits 251 s) :
    ∃ codes, Each LengthCode ((bodies subpackets).map List.length) codes ∧
      subpackets.foldlM OpusEncoderState.pushLen payload = .ok (payload ++ codes) ∧
      codes.length = subpackets.length := by
  induction subpackets generalizing payload with
  | nil => exact ⟨[], .nil, by rw [List.append_nil]; rfl, rfl⟩
  | cons s rest ih =>
    obtain ⟨⟨toc, body, rfl, -, hlen⟩, hrest⟩ := List.forall_mem_cons.mp h
    obtain ⟨bytes, hcode, hpush, hone⟩ := pushSubframePayloadLen_ok payload
      (show body.length ≤ 1275 by omega)
    obtain ⟨codes, heach, hfold, hcodes⟩ := ih (payload ++ bytes) hrest
    refine ⟨bytes ++ codes, .cons hcode heach, ?_, ?_⟩
    · have hstep : OpusEncoderState.pushLen payload (toc :: body) = .ok (payload ++ bytes) := by
        exact (bind_of_ok (sub_ok (Nat.le_add_left 1 body.length))).trans hpush
      rw [List.foldlM_cons, bind_of_ok hstep, ← List.append_assoc]
      exact hfold
    · rw [List.length_append, hone (by omega), hcodes, List.length_cons, Nat.add_comm]

theorem foldlM_pushBody {subpackets : List (List UInt8)} (payload : List UInt8)
    (h : ∀ s ∈ subpackets, Fits 251 s) :
    subpackets.foldlM OpusEncoderState.pushBody payload =
      .ok (payload ++ (bodies subpackets).flatten) := by
  induction subpackets generalizing payload with
  | nil =>
    rw [bodies, List.map_nil, List.flatten_nil, List.append_nil]
    rfl
  | cons s rest ih =>
    obtain ⟨⟨toc, body, rfl, -, -⟩, hrest⟩ := List.forall_mem_cons.mp h
    have hstep : OpusEncoderState.pushBody payload (toc :: body) = .ok (payload ++ body) := by
      exact bind_of_ok (slice_from_ok (Nat.le_add_left 1 body.length))
    rw [List.foldlM_cons, bind_of_ok hstep, ih _ hrest, bodies, bodies, List.map_cons,
      List.tail_cons, List.flatten_cons, List.append_assoc]

theorem mergeSubpackets_ok {E : OpusEncoder} {self : OpusEncoderState E}
    {subpackets : List (List UInt8)} {toc : UInt8} {body : List UInt8}
    (hcount : self.subframeCount = subpackets.length) (hfirst : subpackets[0]? = some (toc :: body))
    (h : ∀ s ∈ subpackets, Fits 251 s) :
    ∃ codes, Each LengthCode ((bodies subpackets).dropLast.map List.length) codes ∧
      OpusEncoderState.mergeSubpackets self subpackets =
        .ok (((toc &&& ~~~0x03) ||| 0x03) :: (0x80 ||| UInt8.ofNat self.subframeCount) ::
          (codes ++ (bodies subpackets).flatten)) ∧
      codes.length + 1 = subpackets.length := by
  have hpos : 0 < subpackets.length := (List.getElem?_eq_some_iff.1 hfirst).1
  obtain ⟨codes, heach, hfold, hcodes⟩ := foldlM_pushLen
    [(toc &&& ~~~0x03) ||| 0x03, 0x80 ||| UInt8.ofNat self.subframeCount]
    (fun s hs => h s (List.mem_of_mem_take (i := self.subframeCount - 1) hs))
  refine ⟨codes, ?_, ?_, ?_⟩
  · have hlast : bodies (subpackets.take (self.subframeCount - 1)) =
        (bodies subpackets).dropLast := by
      rw [bodies, bodies, List.map_take, List.dropLast_eq_take, List.length_map, hcount]
    rwa [hlast] at heach
  · rw [OpusEncoderState.mergeSubpackets, bind_of_ok (index_ok hfirst),
      bind_of_ok (index_ok (x := toc) rfl)]
    dsimp only
    rw [bind_of_ok (sub_ok (by omega)), bind_of_ok hfold]
    exact foldlM_pushBody _ h
  · rw [hcodes, List.length_take_of_le (by omega)]
    omega

/-! ## What the decoder is given -/

theorem parseCode3SubframePayloads_ok {toc count : UInt8} {codes : List UInt8}
    {frames : List (List UInt8)}
    (hlen : (toc :: count :: (codes ++ frames.flatten)).length ≤ host.usizeMax)
    (hcount : (count &&& 0x3F).toNat = frames.length) (hpos : 0 < frames.length)
    (hmax : frames.length ≤ 48) (hvbr : count &&& 0x80 ≠ 0) (hpad : count &&& 0x40 = 0)
    (heach : Each LengthCode (frames.dropLast.map List.length) codes) :
    parseCode3SubframePayloads host (toc :: count :: (codes ++ frames.flatten)) frames.length =
      .ok frames := by
  have hbounds : ∀ grow exceedsPacket exceedsPayload,
      paddedPayload host grow exceedsPacket exceedsPayload
        (toc :: count :: (codes ++ frames.flatten)) count =
        .ok (2, (toc :: count :: (codes ++ frames.flatten)).length) :=
    fun _ _ _ => if_neg (not_not_intro hpad)
  have hpacket : toc :: count :: (codes ++ frames.flatten) =
      [toc, count] ++ (codes ++ frames.flatten) ++ [] := by simp
  rw [parseCode3SubframePayloads, if_neg (by simp), bind_of_ok (index_ok (x := count) rfl)]
  dsimp only
  rw [if_neg (not_not_intro hcount), if_neg (by omega), bind_of_ok (hbounds _ _ _)]
  dsimp only
  rw [if_pos hvbr, hcount, hpacket]
  rw [hpacket] at hlen
  exact ((vbrFrames_yields hlen rfl (by simp; omega) hpos hmax).ok_iff frames).2
    ⟨rfl, codes, heach, rfl⟩

/-- The calls hand over the packets in order, all of them unless one is refused. -/
def Presents (packets : List (List UInt8)) (calls : List (List UInt8 × Bool)) : Prop :=
  calls.map Prod.fst <+: packets ∧
    ((∀ call ∈ calls, call.2 = true) → calls.map Prod.fst = packets)

theorem presents_nil : Presents [] [] := ⟨List.prefix_refl [], fun _ => rfl⟩

theorem Presents.accepted {packets : List (List UInt8)} {calls : List (List UInt8 × Bool)}
    (h : Presents packets calls) (p : List UInt8) :
    Presents (p :: packets) ((p, true) :: calls) := by
  refine ⟨List.cons_prefix_cons.2 ⟨rfl, h.1⟩, fun hall => ?_⟩
  rw [List.map_cons, h.2 fun call hcall => hall call (List.mem_cons_of_mem _ hcall)]

theorem presents_refused (p : List UInt8) (packets : List (List UInt8)) :
    Presents (p :: packets) [(p, false)] :=
  ⟨⟨packets, rfl⟩, fun hall => nomatch hall (p, false) List.mem_cons_self⟩

theorem callDecoder_ok {D : OpusDecoder} (self : OpusDecoderState D) {input : List UInt8}
    {frameSize decoded : Nat} {output : List Float32}
    (h : (D.decode self.decoder input frameSize output).1 = .ok decoded) :
    OpusDecoderState.callDecoder input frameSize output self =
      .ok (decoded, (D.decode self.decoder input frameSize output).2.1)
        { self with decoder := (D.decode self.decoder input frameSize output).2.2 } := by
  rw [OpusDecoderState.callDecoder, run_get]
  dsimp only
  rw [run_set, run_bind_of_ok (lift_of_ok _ (codecResult_ok_iff.2 h))]
  rfl

theorem callDecoder_error {D : OpusDecoder} (self : OpusDecoderState D) {input : List UInt8}
    {frameSize : Nat} {err : String} {output : List Float32}
    (h : (D.decode self.decoder input frameSize output).1 = .error err) :
    OpusDecoderState.callDecoder input frameSize output self =
      .error (.error (.codec err))
        { self with decoder := (D.decode self.decoder input frameSize output).2.2 } := by
  rw [OpusDecoderState.callDecoder, run_get]
  dsimp only
  rw [run_set, h]
  rfl

/-- In some state the decoder takes the packet, or refuses it. -/
def Answers (D : OpusDecoder) (call : List UInt8 × Bool) : Prop :=
  ∃ d frameSize output, (D.decode d call.1 frameSize output).1.isOk = call.2

theorem callDecoder_recorded {D : OpusDecoder} (input : List UInt8) (frameSize : Nat)
    (output : List Float32) (self : OpusDecoderState D.recording) :
    ∃ d, (Answers D (input, true) ∧ ∃ r, OpusDecoderState.callDecoder input frameSize output self =
        .ok r { self with decoder := (d, self.decoder.2 ++ [(input, true)]) } ∧
        r.2.length = output.length) ∨
      Answers D (input, false) ∧ ∃ e, OpusDecoderState.callDecoder input frameSize output self =
        .error e { self with decoder := (d, self.decoder.2 ++ [(input, false)]) } := by
  have hlog : (D.recording.decode self.decoder input frameSize output).2.2 =
      ((D.decode self.decoder.1 input frameSize output).2.2,
        self.decoder.2 ++ [(input, (D.decode self.decoder.1 input frameSize output).1.isOk)]) := rfl
  refine ⟨(D.decode self.decoder.1 input frameSize output).2.2, ?_⟩
  cases hresult : (D.decode self.decoder.1 input frameSize output).1 with
  | error err =>
    have hcall := callDecoder_error self hresult
    rw [hlog, hresult] at hcall
    exact .inr ⟨⟨self.decoder.1, frameSize, output, by rw [hresult]; rfl⟩, _, hcall⟩
  | ok decoded =>
    have hcall := callDecoder_ok self hresult
    rw [hlog, hresult] at hcall
    exact .inl ⟨⟨self.decoder.1, frameSize, output, by rw [hresult]; rfl⟩, _, hcall,
      D.decode_length self.decoder.1 input frameSize output⟩

theorem subframeRange_ok (host : Host) (i n channels : Nat)
    (h : i * n * channels + n * channels ≤ host.usizeMax) (hi : i * n ≤ host.usizeMax) :
    subframeRange host i n channels =
      .ok (i * n * channels, i * n * channels + n * channels) := by
  rw [subframeRange, bind_of_ok (mul_ok hi), bind_of_ok (mul_ok (by omega)),
    bind_of_ok (mul_ok (by omega)), bind_of_ok (add_ok h)]
  rfl

theorem decodeSubframes_presents {D : OpusDecoder} {toc : UInt8} {i : Nat}
    {payloads : List (List UInt8)} {samples : List Float32} {self : OpusDecoderState D.recording}
    (hself : ThreeSubframes self) (hi : i + payloads.length ≤ 3)
    (hsamples : samples.length = self.sampleFrames * self.channels.toNat) :
    ∃ calls, (endState
        (OpusDecoderState.decodeSubframes host toc i payloads samples self)).decoder.2 =
        self.decoder.2 ++ calls ∧ Presents (payloads.map (toc :: ·)) calls ∧
        ∀ call ∈ calls, Answers D call := by
  induction payloads generalizing i samples self with
  | nil => exact ⟨[], (List.append_nil _).symm, presents_nil, nofun⟩
  | cons payload payloads ih =>
    obtain ⟨-, hframes, hframesMax, hchannels⟩ := id hself
    rw [List.length_cons] at hi
    have hword := host.thirtyTwoBits
    have hrow : i * self.subframeSampleFrames ≤ 2 * self.subframeSampleFrames :=
      Nat.mul_le_mul_right _ (by omega)
    have hstart : i * self.subframeSampleFrames * self.channels.toNat ≤
        2 * self.subframeSampleFrames * self.channels.toNat := Nat.mul_le_mul_right _ hrow
    have hlen : self.subframeSampleFrames * self.channels.toNat ≤ 960 * 2 :=
      Nat.mul_le_mul hframesMax hchannels
    have hstop : i * self.subframeSampleFrames * self.channels.toNat +
        self.subframeSampleFrames * self.channels.toNat ≤ samples.length := by
      rw [hsamples, hframes, Nat.mul_assoc 3]
      rw [Nat.mul_assoc 2] at hstart
      omega
    have hmax : samples.length ≤ 3 * (960 * 2) := by
      rw [hsamples, hframes, Nat.mul_assoc]
      exact Nat.mul_le_mul_left 3 hlen
    have hrange := subframeRange_ok host i self.subframeSampleFrames self.channels.toNat
      (by omega) (by omega)
    rw [OpusDecoderState.decodeSubframes, run_get, run_bind_of_ok (lift_of_ok self hrange)]
    dsimp only
    rw [run_bind_of_ok (lift_of_ok self (slice_ok (Nat.le_add_right _ _) hstop))]
    generalize hstartEq : i * self.subframeSampleFrames * self.channels.toNat = start at *
    generalize hlenEq : self.subframeSampleFrames * self.channels.toNat = len at *
    obtain ⟨d, ⟨htook, r, hcall, hr⟩ | ⟨hrefused, e, hcall⟩⟩ :=
      callDecoder_recorded (toc :: payload) self.subframeSampleFrames
        ((samples.take (start + len)).drop start) self
    · rw [run_bind_of_ok hcall]
      have hnext : ThreeSubframes (D := D.recording)
          { self with decoder := (d, self.decoder.2 ++ [(toc :: payload, true)]) } :=
        ⟨hself.count, hself.frames, hself.framesMax, hself.channelsMax⟩
      have hfilled : (samples.take start ++ r.2 ++ samples.drop (start + len)).length =
          self.sampleFrames * self.channels.toNat := by
        simp only [List.length_append, List.length_take, List.length_drop, hr]
        omega
      obtain ⟨calls, hlog, hpresents, hanswers⟩ :=
        ih (i := i + 1) hnext (by omega) hfilled
      refine ⟨(toc :: payload, true) :: calls, ?_, hpresents.accepted _,
        List.forall_mem_cons.mpr ⟨htook, hanswers⟩⟩
      rw [hlog, List.append_assoc]
      rfl
    · rw [run_bind_of_error hcall]
      exact ⟨[(toc :: payload, false)], rfl, presents_refused _ _,
        List.forall_mem_singleton.2 hrefused⟩

theorem silence_ok {D : OpusDecoder} {self : OpusDecoderState D} (hself : ThreeSubframes self)
    (host : Host) :
    OpusDecoderState.silence host self =
      .ok (List.replicate (self.sampleFrames * self.channels.toNat) 0) := by
  have hlen : self.sampleFrames * self.channels.toNat ≤ 3 * 960 * 2 := by
    rw [hself.frames]
    exact Nat.mul_le_mul (Nat.mul_le_mul_left 3 hself.framesMax) hself.channelsMax
  have hword := host.thirtyTwoBits
  exact bind_of_ok (mul_ok (by omega))

theorem decodeFrame_presents {D : OpusDecoder} {self : OpusDecoderState D.recording}
    (hself : ThreeSubframes self) {toc : UInt8} {codes : List UInt8} {frames : List (List UInt8)}
    (hlen : (toc :: 0x83 :: (codes ++ frames.flatten)).length ≤ host.usizeMax)
    (hthree : frames.length = 3) (htoc : toc &&& 0x03 = 0x03)
    (heach : Each LengthCode (frames.dropLast.map List.length) codes) :
    ∃ calls, (endState (OpusDecoderState.decodeFrame host
        { codec := .opus, payload := toc :: 0x83 :: (codes ++ frames.flatten) } self)).decoder.2 =
        self.decoder.2 ++ calls ∧ Presents (frames.map ((toc &&& ~~~0x03) :: ·)) calls ∧
        ∀ call ∈ calls, Answers D call := by
  have hparse : parseCode3SubframePayloads host (toc :: 0x83 :: (codes ++ frames.flatten))
      self.subframeCount = .ok frames := by
    rw [hself.count, ← hthree]
    exact parseCode3SubframePayloads_ok hlen (hthree ▸ rfl) (by omega) (by omega) (by decide)
      (by decide) heach
  have hmulti : self.subframeCount > 1 ∧
      (toc :: 0x83 :: (codes ++ frames.flatten)).head?.any (fun toc => toc &&& 0x03 == 0x03) := by
    rw [hself.count]
    exact ⟨by decide, by simp [htoc]⟩
  rw [OpusDecoderState.decodeFrame, run_get, if_neg (not_not_intro rfl), if_pos hmulti,
    OpusDecoderState.decodeMultiSubframePacket, run_get,
    run_bind_of_ok (lift_of_ok self hparse),
    run_bind_of_ok (lift_of_ok self (silence_ok hself host)),
    run_bind_of_ok (lift_of_ok self (index_ok (x := toc) rfl)), endState_bind_lift]
  exact decodeSubframes_presents hself (by omega) (by rw [List.length_replicate])

/-! ## A whole packet -/

theorem Fits.mono {m n : Nat} {subpacket : List UInt8} (h : Fits m subpacket) (hmn : m ≤ n) :
    Fits n subpacket := by
  obtain ⟨toc, body, rfl, hcode, hlen⟩ := h
  exact ⟨toc, body, rfl, hcode, Nat.le_trans hlen hmn⟩

theorem subframePayloadBudgets_three {E : OpusEncoder} {self : OpusEncoderState E}
    {budgets : List Nat} (hcount : self.subframeCount = 3)
    (h : OpusEncoderState.subframePayloadBudgets host self = .ok budgets) :
    ∃ a b c, budgets = [a, b, c] ∧ a + b + c + 4 = self.maxPayloadBytes := by
  rw [OpusEncoderState.subframePayloadBudgets, hcount] at h
  obtain ⟨total, htotal, h⟩ := bind_ok_iff.1 h
  obtain ⟨-, rfl⟩ := add_ok_iff.1 htotal
  obtain ⟨headerBytes, hheader, h⟩ := bind_ok_iff.1 h
  obtain ⟨-, rfl⟩ := sub_ok_iff.1 hheader
  obtain ⟨payloadBudget, hbudget, h⟩ := bind_ok_iff.1 h
  obtain ⟨hmax, hpayload⟩ := checkedSub_eq_some_iff.1 (okOr_ok_iff.1 hbudget)
  obtain ⟨base, hdiv, h⟩ := bind_ok_iff.1 h
  obtain rfl : payloadBudget / 3 = base := Except.ok.inj hdiv
  refine ⟨_, _, _, (Except.ok.inj h).symm, ?_⟩
  have hextra : ∀ r < 3, (if 0 < r then 1 else 0) + (if 1 < r then 1 else 0) +
      (if 2 < r then 1 else 0) = r := by decide
  have := hextra (payloadBudget % 3) (Nat.mod_lt _ (by decide))
  dsimp only
  omega

/-- What a merged packet is made of: three subpackets of code 0 under the first one's TOC byte. -/
structure Merged (subpackets : List (List UInt8)) (packet : Frame) (toc : UInt8)
    (codes : List UInt8) : Prop where
  three : subpackets.length = 3
  first : ∃ body, subpackets[0]? = some (toc :: body)
  fits : ∀ s ∈ subpackets, Fits 251 s
  lengths : Each LengthCode ((bodies subpackets).dropLast.map List.length) codes
  codec : packet.codec = .opus
  payload : packet.payload =
    ((toc &&& ~~~0x03) ||| 0x03) :: 0x83 :: (codes ++ (bodies subpackets).flatten)

theorem encodeMultiSubframePacket_merged {E : OpusEncoder} {frame : RawAudioFrame} {packet : Frame}
    {self self' : OpusEncoderState E.recording} (hcount : self.subframeCount = 3)
    (hmax : self.maxPayloadBytes ≤ 240) (hlog : self.returned = [])
    (h : OpusEncoderState.encodeMultiSubframePacket host frame self = .ok packet self') :
    ∃ toc codes, Merged self'.returned packet toc codes ∧
      packet.payload.length ≤ self.maxPayloadBytes := by
  rw [OpusEncoderState.encodeMultiSubframePacket, run_get] at h
  obtain ⟨budgets, _, hlift, h⟩ := run_bind_ok_iff.1 h
  obtain ⟨hbudgets, rfl⟩ := lift_ok_iff.1 hlift
  obtain ⟨a, b, c, rfl, hsum⟩ := subframePayloadBudgets_three hcount hbudgets
  obtain ⟨subpackets, _, hloop, h⟩ := run_bind_ok_iff.1 h
  obtain ⟨hfits, e, rfl⟩ := encodeSubframes_recorded hloop
  obtain ⟨payload, _, hlift, h⟩ := run_bind_ok_iff.1 h
  obtain ⟨hmerge, rfl⟩ := lift_ok_iff.1 hlift
  cases hfits with
  | @cons _ s _ _ hs hfits =>
  cases hfits with
  | @cons _ t _ _ ht hfits =>
  cases hfits with
  | @cons _ u _ _ hu hfits =>
  cases hfits
  have hall : ∀ x ∈ [s, t, u], Fits 251 x := by
    intro x hx
    simp only [List.mem_cons, List.not_mem_nil, or_false] at hx
    obtain rfl | rfl | rfl := hx
    · exact hs.mono (by omega)
    · exact ht.mono (by omega)
    · exact hu.mono (by omega)
  obtain ⟨toc, body, rfl, -, hslen⟩ := hs
  obtain ⟨_, tbody, rfl, -, htlen⟩ := ht
  obtain ⟨_, ubody, rfl, -, hulen⟩ := hu
  obtain ⟨codes, heach, hmerged, hcodes⟩ := mergeSubpackets_ok hcount rfl hall
  obtain rfl := Except.ok.inj (hmerge.symm.trans hmerged)
  cases h
  rw [OpusEncoderState.returned] at hlog ⊢
  rw [hlog, List.nil_append]
  refine ⟨toc, codes, ⟨rfl, ⟨body, rfl⟩, hall, heach, rfl, ?_⟩, ?_⟩
  · rw [hcount]
    rfl
  · simp only [List.length_cons, List.length_nil] at hcodes
    simp only [bodies, List.map_cons, List.map_nil, List.tail_cons, List.flatten_cons,
      List.flatten_nil, List.append_nil, List.length_cons, List.length_append]
    omega

theorem merged_toc {toc : UInt8} (h : toc &&& 0x03 = 0) :
    ((toc &&& ~~~0x03) ||| 0x03) &&& 0x03 = 0x03 ∧
      ((toc &&& ~~~0x03) ||| 0x03) &&& ~~~0x03 = toc :=
  MsgPack.forall_tag (p := fun toc => toc &&& 0x03 = 0 →
    ((toc &&& ~~~0x03) ||| 0x03) &&& 0x03 = 0x03 ∧
      ((toc &&& ~~~0x03) ||| 0x03) &&& ~~~0x03 = toc) (by decide +kernel) toc h

/-- The bodies under one TOC byte are the subpackets when these all have it. -/
theorem relabelled_eq_iff {toc : UInt8} {subpackets : List (List UInt8)}
    (h : ∀ s ∈ subpackets, Fits 251 s) :
    (bodies subpackets).map (toc :: ·) = subpackets ↔ ∀ s ∈ subpackets, s.head? = some toc := by
  induction subpackets with
  | nil => exact ⟨fun _ => nofun, fun _ => rfl⟩
  | cons s rest ih =>
    obtain ⟨⟨_, body, rfl, -, -⟩, hrest⟩ := List.forall_mem_cons.mp h
    rw [bodies, List.map_cons, List.map_cons, ← bodies, List.cons.injEq, ih hrest,
      List.forall_mem_cons, List.tail_cons, List.head?_cons, List.cons.injEq, Option.some.injEq]
    exact ⟨fun h => ⟨h.1.1.symm, h.2⟩, fun h => ⟨⟨h.1.symm, rfl⟩, h.2⟩⟩

theorem Merged.presents {subpackets : List (List UInt8)} {packet : Frame} {toc : UInt8}
    {codes : List UInt8} (h : Merged subpackets packet toc codes)
    (hlen : packet.payload.length ≤ host.usizeMax) {D : OpusDecoder}
    {self : OpusDecoderState D.recording} (hself : ThreeSubframes self) :
    ∃ calls, (endState (OpusDecoderState.decodeFrame host packet self)).decoder.2 =
        self.decoder.2 ++ calls ∧ Presents ((bodies subpackets).map (toc :: ·)) calls ∧
        ∀ call ∈ calls, Answers D call := by
  obtain ⟨body, hfirst⟩ := h.first
  obtain ⟨_, _, hcons, hcode, -⟩ := h.fits _ (List.mem_of_getElem? hfirst)
  obtain ⟨rfl, rfl⟩ := List.cons.inj hcons
  obtain ⟨hthree, htoc⟩ := merged_toc hcode
  have hpacket : packet = { codec := .opus, payload := packet.payload } := by rw [← h.codec]
  rw [h.payload] at hlen hpacket
  have hbodies : (bodies subpackets).length = 3 := by rw [bodies, List.length_map, h.three]
  have hpresents := decodeFrame_presents hself hlen hbodies hthree h.lengths
  rw [htoc] at hpresents
  rwa [hpacket]

/-- A decoder that takes every packet. -/
def acceptingDecoder : OpusDecoder where
  State := Unit
  new _ _ := .ok ()
  decode _ _ frameSize output := (.ok frameSize, output, ())
  decode_length _ _ _ _ := rfl

theorem acceptingDecoder_answers {call : List UInt8 × Bool} (h : Answers acceptingDecoder call) :
    call.2 = true := by
  obtain ⟨_, _, _, h⟩ := h
  exact h.symm

theorem new_acceptingDecoder {profile : Profile} (h : IsQuality profile) :
    ∃ decoder, OpusDecoderState.new acceptingDecoder.recording profile = .ok decoder := by
  rcases h with rfl | rfl | rfl
  · exact ⟨_, rfl⟩
  · exact ⟨_, rfl⟩
  · exact ⟨_, rfl⟩

/-- **A merged packet carries the subpackets exactly when these agree on the TOC byte.** The
packet keeps to the profile's budget, and a decoder of the profile, whatever the library's decoder
does, is given the packets that the library's encoder returned. -/
theorem multi_subframe_carries (host : Host) (E : OpusEncoder) (profile : Profile)
    (encoder : OpusEncoderState E.recording)
    (hnew : OpusEncoderState.new host E.recording profile = .ok encoder)
    (hmany : 1 < encoder.subframeCount) (e : E.State) (frame : RawAudioFrame) (packet : Frame)
    (after : OpusEncoderState E.recording)
    (h : OpusEncoderState.encodeMultiSubframePacket host frame (encoder.startAt e) =
      .ok packet after) :
    (packet.payload.length ≤ encoder.maxPayloadBytes ∧
      ∀ (D : OpusDecoder) (decoder : OpusDecoderState D.recording),
        OpusDecoderState.new D.recording profile = .ok decoder → ∀ d : D.State,
        Presents after.returned
          (endState (OpusDecoderState.decodeFrame host packet (decoder.startAt d))).given) ↔
    ∀ s ∈ after.returned, ∀ t ∈ after.returned, s.head? = t.head? := by
  obtain ⟨hquality, hcount, -, hmax⟩ := new_encoder hnew hmany
  have hstart : (encoder.startAt e).subframeCount = 3 := hcount
  obtain ⟨toc, codes, hmerged, hlen⟩ := encodeMultiSubframePacket_merged hstart hmax rfl h
  have hword : packet.payload.length ≤ host.usizeMax := by
    have hlen240 : packet.payload.length ≤ 240 := Nat.le_trans hlen hmax
    have := host.thirtyTwoBits
    omega
  obtain ⟨body, hfirst⟩ := hmerged.first
  have hmem : toc :: body ∈ after.returned := List.mem_of_getElem? hfirst
  have hgiven : ∀ (D : OpusDecoder) (decoder : OpusDecoderState D.recording) (d : D.State),
      OpusDecoderState.new D.recording profile = .ok decoder →
      Presents ((bodies after.returned).map (toc :: ·))
        (endState (OpusDecoderState.decodeFrame host packet (decoder.startAt d))).given ∧
      ∀ call ∈ (endState (OpusDecoderState.decodeFrame host packet (decoder.startAt d))).given,
        Answers D call := by
    intro D decoder d hdecoder
    obtain ⟨hthree, hframes, hframesMax, hchannels⟩ := new_decoder hquality hdecoder
    have hself : ThreeSubframes (decoder.startAt d) := ⟨hthree, hframes, hframesMax, hchannels⟩
    obtain ⟨calls, hlog, hpresents⟩ := hmerged.presents hword hself
    rw [OpusDecoderState.given, hlog]
    exact hpresents
  constructor
  · intro ⟨_, hall⟩ s hs t ht
    obtain ⟨decoder, hdecoder⟩ := new_acceptingDecoder hquality
    obtain ⟨hpresents, hanswers⟩ := hgiven acceptingDecoder decoder () hdecoder
    have haccepted := fun call hcall => acceptingDecoder_answers (hanswers call hcall)
    have hsame := (hall acceptingDecoder decoder hdecoder ()).2 haccepted
    have hheads := (relabelled_eq_iff hmerged.fits).1 ((hpresents.2 haccepted).symm.trans hsame)
    rw [hheads s hs, hheads t ht]
  · intro hheads
    refine ⟨hlen, fun D decoder hdecoder d => ?_⟩
    have hsame := (relabelled_eq_iff hmerged.fits).2 fun s hs => hheads s hs _ hmem
    have hpresents := (hgiven D decoder d hdecoder).1
    rwa [hsame] at hpresents

/-! ## Two encoders of the library

Both return packets of two bytes, with the number of the call as the second. One stays in hybrid
mode (`0x78`); the other leaves it for CELT (`0xf8`) in the second call. Both modes are code 0. -/

def scriptedEncoder (toc : Nat → UInt8) : OpusEncoder where
  State := Nat
  new _ _ _ := .ok 0
  setBitrateBps _ calls := calls
  setUseCbr _ calls := calls
  encode calls _ _ output :=
    (.ok 2, (output.set 0 (toc calls)).set 1 (UInt8.ofNat calls), calls + 1)
  encode_length _ _ _ output := by rw [List.length_set, List.length_set]

def steady (_ : Nat) : UInt8 := 0x78

def switching (calls : Nat) : UInt8 := if calls = 1 then 0xf8 else 0x78

def wordHost : Host := ⟨4294967295, Nat.le_refl _⟩

def highEncoder (toc : Nat → UInt8) : OpusEncoderState (scriptedEncoder toc).recording where
  profile := .qualityHigh
  channels := 1
  sampleFrames := 2880
  subframeCount := 3
  subframeSampleFrames := 960
  encodeSampleFrames := 2880
  encodeSubframeSampleFrames := 960
  maxPayloadBytes := 120
  encoder := ((0 : Nat), [])

def highRun (toc : Nat → UInt8) :
    EStateM.Result (Abort OpusCodecError) (OpusEncoderState (scriptedEncoder toc).recording)
      Frame :=
  OpusEncoderState.encodeMultiSubframePacket wordHost
    { channels := 1, samples := List.replicate 2880 0 } ((highEncoder toc).startAt (0 : Nat))

/-- What both runs return: nothing of the packet tells them apart. -/
def highPacket : Frame where
  codec := .opus
  payload := [0x7b, 0x83, 1, 1, 0, 1, 2]

theorem highRun_steady : highRun steady = .ok highPacket (endState (highRun steady)) :=
  eq_ok_of_value? (by decide +kernel)

theorem highRun_switching : highRun switching = .ok highPacket (endState (highRun switching)) :=
  eq_ok_of_value? (by decide +kernel)

/-- The encoder that stays in one mode. -/
theorem multi_subframe_carries_steady :
    highPacket.payload.length ≤ 120 ∧
      ∀ (D : OpusDecoder) (decoder : OpusDecoderState D.recording),
        OpusDecoderState.new D.recording .qualityHigh = .ok decoder → ∀ d : D.State,
        Presents [[0x78, 0], [0x78, 1], [0x78, 2]]
          (endState
            (OpusDecoderState.decodeFrame wordHost highPacket (decoder.startAt d))).given := by
  have hreturned : (endState (highRun steady)).returned = [[0x78, 0], [0x78, 1], [0x78, 2]] := by
    decide +kernel
  have hagree : ∀ s ∈ (endState (highRun steady)).returned,
      ∀ t ∈ (endState (highRun steady)).returned, s.head? = t.head? := by
    rw [hreturned]
    decide
  have h := (multi_subframe_carries wordHost (scriptedEncoder steady) .qualityHigh
    (highEncoder steady) rfl (by decide) (0 : Nat) _ _ _ highRun_steady).2 hagree
  rwa [hreturned] at h

/-- The encoder that changes its mode: the second packet reaches no decoder as it was. -/
theorem second_subpacket_relabelled :
    OpusEncoderState.new wordHost (scriptedEncoder switching).recording .qualityHigh =
        .ok (highEncoder switching) ∧
      highRun switching = .ok highPacket (endState (highRun switching)) ∧
      (endState (highRun switching)).returned = [[0x78, 0], [0xf8, 1], [0x78, 2]] ∧
      ∃ decoder, OpusDecoderState.new acceptingDecoder.recording .qualityHigh = .ok decoder ∧
        (endState (OpusDecoderState.decodeFrame wordHost highPacket (decoder.startAt ()))).given =
          [([0x78, 0], true), ([0x78, 1], true), ([0x78, 2], true)] ∧
        ¬ Presents [[0x78, 0], [0xf8, 1], [0x78, 2]]
          [([0x78, 0], true), ([0x78, 1], true), ([0x78, 2], true)] := by
  refine ⟨rfl, highRun_switching, by decide +kernel, _, rfl, by decide +kernel, ?_⟩
  intro hpresents
  exact absurd (hpresents.2 (by decide)) (by decide)

end Opus

end Lxst
