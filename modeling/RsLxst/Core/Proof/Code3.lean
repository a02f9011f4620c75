import RsLxst.Core.Opus
import RsLxst.Core.Proof.OpusPacket

/-!
# The two code 3 parsers

`parse_code3_packet_frames` is the parser of packet inspection and `parse_code3_subframe_payloads`
that of the call's decoder. They are written separately and share the framing: their padding chains
and their lengths `Agree` step by step, and where a packet has no lengths the blocks at the
multiples of the frame length are its chunks. `code3_parsers_agree` says where they differ.
-/

set_option autoImplicit false

namespace Lxst

namespace Opus

open Checked OpusFraming

/-- The bytes of a slice: a `usize` counts them. -/
abbrev Host.Slice (host : Host) := { bytes : List UInt8 // bytes.length ≤ host.usizeMax }

/-- `parse_code3_packet_frames` under another limit on the number of frames. -/
def parseCode3PacketFramesUpTo (host : Host) (limit : Nat) (packet : List UInt8) :
    Outcome (List (List UInt8)) := do
  let countByte ← okOr packet[1]? (.malformedPacket "code 3 packet is too short")
  let frameCount := (countByte &&& 0x3F).toNat
  if frameCount = 0 then malformed "code 3 frame count is zero"
  else if frameCount > limit then malformed "code 3 frame count exceeds 48"
  else do
    let (cursor, payloadEnd) ← paddedPayload host
      (fun padding len => okOr (checkedAdd host.usizeMax padding len)
        (.malformedPacket "code 3 padding length overflows"))
      "code 3 padding exceeds packet" "code 3 padding exceeds payload" packet countByte
    if countByte &&& 0x80 = 0 then code3CbrFrames host packet frameCount cursor payloadEnd
    else
      vbrFrames host "code 3 payload cursor exceeds packet"
        "code 3 declared frame lengths exceed packet payload" packet frameCount cursor payloadEnd

/-- The limit of the source is 48. -/
theorem parseCode3PacketFrames_eq (host : Host) (packet : List UInt8) :
    parseCode3PacketFrames host packet = parseCode3PacketFramesUpTo host 48 packet := rfl

variable {host : Host}

/-! ## The padding and the lengths -/

variable {grow grow' : Nat → Nat → Outcome Nat}

theorem readPaddingLen_agree (hgrow : ∀ padding len, Agree (grow padding len) (grow' padding len))
    (exceeds exceeds' : String) (rest : List UInt8) (cursor padding : Nat) :
    Agree (readPaddingLen host grow exceeds rest cursor padding)
      (readPaddingLen host grow' exceeds' rest cursor padding) := by
  induction rest generalizing cursor padding with
  | nil => exact agree_fail _ _
  | cons byte rest ih =>
    refine (Agree.refl _).bind fun cursor => (hgrow _ _).bind fun padding => ?_
    exact Agree.ite (fun _ => Agree.refl _) fun _ => ih cursor padding

theorem paddedPayload_agree (host : Host)
    (hgrow : ∀ padding len, Agree (grow padding len) (grow' padding len))
    (packet : List UInt8) (countByte : UInt8)
    (exceedsPacket exceedsPayload exceedsPacket' exceedsPayload' : String) :
    Agree (paddedPayload host grow exceedsPacket exceedsPayload packet countByte)
      (paddedPayload host grow' exceedsPacket' exceedsPayload' packet countByte) := by
  refine Agree.ite (fun _ => ?_) fun _ => Agree.refl _
  refine (readPaddingLen_agree hgrow _ _ _ _ _).bind fun r => (agree_okOr _ _ _).bind fun stop => ?_
  exact Agree.ite (fun _ => agree_fail _ _) fun _ => Agree.refl _

theorem vbrFrames_agree (packet : List UInt8) (frameCount cursor payloadEnd : Nat)
    (cursorExceeds lengthsExceed cursorExceeds' lengthsExceed' : String) :
    Agree (vbrFrames host cursorExceeds lengthsExceed packet frameCount cursor payloadEnd)
      (vbrFrames host cursorExceeds' lengthsExceed' packet frameCount cursor payloadEnd) := by
  refine (Agree.refl _).bind fun declaredCount => (Agree.refl _).bind fun lengths => ?_
  refine (Agree.refl _).bind fun declared => (agree_okOr _ _ _).bind fun remaining => ?_
  exact Agree.ite (fun _ => agree_fail _ _) fun _ => Agree.refl _

/-! ## Frames of one length -/

/-- The last part of `parse_code3_subframe_payloads`. -/
def chunkedFrames (packet : List UInt8) (frameCount cursor payloadEnd : Nat) :
    Outcome (List (List UInt8)) := do
  let compressed ← slice packet cursor payloadEnd
  if ¬ compressed.length % frameCount = 0 then
    malformed "CBR code 3 payload is not evenly divisible"
  else if compressed.length / frameCount = 0 then malformed "CBR code 3 payload is empty"
  else pure (compressed.toChunks (compressed.length / frameCount))

theorem slice_out {xs : List UInt8} {start stop : Nat} (h : ¬ (start ≤ stop ∧ stop ≤ xs.length)) :
    (slice xs start stop : Outcome (List UInt8)) = .error .panic := if_neg h

/-- A slice between what is in front of it and what is behind. -/
theorem take_append_slice (xs : List UInt8) {start stop : Nat} (h : start ≤ stop) :
    xs.take start ++ (xs.take stop).drop start ++ xs.drop stop = xs := by
  have htake : xs.take start = (xs.take stop).take start := by
    rw [List.take_take, Nat.min_eq_left h]
  rw [htake, List.take_append_drop, List.take_append_drop]

/-- The frames of the other parser: equal parts of what is between the bounds. -/
theorem code3CbrFrames_ok_iff {packet : List UInt8} {frameCount cursor payloadEnd : Nat}
    {frames : List (List UInt8)} (hlen : packet.length ≤ host.usizeMax) (hcount : 0 < frameCount)
    (hrange : cursor ≤ payloadEnd ∧ payloadEnd ≤ packet.length) :
    code3CbrFrames host packet frameCount cursor payloadEnd = .ok frames ↔
      frames.length = frameCount ∧ (∃ k, ∀ f ∈ frames, f.length = k) ∧
        (packet.take payloadEnd).drop cursor = frames.flatten := by
  have hpacket := take_append_slice packet hrange.1
  have hstart : cursor = (packet.take cursor).length := by
    rw [List.length_take]
    omega
  have hstop : payloadEnd = (packet.take cursor).length +
      ((packet.take payloadEnd).drop cursor).length := by
    rw [List.length_take, List.length_drop, List.length_take]
    omega
  have hfits : (packet.take cursor ++ (packet.take payloadEnd).drop cursor ++
      packet.drop payloadEnd).length ≤ host.usizeMax := by
    rw [hpacket]
    exact hlen
  have hyields := code3CbrFrames_yields hfits hstart hstop hcount
  rw [hpacket] at hyields
  exact hyields.ok_iff frames

/-- The chunks are the frames of the other parser, unless there is nothing to chunk. -/
theorem chunkedFrames_ok_iff {packet : List UInt8} {frameCount cursor payloadEnd : Nat}
    {frames : List (List UInt8)} (hlen : packet.length ≤ host.usizeMax) (hcount : 0 < frameCount) :
    chunkedFrames packet frameCount cursor payloadEnd = .ok frames ↔
      code3CbrFrames host packet frameCount cursor payloadEnd = .ok frames ∧
        frames.flatten ≠ [] := by
  by_cases hrange : cursor ≤ payloadEnd ∧ payloadEnd ≤ packet.length
  · have hslice := slice_ok (ε := OpusCodecError) hrange.1 hrange.2
    rw [code3CbrFrames_ok_iff hlen hcount hrange, chunkedFrames, bind_of_ok hslice]
    generalize (packet.take payloadEnd).drop cursor = payload
    by_cases hdiv : payload.length % frameCount = 0
    · have hmul : payload.length = frameCount * (payload.length / frameCount) :=
        (Nat.mul_div_cancel' (Nat.dvd_of_mod_eq_zero hdiv)).symm
      rw [if_neg (not_not_intro hdiv)]
      by_cases hempty : payload.length / frameCount = 0
      · rw [if_pos hempty]
        refine ⟨nofun, fun ⟨⟨_, _, hflatten⟩, hne⟩ => absurd ?_ hne⟩
        rw [← hflatten]
        rw [hempty, Nat.mul_zero] at hmul
        exact List.length_eq_zero_iff.1 hmul
      · rw [if_neg hempty, Blocks.toChunks_eq (Nat.pos_of_ne_zero hempty) hmul]
        have hblocks := Blocks.eq_equalBlocks_iff hmul frames
        constructor
        · intro h
          cases h
          obtain ⟨hn, hk, hflatten⟩ := hblocks.1 rfl
          refine ⟨⟨hn, ⟨_, hk⟩, hflatten⟩, fun hnil => hempty ?_⟩
          rw [hflatten, hnil, List.length_nil, Nat.zero_div]
        · rintro ⟨⟨hn, ⟨k, hk⟩, hflatten⟩, -⟩
          have hlength : payload.length / frameCount = k := by
            rw [hflatten, Blocks.length_flatten_of_equal hk, hn]
            exact Nat.mul_div_cancel_left k hcount
          refine congrArg Except.ok (hblocks.2 ⟨hn, ?_, hflatten⟩).symm
          rw [hlength]
          exact hk
    · rw [if_pos hdiv]
      refine ⟨nofun, fun ⟨⟨hn, ⟨k, hk⟩, hflatten⟩, _⟩ => absurd ?_ hdiv⟩
      rw [hflatten, Blocks.length_flatten_of_equal hk, hn]
      exact Nat.mul_mod_right _ _
  · rw [chunkedFrames, code3CbrFrames, slice_out hrange]
    exact ⟨nofun, nofun⟩

/-! ## The parsers -/

/-- Behind the padding chain. -/
theorem code3Frames_ok_iff {packet : List UInt8} {count : UInt8} (cursor payloadEnd : Nat)
    (frames : List (List UInt8)) (hlen : packet.length ≤ host.usizeMax)
    (hcount : 0 < frameCount count)
    (cursorExceeds lengthsExceed cursorExceeds' lengthsExceed' : String) :
    (if count &&& 0x80 ≠ 0 then
      vbrFrames host cursorExceeds lengthsExceed packet (frameCount count) cursor payloadEnd
    else chunkedFrames packet (frameCount count) cursor payloadEnd) = .ok frames ↔
      (if count &&& 0x80 = 0 then code3CbrFrames host packet (frameCount count) cursor payloadEnd
      else
        vbrFrames host cursorExceeds' lengthsExceed' packet (frameCount count) cursor payloadEnd) =
          .ok frames ∧ ¬ (¬ isVbr count ∧ frames.flatten = []) := by
  by_cases hvbr : count &&& 0x80 = 0
  · rw [if_neg (not_not_intro hvbr), if_pos hvbr, chunkedFrames_ok_iff hlen hcount]
    have hcbr : ¬ isVbr count := (vbr_bit_iff count).1 hvbr
    exact and_congr_right fun _ => ⟨fun hne h => hne h.2, fun h hnil => h ⟨hcbr, hnil⟩⟩
  · rw [if_pos hvbr, if_neg hvbr, vbrFrames_agree packet _ cursor payloadEnd cursorExceeds
      lengthsExceed cursorExceeds' lengthsExceed' frames]
    have hnotCbr : ¬ (¬ isVbr count ∧ frames.flatten = []) :=
      fun h => hvbr ((vbr_bit_iff count).2 h.1)
    exact ⟨fun h => ⟨h, hnotCbr⟩, And.left⟩

/-- **The two code 3 parsers agree**, the limit of the one, the expected count of the other and the
packet without lengths and without payload apart. -/
theorem code3_parsers_agree (host : Host) (packet : host.Slice) (n : Nat)
    (frames : List (List UInt8)) :
    parseCode3SubframePayloads host packet n = .ok frames ↔
      parseCode3PacketFramesUpTo host 63 packet = .ok frames ∧
        ∃ count, packet.val[1]? = some count ∧ n = frameCount count ∧
          ¬ (¬ isVbr count ∧ frames.flatten = []) := by
  obtain ⟨packet, hlen⟩ := packet
  obtain - | ⟨toc, - | ⟨count, body⟩⟩ := packet
  · exact ⟨nofun, nofun⟩
  · exact ⟨nofun, nofun⟩
  have hcount : (count &&& 0x3F).toNat = frameCount count := and_sixty_three count
  have hsix : frameCount count ≤ 63 := Nat.le_of_lt_succ (Nat.mod_lt _ (by decide))
  have hsecond : (toc :: count :: body)[1]? = some count := rfl
  have hright : (∃ count', (toc :: count :: body)[1]? = some count' ∧ n = frameCount count' ∧
      ¬ (¬ isVbr count' ∧ frames.flatten = [])) ↔
        n = frameCount count ∧ ¬ (¬ isVbr count ∧ frames.flatten = []) := by
    refine ⟨fun ⟨count', hsome, h⟩ => ?_, fun h => ⟨count, rfl, h⟩⟩
    cases hsome
    exact h
  rw [hright]
  dsimp only
  rw [parseCode3SubframePayloads, if_neg (by simp), bind_of_ok (index_ok hsecond),
    parseCode3PacketFramesUpTo, bind_of_ok (okOr_ok_iff.2 hsecond)]
  dsimp only
  rw [hcount]
  by_cases hn : frameCount count = n
  · subst hn
    rw [if_neg (not_not_intro rfl)]
    by_cases hzero : frameCount count = 0
    · rw [if_pos hzero, if_pos hzero]
      exact ⟨nofun, nofun⟩
    rw [if_neg hzero, if_neg hzero, if_neg (by omega), bind_ok_iff, bind_ok_iff]
    have hpadded := paddedPayload_agree host (fun padding len =>
        agree_checkedAdd host.usizeMax padding len
          (.malformedPacket "code 3 padding length overflows"))
      (toc :: count :: body) count "code 3 padding exceeds packet" "code 3 padding exceeds payload"
      "padding exceeds packet" "padding exceeds payload"
    have hframes (r : Nat × Nat) := code3Frames_ok_iff r.1 r.2 frames hlen
      (Nat.pos_of_ne_zero hzero) "payload cursor exceeds packet"
      "declared frame lengths exceed packet payload" "code 3 payload cursor exceeds packet"
      "code 3 declared frame lengths exceed packet payload"
    constructor
    · rintro ⟨r, hr, h⟩
      obtain ⟨h, hne⟩ := (hframes r).1 h
      exact ⟨⟨r, (hpadded r).2 hr, h⟩, rfl, hne⟩
    · rintro ⟨⟨r, hr, h⟩, -, hne⟩
      exact ⟨r, (hpadded r).1 hr, (hframes r).2 ⟨h, hne⟩⟩
  · rw [if_pos hn]
    exact ⟨nofun, fun h => absurd h.2.1.symm hn⟩

end Opus

end Lxst
