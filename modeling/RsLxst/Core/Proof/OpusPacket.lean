import RsLxst.Core.OpusPacket
import RsLxst.Lib.Blocks
import RsLxst.Lib.OpusFraming

/-!
# Packet inspection accepts the framing of RFC 6716

`inspect_accepts`: `inspect_opus_packet` returns frames exactly when the packet is a TOC byte, a
header of RFC 6716 for these frames, the frames themselves and the padding that the header
announces, within the limits on the packet, on a frame and on the duration; no index, slice or
subtraction leaves its range. Each function of the parser has one lemma that says what it yields:

* `readSubframePayloadLen_yields`, `readPayloadLens_yields`: the length codes;
* `readPaddingLen_yields`, `paddedPayload_yields`: the padding chain and what lies before the
  padding;
* `code3CbrFrames_yields`, `vbrFrames_yields`, `parseCode3PacketFrames_yields`,
  `parseOpusPacketFrames_yields`: the frames;
* `inspectOpusPacket_yields`: the whole record.
-/

set_option autoImplicit false

namespace Lxst

namespace Opus

open Checked OpusFraming
open Parsing (Each)

/-! ## The TOC and the count byte -/

theorem and_three (toc : UInt8) : (toc &&& 0x03).toNat = code toc :=
  MsgPack.forall_tag (p := fun toc => (toc &&& 0x03).toNat = code toc) (by decide +kernel) toc

theorem and_sixty_three (count : UInt8) : (count &&& 0x3F).toNat = frameCount count :=
  MsgPack.forall_tag (p := fun count => (count &&& 0x3F).toNat = frameCount count)
    (by decide +kernel) count

theorem padding_bit_iff (count : UInt8) : count &&& 0x40 ≠ 0 ↔ hasPadding count :=
  MsgPack.forall_tag (p := fun count => count &&& 0x40 ≠ 0 ↔ hasPadding count)
    (by decide +kernel) count

theorem vbr_bit_iff (count : UInt8) : count &&& 0x80 = 0 ↔ ¬ isVbr count :=
  MsgPack.forall_tag (p := fun count => count &&& 0x80 = 0 ↔ ¬ isVbr count)
    (by decide +kernel) count

theorem samplesPerFrame_eq (toc : UInt8) : opusSamplesPerFrame48k toc = frameSamples toc :=
  MsgPack.forall_tag (p := fun toc => opusSamplesPerFrame48k toc = frameSamples toc)
    (by decide +kernel) toc

/-- Every frame lasts 2.5 to 60 milliseconds, in steps of 2.5. -/
theorem frameSamples_quanta (toc : UInt8) :
    0 < frameSamples toc ∧ frameSamples toc ≤ 2880 ∧ frameSamples toc % 120 = 0 :=
  MsgPack.forall_tag
    (p := fun toc => 0 < frameSamples toc ∧ frameSamples toc ≤ 2880 ∧ frameSamples toc % 120 = 0)
    (by decide +kernel) toc

theorem stereo_bit_iff (toc : UInt8) : toc &&& 0x04 = 0 ↔ ¬ isStereo toc :=
  MsgPack.forall_tag (p := fun toc => toc &&& 0x04 = 0 ↔ ¬ isStereo toc)
    (by decide +kernel) toc

/-! ## Lengths -/

theorem readSubframePayloadLen_yields (input : List UInt8) :
    Yields (readSubframePayloadLen input) fun r =>
      ∃ bytes, LengthCode r.1 bytes ∧ bytes <+: input ∧ r.2 = bytes.length := by
  refine ((yields_okOr _ _).bind fun first _ => Yields.ite (fun _ => yields_pure _) fun _ =>
    (yields_okOr _ _).bind fun second _ => yields_pure _).congr fun r => ?_
  constructor
  · rintro ⟨first, hfirst, ⟨hlt, rfl⟩ | ⟨hge, second, hsecond, rfl⟩⟩
    · obtain ⟨t, rfl⟩ := List.head?_eq_some_iff.1 hfirst
      exact ⟨[first], .one first hlt, ⟨t, rfl⟩, rfl⟩
    · obtain ⟨t, rfl⟩ := List.head?_eq_some_iff.1 hfirst
      obtain ⟨u, rfl⟩ : ∃ u, t = second :: u := by
        cases t with
        | nil => cases hsecond
        | cons b u => exact ⟨u, by simpa using hsecond⟩
      exact ⟨[first, second], .two first second (Nat.le_of_not_lt hge), ⟨u, rfl⟩, rfl⟩
  · obtain ⟨len, used⟩ := r
    rintro ⟨bytes, hcode, ⟨t, rfl⟩, rfl⟩
    cases hcode with
    | one first hlt => exact ⟨first, rfl, .inl ⟨hlt, rfl⟩⟩
    | two first second hge =>
      exact ⟨first, rfl, .inr ⟨Nat.not_lt.2 hge, second, rfl, rfl⟩⟩

theorem Host.usize_holds (host : Host) {n : Nat} (h : n ≤ OPUS_ENCODED_PACKET_MAX_BYTES) :
    n ≤ host.usizeMax ∧ 254 * n ≤ host.usizeMax := by
  have := host.thirtyTwoBits
  have : OPUS_ENCODED_PACKET_MAX_BYTES = 61440 := rfl
  omega

variable {host : Host} {grow : Nat → Nat → Outcome Nat}

/-- `grow` adds while a `usize` holds the sum. -/
def Adds (host : Host) (grow : Nat → Nat → Outcome Nat) : Prop :=
  ∀ padding len, padding + len ≤ host.usizeMax → grow padding len = .ok (padding + len)

theorem readPaddingLen_yields {exceeds : String} {rest : List UInt8} {cursor padding : Nat}
    (hgrow : Adds host grow) (hc : cursor + rest.length ≤ host.usizeMax)
    (hp : padding + 254 * rest.length ≤ host.usizeMax) :
    Yields (readPaddingLen host grow exceeds rest cursor padding) fun r =>
      ∃ n bytes, PaddingCode n bytes ∧ bytes <+: rest ∧
        r = (cursor + bytes.length, padding + n) := by
  induction rest generalizing cursor padding with
  | nil =>
    refine (yields_fail _).congr fun r => ⟨False.elim, ?_⟩
    rintro ⟨n, bytes, hcode, hpre, -⟩
    obtain rfl := List.prefix_nil.1 hpre
    cases hcode
  | cons byte rest ih =>
    rw [List.length_cons] at hc hp
    have hbyte : (if byte = 255 then 254 else byte.toNat) ≤ 254 := by
      split
      · exact Nat.le_refl _
      · next hne =>
        have := byte.toNat_lt
        have : byte.toNat ≠ 255 := fun h => hne (UInt8.toNat_inj.1 h)
        omega
    refine (Yields.step (add_ok (by omega)) (Yields.step (hgrow _ _ (by omega))
      (Yields.ite (fun _ => yields_pure _) fun h => ih (by omega) (by omega)))).congr fun r => ?_
    constructor
    · rintro (⟨hne, rfl⟩ | ⟨he, n, bytes, hcode, ⟨t, rfl⟩, rfl⟩)
      · exact ⟨byte.toNat, [byte], .last byte fun h => hne (UInt8.toNat_inj.1 h), ⟨rest, rfl⟩,
          by rw [if_neg hne]; rfl⟩
      · obtain rfl := Decidable.not_not.1 he
        refine ⟨254 + n, 255 :: bytes, .more hcode, ⟨t, rfl⟩, ?_⟩
        rw [if_pos rfl, List.length_cons, Nat.add_assoc, Nat.add_assoc, Nat.add_comm 1]
    · rintro ⟨n, bytes, hcode, hpre, rfl⟩
      cases hcode with
      | last b hb =>
        obtain ⟨rfl, -⟩ := List.cons_prefix_cons.1 hpre
        have hne : b ≠ 255 := fun h => hb (h ▸ rfl)
        exact .inl ⟨hne, by rw [if_neg hne]; rfl⟩
      | @more n bytes hcode =>
        obtain ⟨rfl, htail⟩ := List.cons_prefix_cons.1 hpre
        refine .inr ⟨fun h => h rfl, n, bytes, hcode, htail, ?_⟩
        rw [if_pos rfl, List.length_cons, Nat.add_assoc, Nat.add_assoc, Nat.add_comm 1]

/-- The payload between the padding chain and the padding. -/
theorem paddedPayload_yields {exceedsPacket exceedsPayload : String} {toc count : UInt8}
    {body : List UInt8} (hgrow : Adds host grow)
    (h : (toc :: count :: body).length ≤ OPUS_ENCODED_PACKET_MAX_BYTES) :
    Yields (paddedPayload host grow exceedsPacket exceedsPayload (toc :: count :: body) count)
      fun r => ∃ chain middle padding,
        Padding count chain padding ∧ body = chain ++ middle ++ padding ∧
        r = ((toc :: count :: chain).length, (toc :: count :: chain).length + middle.length) := by
  obtain ⟨hlen, hbig⟩ := host.usize_holds h
  rw [List.length_cons, List.length_cons] at hlen hbig
  refine (Yields.ite (fun _ => (readPaddingLen_yields hgrow (by simp; omega)
    (by simp; omega)).bind
    fun r _ => (yields_checkedSub _ _ _).bind fun payloadEnd _ =>
      Yields.guard fun _ => yields_pure (r.1, payloadEnd)) fun _ => yields_pure _).congr fun r => ?_
  constructor
  · rintro (⟨hbit, _, ⟨n, chain, hchain, ⟨t, ht⟩, rfl⟩, e, ⟨hle, rfl⟩, hcur, rfl⟩ | ⟨hbit, rfl⟩)
    · obtain rfl : chain ++ t = body := ht
      simp only [List.length_cons, List.length_append, Nat.zero_add, Nat.not_lt] at hle hcur ⊢
      have hlast : (t.drop (t.length - n)).length = n := by
        rw [List.length_drop]
        omega
      refine ⟨chain, t.take (t.length - n), t.drop (t.length - n),
        .present ((padding_bit_iff count).1 hbit) (by rw [hlast]; exact hchain), ?_, ?_⟩
      · rw [List.append_assoc, List.take_append_drop]
      · rw [List.length_take_of_le (Nat.sub_le _ _), Prod.mk.injEq]
        omega
    · refine ⟨[], body, [], .absent fun hp => hbit ((padding_bit_iff count).2 hp), by simp, ?_⟩
      rw [Prod.mk.injEq]
      simp
      omega
  · rintro ⟨chain, middle, padding, hpad, rfl, rfl⟩
    cases hpad with
    | absent hp =>
      refine .inr ⟨fun hbit => hp ((padding_bit_iff count).1 hbit), ?_⟩
      rw [Prod.mk.injEq]
      simp
      omega
    | present hp hchain =>
      refine .inl ⟨(padding_bit_iff count).2 hp, (2 + chain.length, padding.length),
        ⟨_, _, hchain, ⟨middle ++ padding, by simp⟩, by simp⟩, _, ⟨by simp; omega, rfl⟩, ?_, ?_⟩
      · simp
        omega
      · rw [Prod.mk.injEq]
        simp
        omega

/-! ## Frame lengths and frames -/

theorem readPayloadLens_yields {n : Nat} {xs ys zs : List UInt8} {cursor stop : Nat}
    (h : (xs ++ ys ++ zs).length ≤ host.usizeMax) (hcursor : cursor = xs.length)
    (hstop : stop = xs.length + ys.length) :
    Yields (readPayloadLens host (xs ++ ys ++ zs) stop n cursor) fun r =>
      ∃ bytes rest, r.1.length = n ∧ Each LengthCode r.1 bytes ∧ ys = bytes ++ rest ∧
        r.2 = xs.length + bytes.length := by
  induction n generalizing xs ys cursor with
  | zero =>
    subst hcursor
    refine (yields_pure ([], xs.length)).congr fun r => ?_
    constructor
    · rintro rfl
      exact ⟨[], ys, rfl, .nil, rfl, rfl⟩
    · obtain ⟨lengths, cursor⟩ := r
      rintro ⟨bytes, rest, hn, heach, -, rfl⟩
      obtain rfl := List.length_eq_zero_iff.1 hn
      obtain rfl := Parsing.each_nil_iff.1 heach
      rfl
  | succ n ih =>
    refine (Yields.step (slice_middle hcursor hstop) ((readSubframePayloadLen_yields ys).bind
      (Q := fun a b => ∃ lens, b.1 = a.1 :: lens ∧ ∃ bytes rest, lens.length = n ∧
        Each LengthCode lens bytes ∧ ys.drop a.2 = bytes ++ rest ∧
        b.2 = xs.length + a.2 + bytes.length) fun a ha => ?_)).congr fun r => ?_
    · obtain ⟨len, used⟩ := a
      obtain ⟨first, -, ⟨t, rfl⟩, hused⟩ := ha
      obtain rfl : used = first.length := hused
      have hpacket : xs ++ (first ++ t) ++ zs = xs ++ first ++ t ++ zs := by simp
      rw [hpacket] at h ⊢
      have hin : cursor + first.length ≤ host.usizeMax := by
        subst hcursor
        simp only [List.length_append] at h
        omega
      have hnext : cursor + first.length = (xs ++ first).length := by simp [hcursor]
      have hrest := ih h hnext (by simp [hstop]; omega)
      refine (Yields.step (add_ok hin) (hrest.bind fun b _ => yields_pure (len :: b.1, b.2))).congr
        fun r => ?_
      constructor
      · rintro ⟨b, ⟨bytes, rest, hn, heach, ht, hb⟩, rfl⟩
        exact ⟨b.1, rfl, bytes, rest, hn, heach, by simpa using ht, by simpa using hb⟩
      · obtain ⟨lengths, stop'⟩ := r
        rintro ⟨lens, hl, bytes, rest, hn, heach, ht, hs⟩
        exact ⟨(lens, stop'), ⟨bytes, rest, hn, heach, by simpa using ht, by simpa using hs⟩,
          by rw [← hl]⟩
    · constructor
      · rintro ⟨⟨len, used⟩, ⟨first, hcode, ⟨t, rfl⟩, hused⟩, lens, hl, bytes, rest, hn, heach,
          ht, hs⟩
        obtain rfl : used = first.length := hused
        obtain rfl : t = bytes ++ rest := by simpa using ht
        refine ⟨first ++ bytes, rest, by rw [hl, List.length_cons, hn], ?_, by simp, ?_⟩
        · rw [hl]
          exact .cons hcode heach
        · rw [hs, List.length_append, Nat.add_assoc]
      · obtain ⟨lengths, stop'⟩ := r
        rintro ⟨bytes, rest, hn, heach, hys, hs⟩
        cases heach with
        | nil => cases hn
        | @cons len lens first bytes hcode heach =>
          refine ⟨(len, first.length), ⟨first, hcode, ⟨bytes ++ rest, by simp [hys]⟩, rfl⟩, lens,
            rfl, bytes, rest, by simpa using hn, heach, by simp [hys], ?_⟩
          rw [List.length_append] at hs
          rw [hs, Nat.add_assoc]

theorem foldlM_add_ok {lengths : List Nat} {s : Nat}
    (h : s + Blocks.total lengths ≤ host.usizeMax) :
    lengths.foldlM (add host.usizeMax) s = (.ok (s + Blocks.total lengths) : Outcome Nat) := by
  induction lengths generalizing s with
  | nil => rfl
  | cons n ns ih =>
    rw [Blocks.total] at h ⊢
    rw [List.foldlM_cons, add_ok (by omega), ← Nat.add_assoc]
    exact ih (by omega)

theorem sumLens_ok {lengths : List Nat} (h : Blocks.total lengths ≤ host.usizeMax) :
    sumLens host lengths = .ok (Blocks.total lengths) := by
  rw [sumLens, foldlM_add_ok (by omega), Nat.zero_add]

theorem sliceFrames_ok {frames : List (List UInt8)} {xs zs : List UInt8} {cursor : Nat}
    (h : (xs ++ frames.flatten ++ zs).length ≤ host.usizeMax) (hcursor : cursor = xs.length) :
    sliceFrames host (xs ++ frames.flatten ++ zs) (frames.map List.length) cursor = .ok frames := by
  induction frames generalizing xs cursor with
  | nil => rfl
  | cons f fs ih =>
    have hpacket : xs ++ (f :: fs).flatten ++ zs = xs ++ f ++ fs.flatten ++ zs := by simp
    have hin : cursor + f.length ≤ host.usizeMax := by
      simp only [List.length_append, List.flatten_cons] at h
      omega
    rw [hpacket] at h ⊢
    have hslice : (slice (xs ++ f ++ fs.flatten ++ zs) cursor (cursor + f.length) :
        Outcome (List UInt8)) = .ok f := by
      rw [List.append_assoc (xs ++ f)]
      exact slice_middle hcursor (by rw [hcursor])
    rw [List.map_cons, sliceFrames, add_ok hin]
    show (slice _ cursor (cursor + f.length) >>= _) = _
    rw [hslice]
    show (sliceFrames host _ _ (cursor + f.length) >>= _) = _
    rw [ih h (by simp [hcursor])]
    rfl

theorem code3CbrFrames_yields {xs ys zs : List UInt8} {frameCount cursor stop : Nat}
    (h : (xs ++ ys ++ zs).length ≤ host.usizeMax) (hcursor : cursor = xs.length)
    (hstop : stop = xs.length + ys.length) (hcount : 0 < frameCount) :
    Yields (code3CbrFrames host (xs ++ ys ++ zs) frameCount cursor stop) fun frames =>
      frames.length = frameCount ∧ (∃ k, ∀ f ∈ frames, f.length = k) ∧ ys = frames.flatten := by
  refine (Yields.step (slice_middle hcursor hstop) (Yields.guard (R := fun frames =>
    frames = Blocks.equalBlocks (ys.length / frameCount) frameCount ys) fun hdiv => ?_)).congr
    fun frames => ?_
  · have hlen : ys.length = frameCount * (ys.length / frameCount) :=
      (Nat.mul_div_cancel' (Nat.dvd_of_mod_eq_zero (Decidable.not_not.1 hdiv))).symm
    generalize ys.length / frameCount = k at hlen ⊢
    refine (mapM_ok (g := fun i => (ys.take (i * k + k)).drop (i * k)) fun i hi => ?_) ▸ yields_ok _
    have hend : i * k + k ≤ ys.length := by
      rw [hlen, ← Nat.succ_mul]
      exact Nat.mul_le_mul_right k (List.mem_range.1 hi)
    have hin : ys.length ≤ host.usizeMax := by
      simp only [List.length_append] at h
      omega
    rw [mul_ok (by omega)]
    show (add host.usizeMax (i * k) k >>= _) = _
    rw [add_ok (by omega)]
    exact slice_ok (Nat.le_add_right _ _) hend
  · constructor
    · rintro ⟨hdiv, he⟩
      have hlen : ys.length = frameCount * (ys.length / frameCount) :=
        (Nat.mul_div_cancel' (Nat.dvd_of_mod_eq_zero (Decidable.not_not.1 hdiv))).symm
      obtain ⟨hn, hk, hys⟩ := (Blocks.eq_equalBlocks_iff hlen frames).1 he
      exact ⟨hn, ⟨_, hk⟩, hys⟩
    · rintro ⟨hn, ⟨k, hk⟩, hys⟩
      have hlen : ys.length = frameCount * k := by
        rw [hys, Blocks.length_flatten_of_equal hk, hn]
      have hdiv : ys.length / frameCount = k := by
        rw [hlen]
        exact Nat.mul_div_cancel_left k hcount
      refine ⟨fun hmod => hmod (by rw [hlen]; exact Nat.mul_mod_right _ _), ?_⟩
      rw [hdiv]
      exact (Blocks.eq_equalBlocks_iff hlen frames).2 ⟨hn, hk, hys⟩

/-- The frames behind their lengths: all but the last as long as declared. -/
theorem declaredFrames_yields {cursorExceeds lengthsExceed : String} {xs ys zs : List UInt8}
    {lengths : List Nat} {cursor stop : Nat} (h : (xs ++ ys ++ zs).length ≤ host.usizeMax)
    (hcursor : cursor = xs.length) (hstop : stop = xs.length + ys.length)
    (htotal : Blocks.total lengths ≤ host.usizeMax) :
    Yields (do
      let declared ← sumLens host lengths
      let remaining ← okOr (checkedSub stop cursor) (.malformedPacket cursorExceeds)
      if declared > remaining then malformed lengthsExceed
      else do
        let last ← sub remaining declared
        sliceFrames host (xs ++ ys ++ zs) (lengths ++ [last]) cursor) fun frames =>
      (∃ last, frames.map List.length = lengths ++ [last]) ∧ frames.flatten = ys := by
  have hremaining : stop - cursor = ys.length := by omega
  refine (Yields.step (sumLens_ok htotal) (Yields.step (checkedSub_ok (by omega))
    (Yields.guard (R := fun frames =>
      frames.map List.length = lengths ++ [ys.length - Blocks.total lengths] ∧
        frames.flatten = ys) fun hle => ?_))).congr fun frames => ?_
  · rw [hremaining] at hle ⊢
    obtain ⟨blocks, hlens, hflat⟩ := Blocks.exists_blocks_concat (Nat.le_of_not_lt hle)
    refine Yields.step (sub_ok (Nat.le_of_not_lt hle)) ?_
    rw [← hlens, ← hflat, sliceFrames_ok (by rwa [hflat]) hcursor]
    refine (yields_ok blocks).congr fun frames => ⟨fun he => he ▸ ⟨rfl, rfl⟩, fun he => ?_⟩
    exact Blocks.blocks_unique he.1 (he.2 ▸ List.prefix_refl _) (List.prefix_refl _)
  · rw [hremaining]
    constructor
    · rintro ⟨-, hl, hflat⟩
      exact ⟨⟨_, hl⟩, hflat⟩
    · rintro ⟨⟨last, hl⟩, rfl⟩
      have hsum := Blocks.last_length hl
      refine ⟨by omega, ?_, rfl⟩
      rw [hl, ← hsum, Nat.add_sub_cancel_left]

theorem vbrFrames_yields {cursorExceeds lengthsExceed : String} {xs ys zs : List UInt8}
    {frameCount cursor stop : Nat}
    (h : (xs ++ ys ++ zs).length ≤ host.usizeMax) (hcursor : cursor = xs.length)
    (hstop : stop = xs.length + ys.length) (hcount : 0 < frameCount) (hmax : frameCount ≤ 48) :
    Yields (vbrFrames host cursorExceeds lengthsExceed (xs ++ ys ++ zs) frameCount cursor stop)
      fun frames => frames.length = frameCount ∧ ∃ bytes,
        Each LengthCode (frames.dropLast.map List.length) bytes ∧ ys = bytes ++ frames.flatten := by
  refine (Yields.step (sub_ok hcount) ((readPayloadLens_yields h hcursor hstop).bind
    (Q := fun r frames => (∃ last, frames.map List.length = r.1 ++ [last]) ∧
      frames.flatten = ys.drop (r.2 - xs.length)) fun r hr => ?_)).congr fun frames => ?_
  · obtain ⟨lengths, start⟩ := r
    dsimp only at hr ⊢
    obtain ⟨bytes, rest, hn, heach, rfl, rfl⟩ := hr
    have htotal : Blocks.total lengths ≤ host.usizeMax := by
      have h1 := Blocks.total_le (lengths_le heach)
      have h2 : lengths.length * 1275 ≤ 47 * 1275 := Nat.mul_le_mul_right _ (by omega)
      have := host.thirtyTwoBits
      omega
    have hpacket : xs ++ (bytes ++ rest) ++ zs = xs ++ bytes ++ rest ++ zs := by simp
    have hrest : (bytes ++ rest).drop (xs.length + bytes.length - xs.length) = rest := by
      rw [Nat.add_sub_cancel_left, List.drop_left]
    rw [hpacket] at h ⊢
    rw [hrest]
    exact declaredFrames_yields h (by simp) (by simp [hstop]; omega) htotal
  · constructor
    · rintro ⟨⟨lengths, start⟩, ⟨bytes, rest, hn, heach, rfl, hstart⟩, ⟨last, hl⟩, hflat⟩
      dsimp only at hn heach hstart hl hflat
      subst hstart
      obtain rfl : rest = frames.flatten := by simpa using hflat.symm
      have hcnt : frames.length = frameCount := by
        have := congrArg List.length hl
        simp only [List.length_map, List.length_append, List.length_singleton] at this
        omega
      refine ⟨hcnt, bytes, ?_, rfl⟩
      rw [List.map_dropLast, hl, List.dropLast_concat]
      exact heach
    · rintro ⟨hn, bytes, heach, rfl⟩
      have hne : frames ≠ [] := by
        rintro rfl
        simp at hn
        omega
      refine ⟨(frames.dropLast.map List.length, xs.length + bytes.length),
        ⟨bytes, frames.flatten, by simp [hn], heach, rfl, rfl⟩,
        ⟨(frames.getLast hne).length, ?_⟩, by simp⟩
      rw [← List.map_singleton (f := List.length), ← List.map_append,
        List.dropLast_append_getLast hne]

theorem code3Frames_yields {cursorExceeds lengthsExceed : String} {xs ys zs : List UInt8}
    {count : UInt8} {frameCount cursor stop : Nat}
    (h : (xs ++ ys ++ zs).length ≤ host.usizeMax) (hcursor : cursor = xs.length)
    (hstop : stop = xs.length + ys.length) (hcount : 0 < frameCount) (hmax : frameCount ≤ 48) :
    Yields (if count &&& 0x80 = 0 then code3CbrFrames host (xs ++ ys ++ zs) frameCount cursor stop
      else vbrFrames host cursorExceeds lengthsExceed (xs ++ ys ++ zs) frameCount cursor stop)
      fun frames => frames.length = frameCount ∧ Code3Payload count frames ys := by
  refine (Yields.ite (fun _ => code3CbrFrames_yields h hcursor hstop hcount) fun _ =>
    vbrFrames_yields h hcursor hstop hcount hmax).congr fun frames => ?_
  rw [vbr_bit_iff, Decidable.not_not, Code3Payload]
  constructor
  · rintro (⟨hv, hn, hbody⟩ | ⟨hv, hn, hbody⟩)
    · exact ⟨hn, .inl ⟨hv, hbody⟩⟩
    · exact ⟨hn, .inr ⟨hv, hbody⟩⟩
  · rintro ⟨hn, ⟨hv, hbody⟩ | ⟨hv, hbody⟩⟩
    · exact .inl ⟨hv, hn, hbody⟩
    · exact .inr ⟨hv, hn, hbody⟩

/-! ## Packets -/

theorem cons_cons_append (toc count : UInt8) (chain payload padding : List UInt8) :
    toc :: count :: (chain ++ payload ++ padding) =
      (toc :: count :: chain) ++ payload ++ padding := by
  simp

theorem payload_between (toc count : UInt8) (chain payload padding : List UInt8) :
    ((toc :: count :: (chain ++ payload ++ padding)).take
      ((toc :: count :: chain).length + payload.length)).drop (toc :: count :: chain).length =
      payload := by
  rw [cons_cons_append, drop_take_middle]

theorem parseCode3PacketFrames_yields {toc : UInt8} {body : List UInt8} (hcode : code toc = 3)
    (h : (toc :: body).length ≤ OPUS_ENCODED_PACKET_MAX_BYTES) :
    Yields (parseCode3PacketFrames host (toc :: body)) (Framed toc · body) := by
  cases body with
  | nil =>
    exact (yields_fail _).congr fun frames => ⟨False.elim, not_framed_code3_nil hcode⟩
  | cons count body =>
    have hlen := (host.usize_holds h).1
    refine (Yields.guard fun hzero => Yields.guard fun hmax => (paddedPayload_yields
      (fun _ _ hin => checkedAdd_ok hin) h).bind
      (Q := fun r frames => List.length frames = (count &&& 0x3F).toNat ∧
        Code3Payload count frames (((toc :: count :: body).take r.2).drop r.1))
      fun r hr => ?_).congr fun frames => ?_
    · obtain ⟨chain, payload, padding, -, rfl, rfl⟩ := hr
      dsimp only
      rw [payload_between]
      rw [cons_cons_append] at hlen ⊢
      exact code3Frames_yields hlen rfl rfl (Nat.pos_of_ne_zero hzero) (Nat.le_of_not_lt hmax)
    · rw [framed_code3_iff hcode, and_sixty_three]
      constructor
      · rintro ⟨hzero, hmax, _, ⟨chain, payload, padding, hpad, rfl, rfl⟩, hn, hbody⟩
        rw [payload_between] at hbody
        exact ⟨hn, by omega, by omega, chain, payload, padding, hpad, rfl, hbody⟩
      · rintro ⟨hn, hone, hmax, chain, payload, padding, hpad, rfl, hbody⟩
        refine ⟨by omega, by omega, _, ⟨chain, payload, padding, hpad, rfl, rfl⟩, hn, ?_⟩
        rw [payload_between]
        exact hbody

theorem twoFrames_ok {payload : List UInt8} {firstLen : Nat} (h : firstLen ≤ payload.length) :
    twoFrames payload firstLen = .ok [payload.take firstLen, payload.drop firstLen] := by
  rw [twoFrames, slice_to_ok h]
  show (slice payload firstLen payload.length >>= _) = _
  rw [slice_from_ok h]
  rfl

/-- Code 1: two frames of one size. -/
theorem code1Frames_yields {toc : UInt8} {body : List UInt8} (hcode : code toc = 1) :
    Yields (if ¬ body.length % 2 = 0 then malformed "code 1 CBR payload has odd length"
      else twoFrames body (body.length / 2)) (Framed toc · body) := by
  refine (Yields.guard fun _ => twoFrames_ok (Nat.div_le_self _ 2) ▸ yields_ok _).congr
    fun frames => ?_
  rw [framed_equal_iff hcode]
  constructor
  · rintro ⟨heven, rfl⟩
    refine ⟨_, _, rfl, ?_, (List.take_append_drop _ _).symm⟩
    rw [List.length_take, List.length_drop]
    omega
  · rintro ⟨f, g, rfl, hlen, rfl⟩
    have hhalf : (f ++ g).length / 2 = f.length := by
      rw [List.length_append]
      omega
    rw [hhalf, List.take_left, List.drop_left, List.length_append]
    exact ⟨by omega, rfl⟩

/-- Code 2: one frame of a coded length, and the rest. -/
theorem code2Frames_yields {toc : UInt8} {body : List UInt8} (hcode : code toc = 2) :
    Yields (do
      let (firstLen, lengthBytes) ← readSubframePayloadLen body
      let payload ← slice body lengthBytes body.length
      if firstLen > payload.length then malformed "code 2 first frame exceeds packet payload"
      else twoFrames payload firstLen) (Framed toc · body) := by
  refine ((readSubframePayloadLen_yields body).bind (Q := fun r frames =>
    r.1 ≤ (body.drop r.2).length ∧
      frames = [(body.drop r.2).take r.1, (body.drop r.2).drop r.1]) fun r hr => ?_).congr
    fun frames => ?_
  · obtain ⟨bytes, -, hpre, hused⟩ := hr
    refine Yields.step (slice_from_ok (hused ▸ hpre.length_le)) ?_
    refine (Yields.guard fun hle =>
      twoFrames_ok (Nat.le_of_not_lt hle) ▸ yields_ok _).congr fun frames => ?_
    rw [Nat.not_lt]
  · rw [framed_pair_iff hcode]
    constructor
    · rintro ⟨⟨len, used⟩, ⟨bytes, hlen, ⟨t, rfl⟩, hused⟩, hle, rfl⟩
      dsimp only at hlen hused hle ⊢
      subst hused
      rw [List.drop_left] at hle ⊢
      exact ⟨_, _, bytes, rfl, by rwa [List.length_take_of_le hle],
        by rw [List.take_append_drop]⟩
    · rintro ⟨f, g, bytes, rfl, hlen, rfl⟩
      refine ⟨(f.length, bytes.length), ⟨bytes, hlen, List.prefix_append _ _, rfl⟩, ?_⟩
      dsimp only
      rw [List.drop_left, List.take_left, List.drop_left, List.length_append]
      exact ⟨Nat.le_add_right _ _, rfl⟩

theorem parseOpusPacketFrames_yields {toc : UInt8} {body : List UInt8}
    (h : (toc :: body).length ≤ OPUS_ENCODED_PACKET_MAX_BYTES) :
    Yields (parseOpusPacketFrames host (toc :: body)) (Framed toc · body) := by
  refine Yields.step (index_ok (x := toc) rfl)
    (Yields.step (slice_from_ok (Nat.le_add_left 1 body.length)) ?_)
  have hcode := and_three toc
  simp only [List.drop_succ_cons, List.drop_zero]
  split
  · next h0 =>
    rw [h0] at hcode
    exact (yields_pure _).congr fun frames => (framed_single_iff hcode.symm).symm
  · next h1 =>
    rw [h1] at hcode
    exact code1Frames_yields hcode.symm
  · next h2 =>
    rw [h2] at hcode
    exact code2Frames_yields hcode.symm
  · next h3 =>
    rw [h3] at hcode
    exact parseCode3PacketFrames_yields hcode.symm h
  · next h0 h1 h2 h3 =>
    have hlt : code toc < 4 := Nat.mod_lt _ (by decide)
    have hne : ∀ n : UInt8, toc &&& 0x03 ≠ n → code toc ≠ n.toNat :=
      fun n hn he => hn (UInt8.toNat_inj.1 (hcode.trans he))
    have hne0 : code toc ≠ 0 := hne 0 h0
    have hne1 : code toc ≠ 1 := hne 1 h1
    have hne2 : code toc ≠ 2 := hne 2 h2
    have hne3 : code toc ≠ 3 := hne 3 h3
    omega

/-! ## Inspection -/

theorem checkFrameSizes_yields {index : Nat} {frames : List (List UInt8)} :
    Yields (checkFrameSizes index frames) fun _ => ∀ f ∈ frames, f.length ≤ 1275 := by
  induction frames generalizing index with
  | nil => exact (yields_pure ()).congr fun _ => ⟨fun _ => nofun, fun _ => rfl⟩
  | cons f fs ih =>
    refine (Yields.guard fun _ => ih).congr fun _ => ?_
    rw [List.forall_mem_cons, OPUS_ENCODED_FRAME_MAX_BYTES, Nat.not_lt]

/-- What inspection says of a packet with this TOC byte and these frames. -/
def inspection (toc : UInt8) (frames : List (List UInt8)) : InspectedOpusPacket where
  toc := toc
  channels := if isStereo toc then 2 else 1
  samplesPerFrame48k := frameSamples toc
  durationSamples48k := frameSamples toc * frames.length
  frames := frames

theorem inspectOpusPacket_yields (host : Host) (packet : List UInt8) :
    Yields (inspectOpusPacket host packet) fun inspected =>
      ∃ toc body frames, packet = toc :: body ∧ packet.length ≤ 61440 ∧ Framed toc frames body ∧
        (∀ f ∈ frames, f.length ≤ 1275) ∧ frameSamples toc * frames.length ≤ 5760 ∧
        inspected = inspection toc frames := by
  cases packet with
  | nil =>
    refine (yields_fail _).congr fun inspected => ⟨False.elim, ?_⟩
    rintro ⟨toc, body, frames, hpacket, -⟩
    cases hpacket
  | cons toc body =>
    refine (Yields.guard fun _ => Yields.guard fun hlen => Yields.step (index_ok (x := toc) rfl)
      ((parseOpusPacketFrames_yields (Nat.le_of_not_lt hlen)).bind fun frames hframed =>
        checkFrameSizes_yields.bind fun _ _ => Yields.step (checkedMul_ok ?_)
          (Yields.guard fun _ => Yields.guard fun _ => yields_pure _))).congr fun inspected => ?_
    · have h1 := (frameSamples_quanta toc).2.1
      have h2 := hframed.frames_count.2
      have h3 := Nat.mul_le_mul h1 h2
      have := host.thirtyTwoBits
      rw [samplesPerFrame_eq]
      omega
    · have hchannels : (if toc &&& 0x04 = 0 then (1 : UInt8) else 2) =
          if isStereo toc then 2 else 1 := by
        simp only [stereo_bit_iff, ite_not]
      rw [samplesPerFrame_eq, hchannels]
      constructor
      · rintro ⟨-, hlen, frames, hframed, -, hsizes, hmax, -, rfl⟩
        exact ⟨toc, body, frames, rfl, Nat.le_of_not_lt hlen, hframed, hsizes,
          Nat.le_of_not_lt hmax, rfl⟩
      · rintro ⟨toc', body', frames, hpacket, hlen, hframed, hsizes, hmax, hinspected⟩
        obtain ⟨rfl, rfl⟩ := List.cons.inj hpacket
        refine ⟨nofun, Nat.not_lt.2 hlen, frames, hframed, (), hsizes, Nat.not_lt.2 hmax, ?_,
          hinspected⟩
        -- every duration is a positive multiple of 2.5 milliseconds, so the last check passes
        obtain ⟨hpos, -, hquanta⟩ := frameSamples_quanta toc
        have hdvd : 120 ∣ frameSamples toc * frames.length :=
          Nat.dvd_trans (Nat.dvd_of_mod_eq_zero hquanta) (Nat.dvd_mul_right _ _)
        have hmul : 0 < frameSamples toc * frames.length :=
          Nat.mul_pos hpos hframed.frames_count.1
        omega

/-- **Inspection accepts exactly the framing of RFC 6716**, within the three limits, and parts the
packet into header, frames and padding. -/
theorem inspect_accepts (host : Host) (packet : List UInt8) :
    (∀ frames, (∃ inspected, inspectOpusPacket host packet = .ok inspected ∧
        inspected.frames = frames) ↔
      1 ≤ packet.length ∧ packet.length ≤ 61440 ∧ ∃ toc header padding,
        packet = toc :: (header ++ frames.flatten ++ padding) ∧
        Header toc frames header padding ∧ (∀ f ∈ frames, f.length ≤ 1275) ∧
        frames.length * frameSamples toc ≤ 5760) ∧
    inspectOpusPacket host packet ≠ .error .panic := by
  have hyields := inspectOpusPacket_yields host packet
  refine ⟨fun frames => ?_, hyields.inRange⟩
  constructor
  · rintro ⟨inspected, hok, rfl⟩
    obtain ⟨toc, body, frames, rfl, hlen, ⟨header, padding, hhead, rfl⟩, hsizes, hmax, rfl⟩ :=
      (hyields.ok_iff inspected).1 hok
    rw [Nat.mul_comm] at hmax
    exact ⟨Nat.le_add_left 1 _, hlen, toc, header, padding, rfl, hhead, hsizes, hmax⟩
  · rintro ⟨-, hlen, toc, header, padding, rfl, hhead, hsizes, hmax⟩
    rw [Nat.mul_comm] at hmax
    exact ⟨inspection toc frames, (hyields.ok_iff _).2
      ⟨toc, _, frames, rfl, hlen, ⟨header, padding, hhead, rfl⟩, hsizes, hmax, rfl⟩, rfl⟩

/-- Three frames of one byte, with one byte of padding. -/
example :
    (inspectOpusPacket ⟨4294967295, Nat.le_refl _⟩ [0xfb, 0x43, 1, 7, 8, 9, 0]).map
      (fun inspected => (inspected.frames, inspected.durationSamples48k)) =
      .ok ([[7], [8], [9]], 2880) := by
  decide +kernel

end Opus

end Lxst
