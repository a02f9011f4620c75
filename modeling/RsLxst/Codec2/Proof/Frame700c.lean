import RsLxst.Codec2.Proof.BitFields
import RsLxst.Codec2.Proof.Newamp1

/-!
# The bits of a 700C frame

The indexes that `encode_model` chooses fit the widths that they are packed in, whatever the
arithmetic does (`encodeModel_indexes`), so a frame is read back and its padding is zero.
-/

set_option autoImplicit false

namespace Lxst.Codec2

open Checked BitString MBest

/-! ## The range of the indexes -/

theorem index_lt_of_mem_zipIdx {α : Type} {xs : List α} {p : α × Nat} (h : p ∈ xs.zipIdx) :
    p.2 < xs.length := (List.mem_zipIdx' h).1

theorem exists_mapM {α β : Type} {f : α → Option β} {as : List α}
    (h : ∀ a ∈ as, ∃ b, f a = some b) : ∃ bs, as.mapM f = some bs := by
  induction as with
  | nil => exact ⟨[], rfl⟩
  | cons a as ih =>
    obtain ⟨⟨b, hb⟩, hrest⟩ := List.forall_mem_cons.mp h
    obtain ⟨bs, hbs⟩ := ih hrest
    exact ⟨b :: bs, by simp [List.mapM_cons, hb, hbs]⟩

theorem exists_residual {F : Type} [Sub F] {vq1 : Codebook F} {first : Nat}
    (h : first < vq1.length) (target : Vector F K) :
    ∃ left, residual vq1 target first = some left := by
  rw [residual, List.getElem?_eq_getElem h]
  exact ⟨_, rfl⟩

theorem energyIndex_lt {F : Type} [Sub F] [Mul F] [LT F] [DecidableLT F] {energies : List F}
    (henergies : 0 < energies.length) (max mean : F) :
    energyIndex energies max mean < energies.length := by
  unfold energyIndex
  apply List.foldlRecOn (motive := fun kept : F × Nat => kept.2 < energies.length)
  · exact henergies
  · intro kept hkept entry hentry
    have hindex := index_lt_of_mem_zipIdx hentry
    dsimp only
    rcases better_cases kept ((entry.1 - mean) * (entry.1 - mean), entry.2) with heq | heq
    · rw [heq]
      exact hindex
    · rw [heq]
      exact hkept

section
variable {F : Type} [Zero F] [Add F] [Sub F] [Mul F] [LT F] [DecidableLT F] [LE F] [DecidableLE F]

theorem quantizeBest_lt {vq1 : Codebook F} (hvq1 : 0 < vq1.length) (start : F)
    (target : Vector F K) :
    ∀ candidate ∈ (quantizeBest vq1 start target).toList, candidate.2 < vq1.length := by
  unfold quantizeBest
  apply List.foldlRecOn (motive := fun best : Vector (F × Nat) 5 =>
    ∀ candidate ∈ best.toList, candidate.2 < vq1.length)
  · intro candidate h
    simp only [Vector.toList_replicate, List.mem_replicate] at h
    rw [h.2]
    exact hvq1
  · intro best hbest entry hentry candidate h
    rcases mem_insert h with rfl | h
    · exact index_lt_of_mem_zipIdx hentry
    · exact hbest candidate h

theorem quantizeWinners_lt {vq2 : Codebook F} (hvq2 : 0 < vq2.length) (start : F)
    (residuals : List (Vector F K)) :
    ∀ winner ∈ quantizeWinners vq2 start residuals, winner.2 < vq2.length := by
  unfold quantizeWinners
  apply List.foldlRecOn (motive := fun winners : List (F × Nat) =>
    ∀ winner ∈ winners, winner.2 < vq2.length)
  · intro winner h
    rw [(List.mem_replicate.mp h).2]
    exact hvq2
  · intro winners hwinners entry hentry winner h
    obtain ⟨left, kept, hkept, rfl⟩ : ∃ left, ∃ kept ∈ winners,
        better kept (squaredError entry.1 left kept.1, entry.2) = winner := by
      obtain ⟨n, hn, rfl⟩ := List.mem_iff_getElem.mp h
      rw [List.getElem_zipWith]
      exact ⟨_, _, List.getElem_mem _, rfl⟩
    rcases better_cases kept (squaredError entry.1 left kept.1, entry.2) with heq | heq
    · rw [heq]
      exact index_lt_of_mem_zipIdx hentry
    · rw [heq]
      exact hwinners kept hkept

/-- The search finds vectors of both codebooks. -/
theorem quantize_lt {vq1 vq2 : Codebook F} (hvq1 : 0 < vq1.length) (hvq2 : 0 < vq2.length)
    (start : F) (target : Vector F K) :
    ∃ first second, quantize vq1 vq2 start target = some (first, second) ∧
      first < vq1.length ∧ second < vq2.length := by
  have hbest := quantizeBest_lt hvq1 start target
  obtain ⟨residuals, hresiduals⟩ := exists_mapM fun candidate h =>
    exists_residual (hbest candidate h) target
  have hwinners := quantizeWinners_lt hvq2 start residuals
  rw [quantize_eq, hresiduals]
  refine ⟨_, _, rfl, ?_⟩
  apply List.foldlRecOn (motive := fun result : F × Nat × Nat =>
    result.2.1 < vq1.length ∧ result.2.2 < vq2.length)
  · exact ⟨hvq1, hvq2⟩
  · rintro result hresult ⟨candidate, winner⟩ h
    obtain ⟨hcandidate, hwinner⟩ := List.of_mem_zip h
    dsimp only
    rcases better_cases result (paired candidate.2 winner) with heq | heq
    · rw [heq]
      exact ⟨hbest candidate hcandidate, hwinners winner hwinner⟩
    · rw [heq]
      exact hresult

variable [Div F] [NatCast F]

/-- The four indexes of a frame, in any arithmetic. -/
theorem encodeModel_indexes {vq1 vq2 : Codebook F} {energies : List F}
    (hvq1 : vq1.length = 512) (hvq2 : vq2.length = 512) (henergies : energies.length = 16)
    (start max : F) (levels : Vector F K) (pitch : BitVec 32) :
    ∃ first second energy : BitVec 32,
      encodeModel vq1 vq2 energies start max levels pitch = some [first, second, energy, pitch] ∧
        first.toNat < 512 ∧ second.toNat < 512 ∧ energy.toNat < 16 := by
  have hofNat : ∀ {n bound : Nat}, n < bound → bound ≤ 512 → (BitVec.ofNat 32 n).toNat < bound := by
    intro n bound hn hbound
    rw [BitVec.toNat_ofNat]
    omega
  have hpos1 : 0 < vq1.length := by omega
  have hpos2 : 0 < vq2.length := by omega
  have hpos3 : 0 < energies.length := by omega
  obtain ⟨first, second, hquantize, hfirst, hsecond⟩ := quantize_lt hpos1 hpos2 start
    (levels.map (· - levels.toList.foldl (· + ·) 0 / (K : F)))
  have henergy := energyIndex_lt hpos3 max (levels.toList.foldl (· + ·) 0 / (K : F))
  refine ⟨_, _, _, ?_, hofNat (hvq1 ▸ hfirst) (by omega), hofNat (hvq2 ▸ hsecond) (by omega),
    hofNat (henergies ▸ henergy) (by omega)⟩
  rw [encodeModel, hquantize]
  rfl

end

theorem pitchIndex_lt (voiced : Bool) (floor : Option Int) :
    (pitchIndex voiced floor).toNat < 64 := by
  cases voiced with
  | false => exact Nat.zero_lt_succ 63
  | true =>
    cases floor with
    | none => decide
    | some level =>
      show (BitVec.ofInt 32 (max 1 (min level 63))).toNat < 64
      rw [BitVec.toNat_ofInt]
      omega

/-! ## The frame -/

/-- The packed fields are read back, and the bits after them are zero. -/
def RoundTrips (size : Nat) (fields : List BitField) : Prop :=
  ∃ packed, packFields (List.replicate size 0) 0 fields = .ok (packed, totalWidth fields) ∧
    unpackFields packed 0 (fields.map BitField.shape) =
      .ok (fields.map BitField.value, totalWidth fields) ∧
    packed.length = size ∧ ∀ i, totalWidth fields ≤ i → bitAt packed i = false

theorem roundTrips {size : Nat} {fields : List BitField}
    (hfields : ∀ field ∈ fields, field.Fits) (hsize : totalWidth fields ≤ 8 * size)
    (hindex : totalWidth fields ≤ U32_MAX) : RoundTrips size fields := by
  have hzeros : ∀ i, 0 ≤ i → bitAt (List.replicate size 0) i = false :=
    fun i _ => bitAt_zeros size i
  have hlength : (List.replicate size (0 : UInt8)).length = size := List.length_replicate
  obtain ⟨packed, hpacked, hsame, hvalues, -, hclear⟩ := packFields_spec hfields
    (by rw [hlength, Nat.zero_add]; exact hsize) (by rw [Nat.zero_add]; exact hindex) hzeros
  rw [Nat.zero_add] at hpacked hvalues hclear
  exact ⟨packed, hpacked, hvalues, hsame.trans hlength, hclear⟩

theorem not_roundTrips {size : Nat} {fields : List BitField}
    (hindex : U32_MAX < totalWidth fields) : ¬ RoundTrips size fields := by
  intro ⟨packed, _, hvalues, _⟩
  have hle := unpackFields_index_le hvalues (Nat.zero_le _)
  omega

theorem totalWidth_replicate (n : Nat) (field : BitField) :
    totalWidth (List.replicate n field) = n * field.width := by
  induction n with
  | zero => rw [Nat.zero_mul]; rfl
  | succ n ih =>
    have hcons : totalWidth (List.replicate (n + 1) field) =
        field.width + totalWidth (List.replicate n field) := rfl
    rw [hcons, ih, Nat.succ_mul, Nat.add_comm]

/-- Zero bits at the end of the fourth byte. -/
theorem padding_zero {bits : List UInt8} (h : ∀ i, 28 ≤ i → bitAt bits i = false) :
    bits.getD 3 0 &&& 0x0F = 0 := by
  apply UInt8.toNat_inj.mp
  rw [UInt8.toNat_and]
  apply Nat.eq_of_testBit_eq
  intro j
  have hzero : (0 : UInt8).toNat = 0 := rfl
  rw [hzero, Nat.testBit_and, Nat.zero_testBit]
  by_cases hj : j < 4
  · have hbit := h (31 - j) (by omega)
    have hbyte : (31 - j) / 8 = 3 := by omega
    have hpos : 7 - (31 - j) % 8 = j := by omega
    rw [bitAt, hbyte, hpos] at hbit
    rw [hbit, Bool.false_and]
  · have hmask : (0x0F : UInt8).toNat = 2 ^ 4 - 1 := rfl
    rw [hmask, Nat.testBit_two_pow_sub_one, decide_eq_false hj, Bool.and_false]

/-- The fields of a frame. -/
def frameFields (indexes : List (BitVec 32)) : List BitField :=
  (indexes.zip indexWidths).map fun (value, width) => { value, width, gray := 0 }

theorem frame_round_trips {first second energy pitch : BitVec 32} (hfirst : first.toNat < 512)
    (hsecond : second.toNat < 512) (henergy : energy.toNat < 16) (hpitch : pitch.toNat < 64)
    {bits : List UInt8} (hbits : 4 ≤ bits.length) :
    ∃ packed, writeIndexes bits [first, second, energy, pitch] = .ok (packed, 28) ∧
      readIndexes packed = .ok ([first, second, energy, pitch], 28) ∧
      packed.length = bits.length ∧ packed.getD 3 0 &&& 0x0F = 0 := by
  have hfields : ∀ field ∈ frameFields [first, second, energy, pitch], field.Fits := by
    show ∀ field ∈ [(⟨first, 9, 0⟩ : BitField), ⟨second, 9, 0⟩, ⟨energy, 4, 0⟩, ⟨pitch, 6, 0⟩],
      field.Fits
    simp only [List.forall_mem_cons, BitField.Fits]
    exact ⟨⟨hfirst, by omega⟩, ⟨hsecond, by omega⟩, ⟨henergy, by omega⟩, ⟨hpitch, by omega⟩, nofun⟩
  have htotal : totalWidth (frameFields [first, second, energy, pitch]) = 28 := rfl
  obtain ⟨packed, hpacked, hvalues, hlength, hclear⟩ := roundTrips hfields
    (show _ ≤ 8 * bits.length by omega) (by rw [htotal]; decide)
  rw [htotal] at hpacked hvalues hclear
  exact ⟨packed, hpacked, hvalues, hlength, padding_zero hclear⟩

/-- **Fields come back from their bits**, where the bit index of the unpacker can count them; so do
the indexes of a 700C frame, and its padding is zero. -/
theorem bit_fields_round_trip {F : Type} [Zero F] [Add F] [Sub F] [Mul F] [LT F] [DecidableLT F]
    [LE F] [DecidableLE F] [Div F] [NatCast F] :
    (∀ (size : Nat) (fields : List BitField), (∀ field ∈ fields, field.Fits) →
      totalWidth fields ≤ 8 * size → totalWidth fields ≤ U32_MAX → RoundTrips size fields) ∧
    ∀ (vq1 vq2 : Codebook F) (energies : List F) (start max : F) (levels : Vector F K)
      (voiced : Bool) (floor : Option Int) (bits : List UInt8), vq1.length = 512 →
      vq2.length = 512 → energies.length = 16 → 4 ≤ bits.length →
      ∃ indexes packed,
        encodeModel vq1 vq2 energies start max levels (pitchIndex voiced floor) = some indexes ∧
        writeIndexes bits indexes = .ok (packed, 28) ∧
        readIndexes packed = .ok (indexes, 28) ∧
        packed.length = bits.length ∧ packed.getD 3 0 &&& 0x0F = 0 := by
  refine ⟨fun _ _ => roundTrips, ?_⟩
  intro vq1 vq2 energies start max levels voiced floor bits hvq1 hvq2 henergies hbits
  obtain ⟨first, second, energy, hindexes, hfirst, hsecond, henergy⟩ :=
    encodeModel_indexes hvq1 hvq2 henergies start max levels (pitchIndex voiced floor)
  obtain ⟨packed, hpacked, hread, hlength, hpadding⟩ :=
    frame_round_trips hfirst hsecond henergy (pitchIndex_lt voiced floor) hbits
  exact ⟨_, packed, hindexes, hpacked, hread, hlength, hpadding⟩

theorem bit_fields_round_trip_straddling :
    RoundTrips 2 [⟨5, 3, 1⟩, ⟨300, 9, 0⟩] ∧
      ∃ indexes packed,
        encodeModel (List.replicate 512 (Vector.replicate K (0 : Int)))
          (List.replicate 512 (Vector.replicate K 0)) (List.replicate 16 0) 1 1
          (Vector.replicate K 0) (pitchIndex true (some 70)) = some indexes ∧
        writeIndexes [0xA5, 0xA5, 0xA5, 0xA5] indexes = .ok (packed, 28) ∧
        readIndexes packed = .ok (indexes, 28) ∧
        packed.length = 4 ∧ packed.getD 3 0 &&& 0x0F = 0 := by
  have hfields : ∀ field ∈ [(⟨5, 3, 1⟩ : BitField), ⟨300, 9, 0⟩], field.Fits := by
    simp only [List.forall_mem_cons, BitField.Fits]
    exact ⟨by decide, by decide, nofun⟩
  have hall := bit_fields_round_trip (F := Int)
  exact ⟨hall.1 2 _ hfields (by decide) (by decide),
    hall.2 _ _ _ _ _ _ _ _ _ List.length_replicate List.length_replicate List.length_replicate
      (by decide)⟩

/-- Fields of 2³² bits fill an array that the bit index of the unpacker cannot run through. -/
theorem fields_not_roundTrips :
    (∀ field ∈ List.replicate (2 ^ 28) (⟨1, 16, 0⟩ : BitField), field.Fits) ∧
      totalWidth (List.replicate (2 ^ 28) (⟨1, 16, 0⟩ : BitField)) ≤ 8 * 2 ^ 29 ∧
      ¬ RoundTrips (2 ^ 29) (List.replicate (2 ^ 28) (⟨1, 16, 0⟩ : BitField)) := by
  have htotal := totalWidth_replicate (2 ^ 28) ⟨1, 16, 0⟩
  refine ⟨?_, ?_, not_roundTrips ?_⟩
  · intro field hfield
    rw [List.eq_of_mem_replicate hfield]
    exact ⟨by decide, by decide⟩
  · rw [htotal]
    decide
  · rw [htotal]
    decide

end Lxst.Codec2
