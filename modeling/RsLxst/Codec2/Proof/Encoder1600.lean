import RsLxst.Codec2.Proof.Decoder1600
import RsLxst.Codec2.Proof.Encoder

/-!
# From the encoder of mode 1600 to its decoder

Each line spectral pair is quantized on its own, and the repairs of the decoder leave entries that
keep their distance as they are (`repair_apart`).
-/

set_option autoImplicit false

namespace Lxst.Codec2

theorem narrow_lspCb : ∀ i < LPC_ORD, (codebookAt lspCb i).log2m ≤ 16 := by decide

theorem entry_le : ∀ i < LPC_ORD, ∀ c ∈ (codebookAt lspCb i).cb, c ≤ 3500 := by decide

/-- For line spectral pairs between zero and `π`, the encoder finds a nearest entry. -/
theorem entry_near {lsps : List ℝ}
    (hrange : ∀ i < LPC_ORD, 0 ≤ lsps.getD i 0 ∧ lsps.getD i 0 ≤ Real.pi) {indexes : List Nat}
    (h : Indexes lspCb indexes) {i : Nat} (hi : i < LPC_ORD) :
    Near (codebookAt lspCb i) (hzAt realMath.toFloatMath lsps i) := by
  obtain ⟨hlow, hhigh⟩ := hz_range (hrange i hi)
  have hcode := h.code_mem hi
  have hle : (codeAt lspCb indexes i : ℝ) ≤ 3500 := by exact_mod_cast entry_le i hi _ hcode
  have hpos : (0 : ℝ) ≤ codeAt lspCb indexes i := Nat.cast_nonneg _
  apply near_of_le hcode
  rw [abs_le]
  exact ⟨by linarith, by linarith⟩

/-- The separation of two entries in Hz. -/
def separationHz (i : Nat) : Nat := if i < 4 then 50 else 100

theorem expanded_apart {lsp : List ℝ}
    (h : ∀ i, 1 ≤ i → i < LPC_ORD → lsp.getD (i - 1) 0 + separation1600 i ≤ lsp.getD i 0) {i : Nat}
    (hi : i < LPC_ORD) : expanded separation1600 lsp i = lsp.getD i 0 := by
  induction i with
  | zero => rfl
  | succ i ih =>
    have hstep := h (i + 1) (by omega) hi
    rw [Nat.add_sub_cancel] at hstep
    rw [expanded, ih (by omega)]
    exact max_eq_left hstep

/-- Entries that keep their distance pass the repairs as they are. -/
theorem repair_apart {indexes : List Nat} (h : Indexes lspCb indexes)
    (hapart : ∀ i, 1 ≤ i → i < LPC_ORD →
      codeAt lspCb indexes (i - 1) + separationHz i ≤ codeAt lspCb indexes i)
    {fuel swaps : Nat} (hfuel : orderTurns LPC_ORD < fuel) {decoded ordered lsp : List ℝ}
    (hdecoded : decodeLspsScalar realMath.toFloatMath lsps₀ indexes LPC_ORD = some decoded)
    (hordered : checkLspOrder fuel decoded LPC_ORD = some (ordered, swaps))
    (hlsp : bwExpandLsps realMath.toFloatMath ordered LPC_ORD (50 : Nat) (100 : Nat) = some lsp)
    {i : Nat} (hi : i < LPC_ORD) :
    hzAt realMath.toFloatMath lsp i = codeAt lspCb indexes i := by
  have hpi : 0 < realMath.pi := Real.pi_pos
  obtain ⟨decoded', hrun, hfilled⟩ := @decodeLspsScalar_eq ℝ _ realMath.toFloatMath indexes lsps₀
    h (by simp [lsps₀])
  obtain rfl : decoded' = decoded := Option.some.inj (hrun.symm.trans hdecoded)
  have hlength : decoded'.length = LPC_ORD := by simpa [lsps₀] using hfilled.length
  have hget (i : Nat) (hi : i < LPC_ORD) :
      decoded'.getD i 0 = realMath.pi / 4000 * codeAt lspCb indexes i := by
    exact hfilled.getD_in (Nat.zero_le i) (by omega) 0
  have hseparation (i : Nat) : separation1600 i = realMath.pi / 4000 * separationHz i := by
    unfold separation1600 separationAt separationHz
    split <;> push_cast <;> ring
  have hspaced (i : Nat) (hone : 1 ≤ i) (hi : i < LPC_ORD) :
      decoded'.getD (i - 1) 0 + separation1600 i ≤ decoded'.getD i 0 := by
    have hcast : (codeAt lspCb indexes (i - 1) : ℝ) + separationHz i ≤ codeAt lspCb indexes i := by
      exact_mod_cast hapart i hone hi
    rw [hget i hi, hget (i - 1) (by omega), hseparation, ← mul_add]
    exact mul_le_mul_of_nonneg_left hcast (by positivity)
  have hturns : LPC_ORD - 1 < fuel := by
    unfold orderTurns at hfuel
    omega
  have hascends (i : Nat) (hone : 1 ≤ i) (hi : i < LPC_ORD) :
      decoded'.getD (i - 1) 0 ≤ decoded'.getD i 0 := by
    have hsep := separation1600_pos i
    linarith [hspaced i hone hi]
  have hsame : checkOrderLoop LPC_ORD fuel decoded' 0 1 = some (decoded', 0) :=
    checkOrderLoop_ascending hascends hlength.ge (Nat.le_refl 1) hturns
  rw [checkLspOrder, hsame] at hordered
  obtain ⟨rfl, -⟩ := Prod.mk.inj (Option.some.inj hordered)
  obtain ⟨lsp', hrun', hfilled'⟩ := @bwExpandLsps_eq ℝ _ _ _ realMath.toFloatMath decoded' LPC_ORD
    (by decide) hlength.ge (50 : Nat) (100 : Nat)
  obtain rfl : lsp' = lsp := Option.some.inj (hrun'.symm.trans hlsp)
  have hexpanded := expanded_apart hspaced hi
  rw [hzAt, hfilled'.getD_in (Nat.zero_le i) (by omega)]
  show ((4000 : Nat) : ℝ) / realMath.pi * expanded separation1600 decoded' i = _
  rw [hexpanded, hget i hi]
  push_cast
  field_simp

/-- The entry for the pair `i` whose index is in a frame, after the eight fields of voicing, pitch
and energy. -/
def sentCode (values : List (BitVec 32)) (i : Nat) : Nat :=
  codeAt lspCb ((values.drop 8).map BitVec.toNat) i

/-- The fields that the encoder packs. -/
noncomputable def sentFields (voiced0 : BitVec 32) (frame1 : Analysis ℝ) (voiced2 : BitVec 32)
    (frame3 : Analysis ℝ) (indexes : List Nat) : List (BitVec 32) :=
  [voiced0, frame1.voiced, index32 (encodeWo realMath frame1.Wo WO_BITS),
    index32 (encodeEnergy realMath frame1.e E_BITS), voiced2, frame3.voiced,
    index32 (encodeWo realMath frame3.Wo WO_BITS),
    index32 (encodeEnergy realMath frame3.e E_BITS)] ++
      (indexes.take LSP_SCALAR_INDEXES).map (BitVec.ofNat 32)

/-- They fit their widths, and the indexes are read back. -/
theorem sentFields_spec {voiced0 voiced2 : BitVec 32} {frame1 frame3 : Analysis ℝ}
    (hvoiced0 : voiced0.toNat < 2) (hvoiced1 : frame1.voiced.toNat < 2)
    (hvoiced2 : voiced2.toNat < 2) (hvoiced3 : frame3.voiced.toNat < 2) {indexes : List Nat}
    (h : Indexes lspCb indexes) (hlength : indexes.length = LPC_ORD) :
    FitWidths (sentFields voiced0 frame1 voiced2 frame3 indexes) widths1600 ∧
      ((indexes.take LSP_SCALAR_INDEXES).map (BitVec.ofNat 32)).map BitVec.toNat = indexes ∧
      ∀ i, sentCode (sentFields voiced0 frame1 voiced2 frame3 indexes) i =
        codeAt lspCb indexes i := by
  obtain ⟨hfitLsps, hback⟩ := h.fit scalar_lspCb narrow_lspCb hlength
  have hwo1 := (encodeWo_spec frame1.Wo).1
  have he1 := (encodeEnergy_spec frame1.e).1
  have hwo3 := (encodeWo_spec frame3.Wo).1
  have he3 := (encodeEnergy_spec frame3.e).1
  refine ⟨.cons hvoiced0 (.cons hvoiced1 (.cons hwo1 (.cons he1 (.cons hvoiced2 (.cons hvoiced3
    (.cons hwo3 (.cons he3 hfitLsps))))))), hback, fun i => ?_⟩
  rw [sentCode, sentFields, List.drop_left' (by rfl)]
  exact congrArg (codeAt lspCb · i) hback

/-- **From the encoder to the decoder.** A frame takes eight bytes, and whatever the decoder
remembers, it decodes them to the voicing that was sent and to pitches and energies within one
step. The indexes in the frame are those of the nearest entries of the codebooks, and if these keep
their distance, it decodes them to these. -/
theorem encode_1600_nearest {voiced0 voiced2 : BitVec 32} {frame1 frame3 : Analysis ℝ}
    (hvoiced0 : voiced0.toNat < 2) (hvoiced1 : frame1.voiced.toNat < 2)
    (hvoiced2 : voiced2.toNat < 2) (hvoiced3 : frame3.voiced.toNat < 2)
    (hlsps : LPC_ORD ≤ frame3.lsps.length)
    (hrange : ∀ i < LPC_ORD, 0 ≤ frame3.lsps.getD i 0 ∧ frame3.lsps.getD i 0 ≤ Real.pi)
    {memory : Codec2Internal ℝ} (hmemory : LPC_ORD ≤ memory.prevLspsDec.length) {fuel : Nat}
    (hfuel : orderTurns LPC_ORD < fuel) :
    ∃ bits values received0 received1 received2 received3 memory',
      encode1600 realMath voiced0 frame1 voiced2 frame3 = some bits ∧ bits.length = frameBytes ∧
      readFrame bits widths1600 = some values ∧
      decode1600 realMath fuel memory bits =
        some ([received0, received1, received2, received3], memory') ∧
      Received frame1 received1 ∧ Received frame3 received3 ∧
      (∀ i < LPC_ORD,
        Nearest (codebookAt lspCb i) (hzAt realMath.toFloatMath frame3.lsps i)
          (sentCode values i)) ∧
      ((∀ i, 1 ≤ i → i < LPC_ORD →
          sentCode values (i - 1) + separationHz i ≤ sentCode values i) →
        ∀ i < LPC_ORD, hzAt realMath.toFloatMath received3.lsps i = sentCode values i) := by
  obtain ⟨indexes, hencode, hencoded⟩ := encodeLspsScalar_eq realMath.toFloatMath hlsps
  have hindexes := hencoded.indexes
  obtain ⟨hfit, hback, hsent⟩ := sentFields_spec hvoiced0 hvoiced1 hvoiced2 hvoiced3 hindexes
    hencoded.length
  obtain ⟨bits, hwrite, hlength, hread⟩ := writeFrame_readFrame frameWidths1600 hfit
  -- the decoder
  obtain ⟨decoded, ordered, swaps, lsps3, hdecode, horder, hexpand, hspaced3, -, -⟩ :=
    repair_eq hindexes hfuel
  have hrepaired : (∀ i, 1 ≤ i → i < LPC_ORD →
      codeAt lspCb indexes (i - 1) + separationHz i ≤ codeAt lspCb indexes i) →
      ∀ i < LPC_ORD, hzAt realMath.toFloatMath lsps3 i = codeAt lspCb indexes i :=
    fun hapart i hi => repair_apart hindexes hapart hfuel hdecode horder hexpand hi
  rw [← hback] at hdecode
  have hbetween (i : Nat) : ∃ lsps, interpolateLspVer2 lsps₀ memory.prevLspsDec lsps3
      (1 / (4 : Nat) + i * (1 / (4 : Nat))) LPC_ORD = some lsps ∧ lsps.length = LPC_ORD := by
    obtain ⟨lsps, hrun, hfilled⟩ := @interpolateLspVer2_eq ℝ _ lsps₀ memory.prevLspsDec lsps3
      LPC_ORD (1 / (4 : Nat) + i * (1 / (4 : Nat))) (by simp [lsps₀]) hmemory hspaced3.length.ge
    exact ⟨lsps, hrun, by simpa [lsps₀] using hfilled.length⟩
  obtain ⟨lsps0, hinterp0, hlength0⟩ := hbetween 0
  obtain ⟨lsps1, hinterp1, hlength1⟩ := hbetween 1
  obtain ⟨lsps2, hinterp2, hlength2⟩ := hbetween 2
  obtain ⟨received0, hframe0, -, -, -⟩ := synthesis_eq realMath (interpWo realMath
    (voicedModel realMath voiced0) memory.prevModelDec (decodedModel realMath frame1.voiced
      (index32 (encodeWo realMath frame1.Wo WO_BITS))) (woMin realMath))
    (interpEnergy realMath memory.prevEDec (decodeEnergy realMath
      (index32 (encodeEnergy realMath frame1.e E_BITS)).toInt E_BITS)) hlength0
  obtain ⟨received1, hframe1, hmodel1, henergy1, -⟩ := synthesis_eq realMath
    (decodedModel realMath frame1.voiced (index32 (encodeWo realMath frame1.Wo WO_BITS)))
    (decodeEnergy realMath (index32 (encodeEnergy realMath frame1.e E_BITS)).toInt E_BITS) hlength1
  obtain ⟨received2, hframe2, -, -, -⟩ := synthesis_eq realMath (interpWo realMath
    (voicedModel realMath voiced2) (decodedModel realMath frame1.voiced
      (index32 (encodeWo realMath frame1.Wo WO_BITS))) (decodedModel realMath frame3.voiced
      (index32 (encodeWo realMath frame3.Wo WO_BITS))) (woMin realMath))
    (interpEnergy realMath (decodeEnergy realMath
      (index32 (encodeEnergy realMath frame1.e E_BITS)).toInt E_BITS) (decodeEnergy realMath
      (index32 (encodeEnergy realMath frame3.e E_BITS)).toInt E_BITS)) hlength2
  obtain ⟨received3, hframe3, hmodel3, henergy3, hdecoded3⟩ := synthesis_eq realMath
    (decodedModel realMath frame3.voiced (index32 (encodeWo realMath frame3.Wo WO_BITS)))
    (decodeEnergy realMath (index32 (encodeEnergy realMath frame3.e E_BITS)).toInt E_BITS)
    hspaced3.length
  refine ⟨bits, sentFields voiced0 frame1 voiced2 frame3 indexes, received0, received1, received2, received3, _, ?_, hlength, hread,
    decode1600_eq realMath hread hdecode horder hexpand hinterp0 hinterp1 hinterp2 hframe0 hframe1
      hframe2 hframe3, received_of_indexes hmodel1 henergy1, received_of_indexes hmodel3 henergy3,
    fun i hi => ?_, ?_⟩
  · rw [encode1600, bind_of_some hencode]
    exact hwrite
  · rw [hsent]
    exact hencoded.nearest i hi (entry_near hrange hindexes hi)
  · simp only [hsent, hdecoded3]
    exact hrepaired

/-- Frames with evenly spaced line spectral pairs, to a decoder that has just begun. -/
theorem encode_1600_nearest_even :
    let lsps : List ℝ := (List.range LPC_ORD).map fun i : Nat => ((i : ℝ) + 1) * Real.pi / 11
    let frame1 : Analysis ℝ := { voiced := 1, Wo := Real.pi / 40, e := 1, lsps := [] }
    let frame3 : Analysis ℝ := { voiced := 0, Wo := Real.pi / 50, e := 2, lsps }
    ∃ bits values received0 received1 received2 received3 memory',
      encode1600 realMath 1 frame1 0 frame3 = some bits ∧ bits.length = frameBytes ∧
      readFrame bits widths1600 = some values ∧
      decode1600 realMath 1000 (.initialise realMath) bits =
        some ([received0, received1, received2, received3], memory') ∧
      Received frame1 received1 ∧ Received frame3 received3 ∧
      (∀ i < LPC_ORD,
        Nearest (codebookAt lspCb i) (hzAt realMath.toFloatMath frame3.lsps i)
          (sentCode values i)) ∧
      ((∀ i, 1 ≤ i → i < LPC_ORD →
          sentCode values (i - 1) + separationHz i ≤ sentCode values i) →
        ∀ i < LPC_ORD, hzAt realMath.toFloatMath received3.lsps i = sentCode values i) := by
  intro lsps frame1 frame3
  exact encode_1600_nearest (by decide) (by decide) (by decide) (by decide)
    (by simp [frame3, lsps]) even_range (by simp [Codec2Internal.initialise]) (by decide)

end Lxst.Codec2
