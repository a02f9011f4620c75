import RsLxst.Codec2.Proof.Decoder3200
import RsLxst.Codec2.Proof.Encoder

/-!
# From the encoder of mode 3200 to its decoder

The encoder keeps the frequencies that the decoder will have and quantizes the difference of each
line spectral pair to the one before it as it was decoded: the errors do not add up.
-/

set_option autoImplicit false

namespace Lxst.Codec2

open Fill

theorem narrow_lspCbd : ∀ i < LPC_ORD, (codebookAt lspCbd i).log2m ≤ 16 := by decide

theorem code_le : ∀ i < LPC_ORD, ∀ c ∈ (codebookAt lspCbd i).cb, c ≤ 1400 := by decide

/-- For line spectral pairs between zero and `π`, the encoder finds a nearest entry. -/
theorem differences_near {lsps : List ℝ}
    (hrange : ∀ i < LPC_ORD, 0 ≤ lsps.getD i 0 ∧ lsps.getD i 0 ≤ Real.pi) {indexes : List Nat}
    (h : Indexes lspCbd indexes) {i : Nat} (hi : i < LPC_ORD) :
    Near (codebookAt lspCbd i) (differenceAt realMath.toFloatMath lsps indexes i) := by
  obtain ⟨hlow, hhigh⟩ := hz_range (hrange i hi)
  have hsum (j : Nat) (hj : j < LPC_ORD) : (differenceSum indexes j : ℝ) ≤ 14000 := by
    have hle : differenceSum indexes j ≤ (Finset.range (j + 1)).card • 1400 := by
      apply Finset.sum_le_card_nsmul
      intro k hk
      simp only [Finset.mem_range] at hk
      exact code_le k (by omega) _ (h.code_mem (by omega))
    rw [Finset.card_range, smul_eq_mul] at hle
    have : differenceSum indexes j ≤ 14000 := by
      simp only [LPC_ORD] at hj
      omega
    exact_mod_cast this
  have hcode := h.code_mem hi
  have hcodeLe : (codeAt lspCbd indexes i : ℝ) ≤ 1400 := by exact_mod_cast code_le i hi _ hcode
  have hcodePos : (0 : ℝ) ≤ codeAt lspCbd indexes i := Nat.cast_nonneg _
  apply near_of_le hcode
  unfold differenceAt
  split
  · have hbefore := hsum (i - 1) (by omega)
    have hpos : (0 : ℝ) ≤ differenceSum indexes (i - 1) := Nat.cast_nonneg _
    rw [abs_le]
    exact ⟨by linarith, by linarith⟩
  · rw [abs_le]
    exact ⟨by linarith, by linarith⟩

/-- The frequency before the entry `i`. -/
noncomputable def hzBeforeAt (lsps : List ℝ) (i : Nat) : ℝ :=
  if i ≠ 0 then hzAt realMath.toFloatMath lsps (i - 1) else 0

theorem decoded_hz {decoded : List ℝ} {indexes : List Nat}
    (hdecoded : Filled 0 LPC_ORD
      (fun i => realMath.pi / (4000 : Nat) * differenceSum indexes i) lsps₀ decoded)
    {i : Nat} (hi : i < LPC_ORD) :
    hzAt realMath.toFloatMath decoded i = differenceSum indexes i := by
  have hpi : realMath.pi ≠ 0 := Real.pi_ne_zero
  rw [hzAt, hdecoded.getD_in (Nat.zero_le i) (by omega)]
  push_cast
  field_simp

/-- Each decoded frequency is the one before it and an entry of the codebook; the encoder looks for
what is left to it. -/
theorem decoded_step {lsps decoded : List ℝ} {indexes : List Nat}
    (hdecoded : Filled 0 LPC_ORD
      (fun i => realMath.pi / (4000 : Nat) * differenceSum indexes i) lsps₀ decoded)
    {i : Nat} (hi : i < LPC_ORD) :
    hzAt realMath.toFloatMath decoded i = hzBeforeAt decoded i + codeAt lspCbd indexes i ∧
      differenceAt realMath.toFloatMath lsps indexes i =
        hzAt realMath.toFloatMath lsps i - hzBeforeAt decoded i := by
  rw [decoded_hz hdecoded hi]
  unfold hzBeforeAt differenceAt
  cases i with
  | zero => simp [differenceSum]
  | succ k =>
    have hsum : differenceSum indexes (k + 1) =
        differenceSum indexes k + codeAt lspCbd indexes (k + 1) := Finset.sum_range_succ _ _
    rw [if_pos (Nat.succ_ne_zero k), if_pos (Nat.succ_ne_zero k), Nat.add_sub_cancel,
      decoded_hz hdecoded (by omega), hsum]
    push_cast
    exact ⟨rfl, rfl⟩

theorem decoded_nearest {lsps decoded : List ℝ} {indexes : List Nat}
    (hrange : ∀ i < LPC_ORD, 0 ≤ lsps.getD i 0 ∧ lsps.getD i 0 ≤ Real.pi)
    (h : Encoded lspCbd (differenceAt realMath.toFloatMath lsps) LPC_ORD indexes)
    (hdecoded : Filled 0 LPC_ORD
      (fun i => realMath.pi / (4000 : Nat) * differenceSum indexes i) lsps₀ decoded)
    {i : Nat} (hi : i < LPC_ORD) :
    ∃ code ∈ (codebookAt lspCbd i).cb,
      hzAt realMath.toFloatMath decoded i = hzBeforeAt decoded i + code ∧
      ∀ c ∈ (codebookAt lspCbd i).cb,
        |hzAt realMath.toFloatMath decoded i - hzAt realMath.toFloatMath lsps i| ≤
          |hzBeforeAt decoded i + c - hzAt realMath.toFloatMath lsps i| := by
  obtain ⟨hmem, hnearest⟩ := h.nearest i hi (differences_near hrange h.indexes hi)
  obtain ⟨hstep, hleft⟩ := @decoded_step lsps _ _ hdecoded i hi
  refine ⟨_, hmem, hstep, fun c hc => ?_⟩
  have hdistance (x y z : ℝ) : x + y - z = y - (z - x) := by ring
  rw [hstep, hdistance, hdistance, ← hleft]
  exact hnearest c hc

/-- **From the encoder to the decoder.** A frame takes eight bytes, and whatever the decoder
remembers, it decodes them to the voicing that was sent, to a pitch and an energy within one step
and to line spectral pairs of which each one is the decoded one before it and an entry of the
codebook, and no entry comes nearer to the pair that was sent. -/
theorem encode_3200_nearest {voiced0 : BitVec 32} {frame1 : Analysis ℝ}
    (hvoiced0 : voiced0.toNat < 2) (hvoiced1 : frame1.voiced.toNat < 2)
    (hlsps : LPC_ORD ≤ frame1.lsps.length)
    (hrange : ∀ i < LPC_ORD, 0 ≤ frame1.lsps.getD i 0 ∧ frame1.lsps.getD i 0 ≤ Real.pi)
    {memory : Codec2Internal ℝ} (hmemory : LPC_ORD ≤ memory.prevLspsDec.length) :
    ∃ bits first second memory', encode3200 realMath voiced0 frame1 = some bits ∧
      bits.length = frameBytes ∧
      decode3200 realMath memory bits = some ([first, second], memory') ∧
      Received frame1 second ∧
      ∀ i < LPC_ORD, ∃ code ∈ (codebookAt lspCbd i).cb,
        hzAt realMath.toFloatMath second.lsps i = hzBeforeAt second.lsps i + code ∧
        ∀ c ∈ (codebookAt lspCbd i).cb,
          |hzAt realMath.toFloatMath second.lsps i - hzAt realMath.toFloatMath frame1.lsps i| ≤
            |hzBeforeAt second.lsps i + c - hzAt realMath.toFloatMath frame1.lsps i| := by
  obtain ⟨indexes, hencode, hencoded⟩ := encodeLspdsScalar_eq realMath.toFloatMath hlsps
  have hindexes := hencoded.indexes
  obtain ⟨hfitLsps, hback⟩ := hindexes.fit scalar_lspCbd narrow_lspCbd hencoded.length
  -- the fields of the frame fit
  have hwo := (encodeWo_spec frame1.Wo).1
  have he := (encodeEnergy_spec frame1.e).1
  have hfit : FitWidths ([voiced0, frame1.voiced, index32 (encodeWo realMath frame1.Wo WO_BITS),
      index32 (encodeEnergy realMath frame1.e E_BITS)] ++
        (indexes.take LSPD_SCALAR_INDEXES).map (BitVec.ofNat 32)) widths3200 :=
    .cons hvoiced0 (.cons hvoiced1 (.cons hwo (.cons he hfitLsps)))
  obtain ⟨bits, hwrite, hlength, hread⟩ := writeFrame_readFrame frameWidths3200 hfit
  -- the decoder
  obtain ⟨lsps1, hdecode, hlsps1⟩ := @decodeLspdsScalar_eq ℝ _ realMath.toFloatMath indexes lsps₀
    hindexes (by simp [lsps₀])
  rw [← hback] at hdecode
  have hlength1 : lsps1.length = LPC_ORD := by simpa [lsps₀] using hlsps1.length
  obtain ⟨lsps0, hinterp, hlsps0⟩ := @interpolateLspVer2_eq ℝ _ lsps₀ memory.prevLspsDec lsps1
    LPC_ORD (1 / (2 : Nat)) (by simp [lsps₀]) hmemory hlength1.ge
  have hlength0 : lsps0.length = LPC_ORD := by simpa [lsps₀] using hlsps0.length
  obtain ⟨first, hfirst, -, -, -⟩ := synthesis_eq realMath (interpWo realMath
    (voicedModel realMath voiced0) memory.prevModelDec (decodedModel realMath frame1.voiced
      (index32 (encodeWo realMath frame1.Wo WO_BITS))) (woMin realMath))
    (interpEnergy realMath memory.prevEDec (decodeEnergy realMath
      (index32 (encodeEnergy realMath frame1.e E_BITS)).toInt E_BITS)) hlength0
  obtain ⟨second, hsecond, hmodel, henergy, hdecoded⟩ := synthesis_eq realMath
    (decodedModel realMath frame1.voiced (index32 (encodeWo realMath frame1.Wo WO_BITS)))
    (decodeEnergy realMath (index32 (encodeEnergy realMath frame1.e E_BITS)).toInt E_BITS) hlength1
  refine ⟨bits, first, second, _, ?_, hlength,
    decode3200_eq realMath hread hdecode hinterp hfirst hsecond,
    received_of_indexes hmodel henergy, fun i hi => ?_⟩
  · rw [encode3200, bind_of_some hencode]
    exact hwrite
  · rw [hdecoded]
    exact decoded_nearest hrange hencoded hlsps1 hi

/-- A frame with evenly spaced line spectral pairs, to a decoder that has just begun. -/
theorem encode_3200_nearest_even :
    let lsps : List ℝ := (List.range LPC_ORD).map fun i : Nat => ((i : ℝ) + 1) * Real.pi / 11
    let frame1 : Analysis ℝ := { voiced := 1, Wo := Real.pi / 40, e := 1, lsps }
    ∃ bits first second memory', encode3200 realMath 1 frame1 = some bits ∧
      bits.length = frameBytes ∧
      decode3200 realMath (.initialise realMath) bits = some ([first, second], memory') ∧
      Received frame1 second ∧
      ∀ i < LPC_ORD, ∃ code ∈ (codebookAt lspCbd i).cb,
        hzAt realMath.toFloatMath second.lsps i = hzBeforeAt second.lsps i + code ∧
        ∀ c ∈ (codebookAt lspCbd i).cb,
          |hzAt realMath.toFloatMath second.lsps i - hzAt realMath.toFloatMath frame1.lsps i| ≤
            |hzBeforeAt second.lsps i + c - hzAt realMath.toFloatMath frame1.lsps i| := by
  intro lsps frame1
  exact encode_3200_nearest (by decide) (by decide) (by simp [frame1, lsps]) even_range
    (by simp [Codec2Internal.initialise])

end Lxst.Codec2
