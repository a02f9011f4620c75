import RsLxst.Codec2.Proof.Decoder

/-!
# The decoder of mode 3200

The entries of its codebooks are differences of at least 25 Hz, so the line spectral pairs keep that
distance. Their sum has no bound below 4000 Hz: only a frame whose last entry is below `π` has a
stable filter.
-/

set_option autoImplicit false

namespace Lxst.Codec2

open Fill

/-- The least difference of two entries. -/
noncomputable def separation3200 (_ : Nat) : ℝ := 25 * (Real.pi / 4000)

theorem separation3200_pos (i : Nat) : 0 < separation3200 i := by
  have hpi := Real.pi_pos
  unfold separation3200
  positivity

theorem code_ge : ∀ i < LPC_ORD, ∀ c ∈ (codebookAt lspCbd i).cb, 25 ≤ c := by decide

theorem differences_spaced {indexes : List Nat} (h : Indexes lspCbd indexes) {lsp : List ℝ}
    (hlsp : Filled 0 LPC_ORD
      (fun i => realMath.pi / (4000 : Nat) * differenceSum indexes i) lsps₀ lsp) :
    Spaced separation3200 lsp ∧ 0 < lsp.getD 0 0 := by
  have hpi := Real.pi_pos
  have hget (i : Nat) (hi : i < LPC_ORD) :
      lsp.getD i 0 = Real.pi / 4000 * differenceSum indexes i := by
    exact hlsp.getD_in (Nat.zero_le i) (by omega) 0
  have hcode (i : Nat) (hi : i < LPC_ORD) : (25 : ℝ) ≤ codeAt lspCbd indexes i := by
    exact_mod_cast code_ge i hi _ (h.code_mem hi)
  have hfirst : 0 < lsp.getD 0 0 := by
    have hzero := hcode 0 (by decide)
    rw [hget 0 (by decide), differenceSum, Finset.sum_range_one]
    have : (0 : ℝ) < codeAt lspCbd indexes 0 := by linarith
    positivity
  refine ⟨⟨by simpa [lsps₀] using hlsp.length, hfirst.le, fun i hi hlt => ?_⟩, hfirst⟩
  obtain ⟨k, rfl⟩ : ∃ k, i = k + 1 := ⟨i - 1, by omega⟩
  have hsum : differenceSum indexes (k + 1) =
      differenceSum indexes k + codeAt lspCbd indexes (k + 1) := Finset.sum_range_succ _ _
  have hmul := mul_le_mul_of_nonneg_left (hcode (k + 1) hlt)
    (div_nonneg hpi.le (by norm_num : (0 : ℝ) ≤ 4000))
  rw [Nat.add_sub_cancel, hget (k + 1) hlt, hget k (by omega), hsum, separation3200]
  push_cast
  linarith

/-- The steps of the decoder. -/
theorem decode3200_eq {F : Type} [Field F] (math : ParamMath F) {memory : Codec2Internal F}
    {bits : List UInt8} {voiced0 voiced1 woIndex eIndex : BitVec 32}
    {lspdIndexes : List (BitVec 32)}
    {lsps0 lsps1 : List F} {first second : Synthesis F}
    (hread : readFrame bits widths3200 =
      some (voiced0 :: voiced1 :: woIndex :: eIndex :: lspdIndexes))
    (hdecode : decodeLspdsScalar math.toFloatMath lsps₀ (lspdIndexes.map BitVec.toNat) LPC_ORD =
      some lsps1)
    (hinterp : interpolateLspVer2 lsps₀ memory.prevLspsDec lsps1 (1 / (2 : Nat)) LPC_ORD =
      some lsps0)
    (hfirst : synthesis math
      (interpWo math (voicedModel math voiced0) memory.prevModelDec
        (decodedModel math voiced1 woIndex) (woMin math))
      (interpEnergy math memory.prevEDec (decodeEnergy math eIndex.toInt E_BITS)) lsps0 =
        some first)
    (hsecond : synthesis math (decodedModel math voiced1 woIndex)
      (decodeEnergy math eIndex.toInt E_BITS) lsps1 = some second) :
    decode3200 math memory bits = some ([first, second],
      ⟨decodedModel math voiced1 woIndex, decodeEnergy math eIndex.toInt E_BITS, lsps1⟩) := by
  rw [decode3200, bind_of_some hread]
  simp only
  rw [bind_of_some hdecode, bind_of_some hinterp, bind_of_some hfirst, bind_of_some hsecond]
  rfl

theorem decode3200_sound {self : Codec2Internal ℝ} (h : Remembered separation3200 self)
    {bits : List UInt8} (hbits : frameBytes ≤ bits.length) :
    ∃ frames self', decode3200 realMath self bits = some (frames, self') ∧ frames.length = 2 ∧
      (∀ frame ∈ frames, Sound separation3200 frame) ∧ Remembered separation3200 self' := by
  obtain ⟨values, hread, hfit⟩ := readFrame_lt frameWidths3200 hbits
  obtain ⟨voiced0, _, -, hfit0, rfl⟩ := List.forall₂_cons_right_iff.mp hfit
  obtain ⟨voiced1, _, -, hfit1, rfl⟩ := List.forall₂_cons_right_iff.mp hfit0
  obtain ⟨woIndex, _, hwo, hfit2, rfl⟩ := List.forall₂_cons_right_iff.mp hfit1
  obtain ⟨eIndex, lspdIndexes, he, hfit3, rfl⟩ := List.forall₂_cons_right_iff.mp hfit2
  have hindexes := indexes_of_fit scalar_lspCbd hfit3
  obtain ⟨lsps1, hdecode, hlsps1⟩ := @decodeLspdsScalar_eq ℝ _ realMath.toFloatMath
    (lspdIndexes.map BitVec.toNat) lsps₀ hindexes (by simp [lsps₀])
  obtain ⟨hspaced1, hfirst1⟩ := differences_spaced hindexes hlsps1
  obtain ⟨lsps0, hinterp, hlsps0⟩ := @interpolateLspVer2_eq ℝ _ lsps₀ self.prevLspsDec lsps1
    LPC_ORD (1 / (2 : Nat)) (by simp [lsps₀]) h.lsps.length.ge hspaced1.length.ge
  obtain ⟨hspaced0, hfirst0, -⟩ := h.lsps.interpolated hspaced1 hfirst1
    (by norm_num) (by norm_num) hlsps0
  have hmodel1 := pitch_decoded voiced1 hwo
  have he1 := energy_decoded he
  obtain ⟨first, hfirst, -, hsound0⟩ := synthesis_sound (h.model.interpWo hmodel1 voiced0)
    (h.e.interp he1) hspaced0 separation3200_pos hfirst0
  obtain ⟨second, hsecond, -, hsound1⟩ :=
    synthesis_sound hmodel1 he1 hspaced1 separation3200_pos hfirst1
  refine ⟨[first, second], ⟨decodedModel realMath voiced1 woIndex,
    decodeEnergy realMath eIndex.toInt E_BITS, lsps1⟩,
    decode3200_eq realMath hread hdecode hinterp hfirst hsecond, rfl, ?_,
    ⟨hmodel1, he1, hspaced1⟩⟩
  intro frame hframe
  simp at hframe
  obtain rfl | rfl := hframe
  · exact hsound0
  · exact hsound1

/-- **The decoder of mode 3200.** It decodes any stream of frames, of any bytes. Pitch, harmonics
and energy stay within their bounds, the line spectral pairs of every frame are at least 25 Hz
apart, and its filter is stable if the last one is below `π`. -/
theorem decoder_3200_sound {stream : List (List UInt8)}
    (hstream : ∀ bits ∈ stream, frameBytes ≤ bits.length) :
    ∃ frames memory,
      decodeStream (decode3200 realMath) (.initialise realMath) stream = some (frames, memory) ∧
      frames.length = 2 * stream.length ∧ ∀ frame ∈ frames, Sound separation3200 frame := by
  have hpi := Real.pi_pos
  apply decodeStream_keeps (fun memory bits h hbits => decode3200_sound h hbits) hstream
  apply remembered_initialise
  intro i
  unfold separation3200
  linarith

/-- Two byte strings. -/
theorem decoder_3200_sound_two :
    ∃ frames memory, decodeStream (decode3200 realMath) (.initialise realMath)
        [List.replicate 8 0xA5, List.replicate 8 0x3C] = some (frames, memory) ∧
      frames.length = 4 ∧ ∀ frame ∈ frames, Sound separation3200 frame :=
  decoder_3200_sound (by decide)

end Lxst.Codec2
