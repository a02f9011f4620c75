import RsLxst.Codec2.Proof.Decoder

/-!
# The decoder of mode 1600

The codebooks leave room below and above each entry (`code_room`): even after `check_lsp_order` has
moved an entry to the end of the list, adding 0.1 with every swap, and `bw_expand_lsps` has pushed
the entries apart, the last one is below `7 * π / 8` (`repaired_spaced`). So every filter is stable.
-/

set_option autoImplicit false

namespace Lxst.Codec2

open Fill

/-- The least difference of two entries after `bw_expand_lsps`. -/
noncomputable def separation1600 : Nat → ℝ :=
  separationAt realMath.toFloatMath (50 : Nat) (100 : Nat)

theorem separation1600_pos (i : Nat) : 0 < separation1600 i := by
  have hpi : 0 < realMath.pi := Real.pi_pos
  unfold separation1600 separationAt
  split <;> positivity

theorem separation1600_le (i : Nat) : separation1600 i ≤ 1 / 10 := by
  have hpi : realMath.pi < 3.15 := Real.pi_lt_d2
  have hpos : 0 < realMath.pi := Real.pi_pos
  unfold separation1600 separationAt
  split
  · push_cast
    linarith
  · push_cast
    linarith

/-- Room of 128 Hz for each entry before it and after it, below 3500 Hz. -/
theorem code_room : ∀ i < LPC_ORD, ∀ c ∈ (codebookAt lspCb i).cb,
    128 * i < c ∧ c + 128 * (9 - i) ≤ 3500 := by decide

theorem mem_lowered {lsp : List ℝ} {u : ℝ} :
    u ∈ lowered lsp ↔ ∃ i < lsp.length, u = lsp.getD i 0 - (i : ℝ) / (10 : Nat) := by
  simp only [lowered, List.mem_map, Prod.exists, List.mem_zipIdx_iff_getElem?]
  apply Iff.intro
  · intro h
    obtain ⟨x, i, hget, hu⟩ := h
    obtain ⟨hi, rfl⟩ := List.getElem?_eq_some_iff.mp hget
    exact ⟨i, hi, by rw [List.getD_eq_getElem _ _ hi]; exact hu.symm⟩
  · intro h
    obtain ⟨i, hi, hu⟩ := h
    refine ⟨lsp.getD i 0, i, ?_, hu.symm⟩
    rw [List.getD_eq_getElem _ _ hi, List.getElem?_eq_getElem hi]

/-- The decoded entries, lowered. -/
theorem lowered_room {indexes : List Nat} (h : Indexes lspCb indexes) {lsp : List ℝ}
    (hlsp : Filled 0 LPC_ORD (fun i => realMath.pi / (4000 : Nat) * codeAt lspCb indexes i) lsps₀
      lsp) {u : ℝ} (hu : u ∈ lowered lsp) : 0 < u ∧ u + 9 / 10 ≤ 7 * Real.pi / 8 := by
  have hpi := Real.pi_gt_d2
  have hlength : lsp.length = LPC_ORD := by simpa [lsps₀] using hlsp.length
  obtain ⟨i, hi, rfl⟩ := mem_lowered.mp hu
  rw [hlength] at hi
  have hget : lsp.getD i 0 = Real.pi / 4000 * codeAt lspCb indexes i := by
    exact hlsp.getD_in (Nat.zero_le i) (by omega) 0
  obtain ⟨hlow, hhigh⟩ := code_room i hi _ (h.code_mem hi)
  have hi' : i ≤ 9 := Nat.le_of_lt_succ hi
  have hlow' : (128 : ℝ) * i + 1 ≤ codeAt lspCb indexes i := by exact_mod_cast hlow
  have hhigh' : (codeAt lspCb indexes i : ℝ) + 128 * (9 - i) ≤ 3500 := by
    have := Nat.cast_le (α := ℝ).mpr hhigh
    rw [Nat.cast_add, Nat.cast_mul, Nat.cast_sub hi'] at this
    exact_mod_cast this
  have hindex : (0 : ℝ) ≤ i := Nat.cast_nonneg _
  have hindex' : (i : ℝ) ≤ 9 := by exact_mod_cast hi'
  have hpos : 0 < Real.pi := Real.pi_pos
  rw [hget]
  push_cast
  refine ⟨?_, ?_⟩
  · have h1 := mul_le_mul_of_nonneg_left hlow' hpos.le
    have h2 := mul_le_mul_of_nonneg_right hpi.le hindex
    linarith
  · have h1 := mul_le_mul_of_nonneg_left hhigh' hpos.le
    have h2 := mul_le_mul_of_nonneg_right hpi.le (sub_nonneg.mpr hindex')
    linarith

theorem expanded_le {lsp : List ℝ}
    (h : ∀ i < LPC_ORD, lsp.getD i 0 ≤ 7 * Real.pi / 8 - (9 - (i : ℝ)) / 10) {i : Nat}
    (hi : i < LPC_ORD) : expanded separation1600 lsp i ≤ 7 * Real.pi / 8 - (9 - (i : ℝ)) / 10 := by
  induction i with
  | zero => exact h 0 hi
  | succ i ih =>
    have hbefore := ih (by omega)
    have hsep := separation1600_le (i + 1)
    apply max_le (h (i + 1) hi)
    push_cast
    linarith

/-- The repaired entries. -/
theorem repaired_spaced {indexes : List Nat} (h : Indexes lspCb indexes)
    {decoded ordered lsp : List ℝ}
    (hdecoded : Filled 0 LPC_ORD
      (fun i => realMath.pi / (4000 : Nat) * codeAt lspCb indexes i) lsps₀ decoded)
    (hlength : ordered.length = LPC_ORD)
    (hperm : (lowered ordered).Perm (lowered decoded))
    (hlsp : Filled 0 LPC_ORD (expanded separation1600 ordered) ordered lsp) :
    Spaced separation1600 lsp ∧ 0 < lsp.getD 0 0 ∧ lsp.getD (LPC_ORD - 1) 0 ≤ 7 * Real.pi / 8 := by
  have hroom (i : Nat) (hi : i < LPC_ORD) := lowered_room h hdecoded
    (hperm.subset (mem_lowered.mpr ⟨i, by omega, rfl⟩))
  have hget (i : Nat) (hi : i < LPC_ORD) : lsp.getD i 0 = expanded separation1600 ordered i := by
    exact hlsp.getD_in (Nat.zero_le i) (by omega) 0
  have hfirst : 0 < lsp.getD 0 0 := by
    have hzero := (hroom 0 (by decide)).1
    rw [hget 0 (by decide), expanded]
    simpa using hzero
  refine ⟨⟨by rw [hlsp.length, hlength], hfirst.le, fun i hi hlt => ?_⟩, hfirst, ?_⟩
  · obtain ⟨k, rfl⟩ : ∃ k, i = k + 1 := ⟨i - 1, by omega⟩
    rw [Nat.add_sub_cancel, hget (k + 1) hlt, hget k (by omega), expanded]
    exact le_max_right _ _
  · have hbound (i : Nat) (hi : i < LPC_ORD) :
        ordered.getD i 0 ≤ 7 * Real.pi / 8 - (9 - (i : ℝ)) / 10 := by
      have hhigh := (hroom i hi).2
      push_cast at hhigh
      linarith
    have hlast := expanded_le hbound (i := LPC_ORD - 1) (by decide)
    rw [hget (LPC_ORD - 1) (by decide)]
    simp only [LPC_ORD] at hlast ⊢
    push_cast at hlast
    linarith

/-- What a decoder of mode 1600 remembers. -/
structure Remembered1600 (memory : Codec2Internal ℝ) : Prop extends
    Remembered separation1600 memory where
  top : memory.prevLspsDec.getD (LPC_ORD - 1) 0 ≤ 7 * Real.pi / 8

/-- What a frame of mode 1600 has. -/
structure Sound1600 (frame : Synthesis ℝ) : Prop extends Sound separation1600 frame where
  top : frame.lsps.getD (LPC_ORD - 1) 0 ≤ 7 * Real.pi / 8

/-- The repair of the line spectral pairs of a frame. -/
theorem repair_eq {indexes : List Nat} (h : Indexes lspCb indexes) {fuel : Nat}
    (hfuel : orderTurns LPC_ORD < fuel) :
    ∃ decoded ordered swaps lsp,
      decodeLspsScalar realMath.toFloatMath lsps₀ indexes LPC_ORD = some decoded ∧
      checkLspOrder fuel decoded LPC_ORD = some (ordered, swaps) ∧
      bwExpandLsps realMath.toFloatMath ordered LPC_ORD (50 : Nat) (100 : Nat) = some lsp ∧
      Spaced separation1600 lsp ∧ 0 < lsp.getD 0 0 ∧
      lsp.getD (LPC_ORD - 1) 0 ≤ 7 * Real.pi / 8 := by
  obtain ⟨decoded, hdecode, hdecoded⟩ := @decodeLspsScalar_eq ℝ _ realMath.toFloatMath indexes lsps₀
    h (by simp [lsps₀])
  have hlength : decoded.length = LPC_ORD := by simpa [lsps₀] using hdecoded.length
  obtain ⟨ordered, swaps, i, horder, -, hturn⟩ := checkLspOrder_eq hlength.ge hfuel
  have hordered : ordered.length = LPC_ORD := by rw [hturn.length, hlength]
  have hperm := hturn.perm
  rw [List.take_of_length_le hordered.le, List.take_of_length_le hlength.le] at hperm
  obtain ⟨lsp, hexpand, hlsp⟩ := @bwExpandLsps_eq ℝ _ _ _ realMath.toFloatMath ordered LPC_ORD
    (by decide) hordered.ge (50 : Nat) (100 : Nat)
  exact ⟨decoded, ordered, swaps, lsp, hdecode, horder, hexpand,
    repaired_spaced h hdecoded hordered hperm hlsp⟩

/-- The steps of the decoder. -/
theorem decode1600_eq {F : Type} [Field F] [LinearOrder F] (math : ParamMath F) {fuel swaps : Nat}
    {memory : Codec2Internal F} {bits : List UInt8}
    {voiced0 voiced1 woIndex1 eIndex1 voiced2 voiced3 woIndex3 eIndex3 : BitVec 32}
    {lspIndexes : List (BitVec 32)}
    {decoded ordered lsps0 lsps1 lsps2 lsps3 : List F} {frame0 frame1 frame2 frame3 : Synthesis F}
    (hread : readFrame bits widths1600 = some (voiced0 :: voiced1 :: woIndex1 :: eIndex1 ::
      voiced2 :: voiced3 :: woIndex3 :: eIndex3 :: lspIndexes))
    (hdecode : decodeLspsScalar math.toFloatMath lsps₀ (lspIndexes.map BitVec.toNat) LPC_ORD =
      some decoded)
    (horder : checkLspOrder fuel decoded LPC_ORD = some (ordered, swaps))
    (hexpand : bwExpandLsps math.toFloatMath ordered LPC_ORD (50 : Nat) (100 : Nat) = some lsps3)
    (hinterp0 : interpolateLspVer2 lsps₀ memory.prevLspsDec lsps3
      (1 / (4 : Nat) + (0 : Nat) * (1 / (4 : Nat))) LPC_ORD = some lsps0)
    (hinterp1 : interpolateLspVer2 lsps₀ memory.prevLspsDec lsps3
      (1 / (4 : Nat) + (1 : Nat) * (1 / (4 : Nat))) LPC_ORD = some lsps1)
    (hinterp2 : interpolateLspVer2 lsps₀ memory.prevLspsDec lsps3
      (1 / (4 : Nat) + (2 : Nat) * (1 / (4 : Nat))) LPC_ORD = some lsps2)
    (hframe0 : synthesis math (interpWo math (voicedModel math voiced0) memory.prevModelDec
      (decodedModel math voiced1 woIndex1) (woMin math))
      (interpEnergy math memory.prevEDec (decodeEnergy math eIndex1.toInt E_BITS)) lsps0 =
        some frame0)
    (hframe1 : synthesis math (decodedModel math voiced1 woIndex1)
      (decodeEnergy math eIndex1.toInt E_BITS) lsps1 = some frame1)
    (hframe2 : synthesis math (interpWo math (voicedModel math voiced2)
      (decodedModel math voiced1 woIndex1) (decodedModel math voiced3 woIndex3) (woMin math))
      (interpEnergy math (decodeEnergy math eIndex1.toInt E_BITS)
        (decodeEnergy math eIndex3.toInt E_BITS)) lsps2 = some frame2)
    (hframe3 : synthesis math (decodedModel math voiced3 woIndex3)
      (decodeEnergy math eIndex3.toInt E_BITS) lsps3 = some frame3) :
    decode1600 math fuel memory bits = some ([frame0, frame1, frame2, frame3],
      ⟨decodedModel math voiced3 woIndex3, decodeEnergy math eIndex3.toInt E_BITS, lsps3⟩) := by
  rw [decode1600, bind_of_some hread]
  simp only
  rw [bind_of_some hdecode, bind_of_some horder]
  simp only
  rw [bind_of_some hexpand, bind_of_some hinterp0, bind_of_some hinterp1, bind_of_some hinterp2,
    bind_of_some hframe0, bind_of_some hframe1, bind_of_some hframe2, bind_of_some hframe3]
  rfl

theorem decode1600_sound {memory : Codec2Internal ℝ} (h : Remembered1600 memory)
    {fuel : Nat} (hfuel : orderTurns LPC_ORD < fuel) {bits : List UInt8}
    (hbits : frameBytes ≤ bits.length) :
    ∃ frames memory', decode1600 realMath fuel memory bits = some (frames, memory') ∧
      frames.length = 4 ∧ (∀ frame ∈ frames, Sound1600 frame) ∧ Remembered1600 memory' := by
  obtain ⟨values, hread, hfit⟩ := readFrame_lt frameWidths1600 hbits
  obtain ⟨voiced0, _, -, hfit0, rfl⟩ := List.forall₂_cons_right_iff.mp hfit
  obtain ⟨voiced1, _, -, hfit1, rfl⟩ := List.forall₂_cons_right_iff.mp hfit0
  obtain ⟨woIndex1, _, hwo1, hfit2, rfl⟩ := List.forall₂_cons_right_iff.mp hfit1
  obtain ⟨eIndex1, _, he1, hfit3, rfl⟩ := List.forall₂_cons_right_iff.mp hfit2
  obtain ⟨voiced2, _, -, hfit4, rfl⟩ := List.forall₂_cons_right_iff.mp hfit3
  obtain ⟨voiced3, _, -, hfit5, rfl⟩ := List.forall₂_cons_right_iff.mp hfit4
  obtain ⟨woIndex3, _, hwo3, hfit6, rfl⟩ := List.forall₂_cons_right_iff.mp hfit5
  obtain ⟨eIndex3, lspIndexes, he3, hfit7, rfl⟩ := List.forall₂_cons_right_iff.mp hfit6
  obtain ⟨decoded, ordered, swaps, lsps3, hdecode, horder, hexpand, hspaced3, hfirst3, htop3⟩ :=
    repair_eq (indexes_of_fit scalar_lspCb hfit7) hfuel
  -- the frames in between
  have hbetween (i : Nat) (hi : i < 3) : ∃ lsps,
      interpolateLspVer2 lsps₀ memory.prevLspsDec lsps3 (1 / (4 : Nat) + i * (1 / (4 : Nat)))
        LPC_ORD = some lsps ∧ Spaced separation1600 lsps ∧ 0 < lsps.getD 0 0 ∧
      lsps.getD (LPC_ORD - 1) 0 ≤ 7 * Real.pi / 8 := by
    obtain ⟨lsps, hrun, hlsps⟩ := @interpolateLspVer2_eq ℝ _ lsps₀ memory.prevLspsDec lsps3 LPC_ORD
      (1 / (4 : Nat) + i * (1 / (4 : Nat))) (by simp [lsps₀]) h.lsps.length.ge hspaced3.length.ge
    have hle : (i : ℝ) ≤ 2 := by
      have : i ≤ 2 := by omega
      exact_mod_cast this
    have hzero : (0 : ℝ) ≤ i := Nat.cast_nonneg i
    obtain ⟨hspaced, hfirst, htop⟩ := h.lsps.interpolated hspaced3 hfirst3
      (by push_cast; linarith) (by push_cast; linarith) hlsps
    exact ⟨lsps, hrun, hspaced, hfirst, htop _ h.top htop3⟩
  obtain ⟨lsps0, hinterp0, hspaced0, hfirst0, htop0⟩ := hbetween 0 (by decide)
  obtain ⟨lsps1, hinterp1, hspaced1, hfirst1, htop1⟩ := hbetween 1 (by decide)
  obtain ⟨lsps2, hinterp2, hspaced2, hfirst2, htop2⟩ := hbetween 2 (by decide)
  have hmodel1 := pitch_decoded voiced1 hwo1
  have hmodel3 := pitch_decoded voiced3 hwo3
  have henergy1 := energy_decoded he1
  have henergy3 := energy_decoded he3
  obtain ⟨frame0, hframe0, rfl, hsound0⟩ := synthesis_sound (h.model.interpWo hmodel1 voiced0)
    (h.e.interp henergy1) hspaced0 separation1600_pos hfirst0
  obtain ⟨frame1, hframe1, rfl, hsound1⟩ :=
    synthesis_sound hmodel1 henergy1 hspaced1 separation1600_pos hfirst1
  obtain ⟨frame2, hframe2, rfl, hsound2⟩ := synthesis_sound (hmodel1.interpWo hmodel3 voiced2)
    (henergy1.interp henergy3) hspaced2 separation1600_pos hfirst2
  obtain ⟨frame3, hframe3, rfl, hsound3⟩ :=
    synthesis_sound hmodel3 henergy3 hspaced3 separation1600_pos hfirst3
  refine ⟨[frame0, frame1, frame2, frame3], ⟨decodedModel realMath voiced3 woIndex3,
    decodeEnergy realMath eIndex3.toInt E_BITS, frame3.lsps⟩,
    decode1600_eq realMath hread hdecode horder hexpand hinterp0 hinterp1 hinterp2 hframe0 hframe1
      hframe2 hframe3, rfl, ?_, ⟨⟨hmodel3, henergy3, hspaced3⟩, htop3⟩⟩
  intro frame hframe
  simp at hframe
  obtain rfl | rfl | rfl | rfl := hframe
  · exact ⟨hsound0, htop0⟩
  · exact ⟨hsound1, htop1⟩
  · exact ⟨hsound2, htop2⟩
  · exact ⟨hsound3, htop3⟩

/-- **The decoder of mode 1600.** It decodes any stream of frames, of any bytes. Pitch, harmonics
and energy stay within their bounds, the line spectral pairs of every frame are 50 Hz and from the
fifth one on 100 Hz apart, and every filter is stable. -/
theorem decoder_1600_stable {stream : List (List UInt8)}
    (hstream : ∀ bits ∈ stream, frameBytes ≤ bits.length) {fuel : Nat}
    (hfuel : orderTurns LPC_ORD < fuel) :
    ∃ frames memory,
      decodeStream (decode1600 realMath fuel) (.initialise realMath) stream =
        some (frames, memory) ∧
      frames.length = 4 * stream.length ∧
      ∀ frame ∈ frames, Sound separation1600 frame ∧ Stable frame.ak LPC_ORD := by
  have hpi := Real.pi_pos
  have hpi' := Real.pi_gt_d2
  have hinitial : Remembered1600 (.initialise realMath) := by
    refine ⟨remembered_initialise fun i => ?_, ?_⟩
    · have := separation1600_le i
      linarith
    · rw [List.getD_eq_getElem _ _ (by decide)]
      simp [Codec2Internal.initialise, realMath, LPC_ORD]
      linarith
  obtain ⟨frames, memory, hrun, hlength, hframes⟩ := decodeStream_keeps
    (fun memory bits h hbits => decode1600_sound h hfuel hbits) hstream hinitial
  refine ⟨frames, memory, hrun, hlength, fun frame hframe => ?_⟩
  have h := hframes frame hframe
  refine ⟨h.toSound, (h.stable ?_).2⟩
  have := h.top
  linarith

/-- Two byte strings. -/
theorem decoder_1600_stable_two :
    ∃ frames memory, decodeStream (decode1600 realMath 1000) (.initialise realMath)
        [List.replicate 8 0xA5, List.replicate 8 0x3C] = some (frames, memory) ∧
      frames.length = 8 ∧
      ∀ frame ∈ frames, Sound separation1600 frame ∧ Stable frame.ak LPC_ORD :=
  decoder_1600_stable (by decide) (by decide)

end Lxst.Codec2
