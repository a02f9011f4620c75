import RsLxst.Codec2.Proof.Decoder

/-!
# Encoders

What the encoders of both modes have in common: an index fits its width and stands for a value
within one step (`levels_near`), so pitch and energy arrive within one step (`Received`), and the
indexes of line spectral pairs are read back as they are packed (`Indexes.fit`).
-/

set_option autoImplicit false

namespace Lxst.Codec2

/-! ## Indexes -/

theorem clampIndex_lt {levels : Nat} (hlevels : 0 < levels) (index : Int) :
    0 ≤ clampIndex levels index ∧ clampIndex levels index < levels := by
  simp only [clampIndex]
  split <;> split <;> omega

theorem clampIndex_near {levels : Nat} {y : ℝ} (hy : 0 ≤ y)
    (hle : y ≤ levels) : |((clampIndex levels ⌊y + 1 / 2⌋ : Int) : ℝ) - y| ≤ 1 := by
  have hfloor := Int.floor_le (y + 1 / 2)
  have hnext := Int.lt_floor_add_one (y + 1 / 2)
  have hpos : 0 ≤ ⌊y + 1 / 2⌋ := Int.floor_nonneg.mpr (by linarith)
  by_cases htop : ⌊y + 1 / 2⌋ > levels - 1
  · have hclamp : clampIndex levels ⌊y + 1 / 2⌋ = levels - 1 := by
      simp only [clampIndex, if_neg (not_lt.mpr hpos), if_pos htop]
    have hlevels' : ((levels : Int) : ℝ) ≤ ⌊y + 1 / 2⌋ := by
      have : (levels : Int) ≤ ⌊y + 1 / 2⌋ := by omega
      exact_mod_cast this
    rw [Int.cast_natCast] at hlevels'
    rw [hclamp, abs_le]
    push_cast
    exact ⟨by linarith, by linarith⟩
  · have hclamp : clampIndex levels ⌊y + 1 / 2⌋ = ⌊y + 1 / 2⌋ := by
      simp only [clampIndex, if_neg (not_lt.mpr hpos), if_neg htop]
    rw [hclamp, abs_le]
    exact ⟨by linarith, by linarith⟩

theorem index32_spec {index : Int} {width : Nat} (hwidth : width ≤ 16) (hpos : 0 ≤ index)
    (hlt : index < (2 ^ width : Nat)) :
    (index32 index).toNat < 2 ^ width ∧ (index32 index).toInt = index := by
  have hpow : 2 ^ width ≤ 2 ^ 16 := Nat.pow_le_pow_right (by decide) hwidth
  obtain ⟨n, rfl⟩ := Int.eq_ofNat_of_zero_le hpos
  have hn : n < 2 ^ width := by exact_mod_cast hlt
  have htoNat : (index32 n).toNat = n := by
    rw [index32, BitVec.ofInt_natCast, BitVec.toNat_ofNat]
    exact Nat.mod_eq_of_lt (by omega)
  refine ⟨by rw [htoNat]; exact hn, ?_⟩
  rw [BitVec.toInt_eq_toNat_of_lt (by omega), htoNat]

/-- A value between two bounds, decoded from the index of the nearest of `levels` steps. -/
theorem levels_near {levels : Nat} (hlevels : 0 < levels) {low high x : ℝ} (hlow : low ≤ x)
    (hhigh : x ≤ high) (hlt : low < high) :
    |low + (high - low) / levels *
        (clampIndex levels ⌊levels * ((x - low) / (high - low)) + 1 / 2⌋ : Int) - x| ≤
      (high - low) / levels := by
  have hrange : 0 < high - low := sub_pos.mpr hlt
  have hcast : (0 : ℝ) < levels := by exact_mod_cast hlevels
  have hnorm : 0 ≤ (x - low) / (high - low) := div_nonneg (by linarith) hrange.le
  have hnorm' : (x - low) / (high - low) ≤ 1 := by
    rw [div_le_one hrange]
    linarith
  have hnear := clampIndex_near (mul_nonneg hcast.le hnorm)
    (by simpa using mul_le_mul_of_nonneg_left hnorm' hcast.le)
  generalize clampIndex levels ⌊levels * ((x - low) / (high - low)) + 1 / 2⌋ = index at hnear ⊢
  have hx : x = low + (high - low) / levels * (levels * ((x - low) / (high - low))) := by
    field_simp
    ring
  have hstep : 0 < (high - low) / levels := div_pos hrange hcast
  calc |low + (high - low) / levels * (index : ℝ) - x|
      = |(high - low) / levels * ((index : ℝ) - levels * ((x - low) / (high - low)))| := by
        congr 1
        rw [mul_sub]
        linarith
    _ = (high - low) / levels * |(index : ℝ) - levels * ((x - low) / (high - low))| := by
        rw [abs_mul, abs_of_pos hstep]
    _ ≤ (high - low) / levels := by
        simpa using mul_le_mul_of_nonneg_left hnear hstep.le

theorem encodeWo_spec (Wo : ℝ) :
    (index32 (encodeWo realMath Wo WO_BITS)).toNat < 2 ^ WO_BITS ∧
      (index32 (encodeWo realMath Wo WO_BITS)).toInt = encodeWo realMath Wo WO_BITS := by
  have h := @clampIndex_lt (1 <<< WO_BITS) (by decide)
    ⌊((1 <<< WO_BITS : Nat) : ℝ) * ((Wo - woMin realMath) / (woMax realMath - woMin realMath)) +
      1 / (2 : Nat)⌋
  exact index32_spec (by decide) h.1 h.2

theorem encodeEnergy_spec (e : ℝ) :
    (index32 (encodeEnergy realMath e E_BITS)).toNat < 2 ^ E_BITS ∧
      (index32 (encodeEnergy realMath e E_BITS)).toInt = encodeEnergy realMath e E_BITS := by
  have h := @clampIndex_lt (1 <<< E_BITS) (by decide)
    ⌊((1 <<< E_BITS : Nat) : ℝ) * (((10 : Nat) * realMath.log10 e - eMinDb) / (eMaxDb - eMinDb)) +
      1 / (2 : Nat)⌋
  exact index32_spec (by decide) h.1 h.2

theorem encodeWo_near {Wo : ℝ} (hge : Real.pi / 80 ≤ Wo) (hle : Wo ≤ Real.pi / 10) :
    |decodeWo realMath (encodeWo realMath Wo WO_BITS) WO_BITS - Wo| ≤
      (Real.pi / 10 - Real.pi / 80) / 128 := by
  have hpi := Real.pi_pos
  have hnear := @levels_near (1 <<< WO_BITS) (by decide) _ _ _ hge hle (by linarith)
  rw [decodeWo, encodeWo, woMin_eq, woMax_eq]
  have hlevels : ((1 <<< WO_BITS : Nat) : ℝ) = 128 := by norm_num [WO_BITS, Nat.shiftLeft_eq]
  simp only [hlevels] at hnear ⊢
  simpa [realMath] using hnear

theorem encodeEnergy_near {e : ℝ} (hge : 1 / 10 ≤ e) (hle : e ≤ 10 ^ 4) :
    |10 * Real.logb 10 (decodeEnergy realMath (encodeEnergy realMath e E_BITS) E_BITS) -
      10 * Real.logb 10 e| ≤ 50 / 32 := by
  have hpos : 0 < e := lt_of_lt_of_le (by norm_num) hge
  have hlow : (-10 : ℝ) ≤ 10 * Real.logb 10 e := by
    have : (-1 : ℝ) ≤ Real.logb 10 e := by
      rw [Real.le_logb_iff_rpow_le (by norm_num) hpos, Real.rpow_neg_one]
      linarith
    linarith
  have hhigh : 10 * Real.logb 10 e ≤ 40 := by
    have : Real.logb 10 e ≤ ((4 : Nat) : ℝ) := by
      rw [Real.logb_le_iff_le_rpow (by norm_num) hpos, Real.rpow_natCast]
      exact hle
    push_cast at this
    linarith
  have hnear := @levels_near (1 <<< E_BITS) (by decide) _ _ _ hlow hhigh (by norm_num)
  have hlevels : ((1 <<< E_BITS : Nat) : ℝ) = 32 := by norm_num [E_BITS, Nat.shiftLeft_eq]
  have hlog (z : ℝ) : 10 * Real.logb 10 (realMath.powf ((10 : Nat) : ℝ) (z / (10 : Nat))) = z := by
    show 10 * Real.logb 10 (((10 : Nat) : ℝ) ^ (z / (10 : Nat))) = z
    push_cast
    rw [Real.logb_rpow (by norm_num) (by norm_num)]
    ring
  rw [decodeEnergy, hlog, encodeEnergy]
  simp only [hlevels] at hnear ⊢
  have hrange : (40 - -10 : ℝ) = 50 := by norm_num
  simpa [realMath, eMinDb, eMaxDb, hrange] using hnear

/-- A frame whose pitch and energy were sent, as it was received. -/
structure Received (sent : Analysis ℝ) (frame : Synthesis ℝ) : Prop where
  voiced : frame.model.voiced = sent.voiced
  pitch : Real.pi / 80 ≤ sent.Wo → sent.Wo ≤ Real.pi / 10 →
    |frame.model.Wo - sent.Wo| ≤ (Real.pi / 10 - Real.pi / 80) / 128
  energy : 1 / 10 ≤ sent.e → sent.e ≤ 10 ^ 4 →
    |10 * Real.logb 10 frame.e - 10 * Real.logb 10 sent.e| ≤ 50 / 32

theorem received_of_indexes {sent : Analysis ℝ} {frame : Synthesis ℝ}
    (hmodel : frame.model =
      decodedModel realMath sent.voiced (index32 (encodeWo realMath sent.Wo WO_BITS)))
    (he : frame.e =
      decodeEnergy realMath (index32 (encodeEnergy realMath sent.e E_BITS)).toInt E_BITS) :
    Received sent frame := by
  refine ⟨by rw [hmodel]; rfl, fun hge hle => ?_, fun hge hle => ?_⟩
  · have hWo : frame.model.Wo =
        decodeWo realMath (index32 (encodeWo realMath sent.Wo WO_BITS)).toInt WO_BITS := by
      rw [hmodel]
      rfl
    rw [hWo, (encodeWo_spec sent.Wo).2]
    exact encodeWo_near hge hle
  · rw [he, (encodeEnergy_spec sent.e).2]
    exact encodeEnergy_near hge hle

/-! ## Line spectral pairs -/

theorem hz_range {lsps : List ℝ} {i : Nat} (h : 0 ≤ lsps.getD i 0 ∧ lsps.getD i 0 ≤ Real.pi) :
    0 ≤ hzAt realMath.toFloatMath lsps i ∧ hzAt realMath.toFloatMath lsps i ≤ 4000 := by
  have hpi := Real.pi_pos
  obtain ⟨hlow, hhigh⟩ := h
  have heq : hzAt realMath.toFloatMath lsps i = 4000 / Real.pi * lsps.getD i 0 := by
    simp [hzAt, realMath]
  rw [heq]
  refine ⟨by positivity, ?_⟩
  rw [div_mul_eq_mul_div, div_le_iff₀ hpi]
  linarith

theorem near_of_le {codebook : LspCodebook} {x : ℝ} {c : Nat} (hc : c ∈ codebook.cb)
    (h : |(c : ℝ) - x| ≤ 20000) : Near codebook x := by
  refine ⟨c, hc, ?_⟩
  have hsq := pow_le_pow_left₀ (abs_nonneg _) h 2
  have hbig : (20000 : ℝ) ^ 2 < ((10 ^ 32 : Nat) : ℝ) := by norm_num
  rw [← sq_abs]
  linarith

theorem Encoded.indexes {F : Type} [Field F] [LinearOrder F] {codebooks : List LspCodebook}
    {targets : List Nat → Nat → F} {indexes : List Nat}
    (h : Encoded codebooks targets LPC_ORD indexes) : Indexes codebooks indexes :=
  ⟨h.length.ge, h.lt⟩

/-- The fields of the indexes, as the encoder packs them and the decoder reads them. -/
theorem Indexes.fit {codebooks : List LspCodebook} (hs : Scalar codebooks)
    (hnarrow : ∀ i < LPC_ORD, (codebookAt codebooks i).log2m ≤ 16) {indexes : List Nat}
    (h : Indexes codebooks indexes) (hlength : indexes.length = LPC_ORD) :
    FitWidths ((indexes.take LPC_ORD).map (BitVec.ofNat 32))
        ((codebooks.take LPC_ORD).map LspCodebook.log2m) ∧
      ((indexes.take LPC_ORD).map (BitVec.ofNat 32)).map BitVec.toNat = indexes := by
  have hcodebooks := hs.length
  have hlt (i : Nat) (hi : i < indexes.length) :
      indexes[i] < 2 ^ (codebookAt codebooks i).log2m ∧ indexes[i] < 2 ^ 32 := by
    have hindex := h.lt i (by omega)
    have hwide : 2 ^ (codebookAt codebooks i).log2m ≤ 2 ^ 16 :=
      Nat.pow_le_pow_right (by decide) (hnarrow i (by omega))
    rw [hs.size i (by omega), List.getD_eq_getElem _ _ hi] at hindex
    exact ⟨hindex, by omega⟩
  have htoNat (i : Nat) (hi : i < indexes.length) :
      (BitVec.ofNat 32 indexes[i]).toNat = indexes[i] := by
    rw [BitVec.toNat_ofNat, Nat.mod_eq_of_lt (hlt i hi).2]
  rw [List.take_of_length_le hlength.le]
  refine ⟨List.forall₂_iff_get.mpr ⟨?_, fun i hi hwidth => ?_⟩, ?_⟩
  · rw [List.length_map, List.length_map, List.length_take, hlength]
    omega
  · rw [List.length_map] at hi
    have hwidth' : ((codebooks.take LPC_ORD).map LspCodebook.log2m)[i]? =
        some (codebookAt codebooks i).log2m := by
      rw [List.getElem?_map, List.getElem?_take_of_lt (by omega), hs.getElem? (by omega)]
      rfl
    obtain ⟨_, hwidth'⟩ := List.getElem?_eq_some_iff.mp hwidth'
    rw [List.get_eq_getElem, List.get_eq_getElem, hwidth', List.getElem_map]
    show (BitVec.ofNat 32 indexes[i]).toNat < _
    rw [htoNat i hi]
    exact (hlt i hi).1
  · apply List.ext_getElem
    · simp
    · intro i hi hi'
      rw [List.getElem_map, List.getElem_map]
      exact htoNat i hi'

/-- Evenly spaced line spectral pairs. -/
theorem even_range (i : Nat) (hi : i < LPC_ORD) :
    0 ≤ ((List.range LPC_ORD).map fun i : Nat => ((i : ℝ) + 1) * Real.pi / 11).getD i 0 ∧
      ((List.range LPC_ORD).map fun i : Nat => ((i : ℝ) + 1) * Real.pi / 11).getD i 0 ≤
        Real.pi := by
  have hpi := Real.pi_pos
  rw [List.getD_eq_getElem _ _ (by simpa using hi), List.getElem_map, List.getElem_range]
  have hle : (i : ℝ) ≤ 9 := by
    have : i ≤ 9 := Nat.le_of_lt_succ hi
    exact_mod_cast this
  have hzero : (0 : ℝ) ≤ i := Nat.cast_nonneg i
  refine ⟨by positivity, ?_⟩
  have := mul_le_mul_of_nonneg_right hle hpi.le
  linarith

end Lxst.Codec2
