import Mathlib.Analysis.Real.Pi.Bounds
import Mathlib.Analysis.SpecialFunctions.Log.Base
import Mathlib.Analysis.SpecialFunctions.Pow.Real
import RsLxst.Codec2.Frames

/-!
# Pitch and energy

Any index of their width decodes to a pitch between `Wo_min` and `Wo_max`, with 10 to 80 harmonics
(`pitch_decoded`), and to an energy between -10 dB and 40 dB (`energy_decoded`). Interpolation keeps
both within their bounds.
-/

set_option autoImplicit false

namespace Lxst.Codec2

/-- Pitch and energy over the reals. -/
noncomputable def realMath : ParamMath ℝ where
  pi := Real.pi
  acos := Real.arccos
  cos := Real.cos
  log10 := Real.logb 10
  powf := fun x y => x ^ y
  sqrt := Real.sqrt
  floor := Int.floor

/-- A pitch between its bounds, and its harmonics. -/
structure Pitch (model : Model ℝ) : Prop where
  ge : Real.pi / 80 ≤ model.Wo
  le : model.Wo ≤ Real.pi / 10
  harmonics : model.L = toUsize realMath (Real.pi / model.Wo)

theorem woMin_eq : woMin realMath = Real.pi / 80 := by
  simp [woMin, realMath, P_MAX]
  ring

theorem woMax_eq : woMax realMath = Real.pi / 10 := by
  simp [woMax, realMath, P_MIN]
  ring

theorem Pitch.count {model : Model ℝ} (h : Pitch model) : 10 ≤ model.L ∧ model.L ≤ 80 := by
  have hpi := Real.pi_pos
  have hge := h.ge
  have hle := h.le
  have hWo : 0 < model.Wo := lt_of_lt_of_le (by positivity) hge
  have hlow : ((10 : ℕ) : ℝ) ≤ Real.pi / model.Wo := by
    rw [le_div_iff₀ hWo]
    push_cast
    linarith
  have hhigh : Real.pi / model.Wo ≤ ((80 : ℕ) : ℝ) := by
    rw [div_le_iff₀ hWo]
    push_cast
    linarith
  have hfloor : model.L = ⌊Real.pi / model.Wo⌋₊ := by
    rw [h.harmonics]
    exact Int.floor_toNat _
  rw [hfloor]
  exact ⟨Nat.le_floor hlow, Nat.floor_le_of_le hhigh⟩

theorem toInt_of_lt {value : BitVec 32} {width : Nat} (hwidth : width ≤ 16)
    (hvalue : value.toNat < 2 ^ width) : (value.toInt : ℝ) = (value.toNat : ℝ) := by
  have hpow : 2 ^ width ≤ 2 ^ 16 := Nat.pow_le_pow_right (by decide) hwidth
  rw [BitVec.toInt_eq_toNat_of_lt (by omega)]
  simp

theorem pitch_new : Pitch (Model.new realMath P_MAX) := by
  have hpi := Real.pi_pos
  have hWo : (Model.new realMath P_MAX).Wo = Real.pi / 80 := woMin_eq
  refine ⟨hWo.ge, ?_, rfl⟩
  rw [hWo]
  linarith

theorem pitch_decoded (voiced : BitVec 32) {woIndex : BitVec 32}
    (hindex : woIndex.toNat < 2 ^ WO_BITS) : Pitch (decodedModel realMath voiced woIndex) := by
  have hpi := Real.pi_pos
  have hWo : (decodedModel realMath voiced woIndex).Wo =
      Real.pi / 80 + (Real.pi / 10 - Real.pi / 80) / 128 * woIndex.toNat := by
    simp only [decodedModel, decodeWo, woMin_eq, woMax_eq, toInt_of_lt (by decide) hindex]
    norm_num [WO_BITS, Nat.shiftLeft_eq]
  have hcast : (woIndex.toNat : ℝ) ≤ 128 := by
    have : woIndex.toNat ≤ 128 := Nat.le_of_lt hindex
    exact_mod_cast this
  have hzero : (0 : ℝ) ≤ woIndex.toNat := Nat.cast_nonneg _
  have hstep : 0 ≤ Real.pi / 10 - Real.pi / 80 := by linarith
  refine ⟨?_, ?_, rfl⟩
  · rw [hWo]
    have : 0 ≤ (Real.pi / 10 - Real.pi / 80) / 128 * woIndex.toNat := by positivity
    linarith
  · rw [hWo]
    have := mul_le_mul_of_nonneg_left hcast (div_nonneg hstep (by norm_num : (0 : ℝ) ≤ 128))
    linarith

/-- The pitch of a frame in between. -/
theorem Pitch.interpWo {prev next : Model ℝ} (hprev : Pitch prev) (hnext : Pitch next)
    (voiced : BitVec 32) :
    Pitch (interpWo realMath (voicedModel realMath voiced) prev next (woMin realMath)) := by
  have hnew := pitch_new
  have hmin : Real.pi / 80 ≤ woMin realMath ∧ woMin realMath ≤ Real.pi / 10 :=
    ⟨hnew.ge, hnew.le⟩
  have hWo : Real.pi / 80 ≤
        (Codec2.interpWo realMath (voicedModel realMath voiced) prev next (woMin realMath)).Wo ∧
      (Codec2.interpWo realMath (voicedModel realMath voiced) prev next (woMin realMath)).Wo ≤
        Real.pi / 10 := by
    have hp := hprev.ge
    have hp' := hprev.le
    have hn := hnext.ge
    have hn' := hnext.le
    simp only [Codec2.interpWo, interpWo2]
    split
    · split
      · push_cast
        exact ⟨by linarith, by linarith⟩
      · split
        · exact ⟨hn, hn'⟩
        · split
          · exact ⟨hp, hp'⟩
          · exact ⟨hnew.ge, hnew.le⟩
    · exact hmin
  exact ⟨hWo.1, hWo.2, rfl⟩

/-- An energy between its bounds. -/
structure Energy (e : ℝ) : Prop where
  ge : 1 / 10 ≤ e
  le : e ≤ 10 ^ 4

theorem energy_decoded {eIndex : BitVec 32} (hindex : eIndex.toNat < 2 ^ E_BITS) :
    Energy (decodeEnergy realMath eIndex.toInt E_BITS) := by
  have he : decodeEnergy realMath eIndex.toInt E_BITS =
      (10 : ℝ) ^ ((-10 + 50 / 32 * (eIndex.toNat : ℝ)) / 10) := by
    simp only [decodeEnergy, eMinDb, eMaxDb, toInt_of_lt (by decide) hindex]
    norm_num [realMath, E_BITS, Nat.shiftLeft_eq]
  have hcast : (eIndex.toNat : ℝ) ≤ 32 := by
    have : eIndex.toNat ≤ 32 := Nat.le_of_lt hindex
    exact_mod_cast this
  have hzero : (0 : ℝ) ≤ eIndex.toNat := Nat.cast_nonneg _
  rw [he]
  refine ⟨?_, ?_⟩
  · have hpow := Real.rpow_le_rpow_of_exponent_le (by norm_num : (1 : ℝ) ≤ 10)
      (by linarith : (-1 : ℝ) ≤ (-10 + 50 / 32 * (eIndex.toNat : ℝ)) / 10)
    rw [Real.rpow_neg_one] at hpow
    linarith
  · have hpow := Real.rpow_le_rpow_of_exponent_le (by norm_num : (1 : ℝ) ≤ 10)
      (by linarith : (-10 + 50 / 32 * (eIndex.toNat : ℝ)) / 10 ≤ ((4 : ℕ) : ℝ))
    rwa [Real.rpow_natCast] at hpow

theorem Energy.interp {prevE nextE : ℝ} (hprev : Energy prevE) (hnext : Energy nextE) :
    Energy (interpEnergy realMath prevE nextE) := by
  have hp := hprev.ge
  have hn := hnext.ge
  refine ⟨?_, ?_⟩
  · apply Real.le_sqrt_of_sq_le
    rw [pow_two]
    exact mul_le_mul hp hn (by norm_num) (by linarith)
  · apply Real.sqrt_le_iff.mpr
    refine ⟨by norm_num, ?_⟩
    rw [pow_two]
    exact mul_le_mul hprev.le hnext.le (by linarith) (by norm_num)

end Lxst.Codec2
