import RsLxst.Codec2.Proof.LspToLpc
import RsLxst.Lib.Interlacing

/-!
# Stable synthesis filters

The cosines of ascending line spectral pairs interlace, so the polynomial that `lsp_to_lpc` writes
has all its zeros within the unit circle.
-/

set_option autoImplicit false

namespace Lxst.Codec2

open Polynomial LineSpectrum

/-- The first `order` entries ascend, between zero and `π`. -/
structure Ascending (lsp : List ℝ) (order : Nat) : Prop where
  length : order ≤ lsp.length
  pos : ∀ i < order, 0 < lsp.getD i 0
  lt : ∀ i j, i < j → j < order → lsp.getD i 0 < lsp.getD j 0
  lt_pi : ∀ i < order, lsp.getD i 0 < Real.pi

/-- The poles of the filter with the denominator `ak`. -/
def Stable (ak : List ℝ) (order : Nat) : Prop :=
  ∀ z : ℂ, ∑ i ∈ Finset.range (order + 1), ((ak.getD i 0 : ℝ) : ℂ) * z ^ (order - i) = 0 → ‖z‖ < 1

variable {x y : Nat → ℝ} {m : Nat}

theorem Ascending.interlaced {lsp : List ℝ} (h : Ascending lsp (2 * m)) :
    Interlaced (fun i => Real.cos (lsp.getD (2 * i) 0)) (fun i => Real.cos (lsp.getD (2 * i + 1) 0))
      m := by
  have hcos {i j : Nat} (hij : i < j) (hj : j < 2 * m) :
      Real.cos (lsp.getD j 0) < Real.cos (lsp.getD i 0) :=
    Real.cos_lt_cos_of_nonneg_of_le_pi (h.pos i (by omega)).le (h.lt_pi j hj).le (h.lt i j hij hj)
  refine ⟨fun i j _ _ => hcos (by omega) (by omega), fun i j _ _ => hcos (by omega) (by omega),
    fun i hi => ?_, fun i hi => ?_⟩
  · rw [← Real.cos_zero]
    exact Real.cos_lt_cos_of_nonneg_of_le_pi le_rfl (h.lt_pi (2 * i) (by omega)).le
      (h.pos (2 * i) (by omega))
  · rw [← Real.cos_pi]
    exact Real.cos_lt_cos_of_nonneg_of_le_pi (h.pos (2 * i + 1) (by omega)).le le_rfl
      (h.lt_pi (2 * i + 1) (by omega))

theorem monic_factors (x : Nat → ℝ) (m : Nat) :
    (factors x m).Monic ∧ (factors x m).natDegree = 2 * m := by
  have hquadratic (i : Nat) : (1 - C ((2 : ℕ) * x i) * X + X ^ 2 : ℝ[X]) =
      C 1 * X ^ 2 + C (-((2 : ℕ) * x i)) * X + C 1 := by
    rw [C_neg, C_1]
    ring
  have hmonic : ∀ i ∈ Finset.range m, (1 - C ((2 : ℕ) * x i) * X + X ^ 2 : ℝ[X]).Monic := by
    intro i _
    rw [hquadratic]
    exact leadingCoeff_quadratic one_ne_zero
  refine ⟨monic_prod_of_monic _ _ hmonic, ?_⟩
  rw [factors, natDegree_prod_of_monic _ _ hmonic, Finset.sum_congr rfl fun i _ => by
    rw [hquadratic, natDegree_quadratic one_ne_zero]]
  simp [mul_comm]

/-- What `lsp_to_lpc` writes, at a point of the plane. -/
theorem sum_lspOutput (x y : Nat → ℝ) (m : Nat) (w : ℂ) :
    ∑ j ∈ Finset.range (2 * m + 1), ((lspOutput x y m j : ℝ) : ℂ) * w ^ j =
      ((1 + w) * ∏ i ∈ Finset.range m, (1 - 2 * (x i : ℂ) * w + w ^ 2) +
        (1 - w) * ∏ i ∈ Finset.range m, (1 - 2 * (y i : ℂ) * w + w ^ 2)) / 2 := by
  obtain ⟨hmonic, hdegree⟩ := monic_factors x m
  obtain ⟨hmonic', hdegree'⟩ := monic_factors y m
  have hnatDegree : ((1 + X) * factors x m + (1 - X) * factors y m).natDegree < 2 * m + 1 := by
    rw [Nat.lt_succ_iff, natDegree_le_iff_coeff_eq_zero]
    intro n hn
    obtain ⟨k, rfl⟩ : ∃ k, n = k + 1 := ⟨n - 1, by omega⟩
    have hzero {p : ℝ[X]} {n : Nat} (hp : p.natDegree = 2 * m) (hn : 2 * m < n) : p.coeff n = 0 :=
      coeff_eq_zero_of_natDegree_lt (by omega)
    rw [add_mul, sub_mul, one_mul, one_mul, coeff_add, coeff_add, coeff_sub, coeff_X_mul,
      coeff_X_mul, hzero hdegree hn, hzero hdegree' hn]
    obtain rfl | hlt := eq_or_lt_of_le (Nat.lt_succ_iff.mp hn)
    · have hx := hmonic.coeff_natDegree
      have hy := hmonic'.coeff_natDegree
      rw [hdegree] at hx
      rw [hdegree'] at hy
      rw [hx, hy]
      ring
    · rw [hzero hdegree hlt, hzero hdegree' hlt]
      ring
  have hfactors (x : Nat → ℝ) : aeval w (factors x m) =
      ∏ i ∈ Finset.range m, (1 - 2 * (x i : ℂ) * w + w ^ 2) := by
    rw [factors, map_prod]
    apply Finset.prod_congr rfl
    intro i _
    simp
  have heval := aeval_eq_sum_range' hnatDegree w
  rw [map_add, map_mul, map_mul, map_add, map_sub, map_one, aeval_X, hfactors, hfactors] at heval
  rw [heval, div_eq_mul_inv, Finset.sum_mul]
  apply Finset.sum_congr rfl
  intro j _
  rw [lspOutput, Complex.real_smul]
  push_cast
  ring

/-- The filter of interlacing zeros. -/
theorem stable_of_interlaced (h : Interlaced x y m) {ak : List ℝ}
    (hak : ∀ j ≤ 2 * m, ak[j]? = some (lspOutput x y m j)) : Stable ak (2 * m) := by
  intro z hz
  by_contra hlarge
  have hne : z ≠ 0 := by
    rintro rfl
    simp at hlarge
  have hw : ‖z⁻¹‖ ≤ 1 := by
    rw [norm_inv]
    exact inv_le_one_of_one_le₀ (not_lt.mp hlarge)
  have hterm (j : Nat) (hj : j ∈ Finset.range (2 * m + 1)) :
      ((ak.getD j 0 : ℝ) : ℂ) * z ^ (2 * m - j) =
        z ^ (2 * m) * (((lspOutput x y m j : ℝ) : ℂ) * z⁻¹ ^ j) := by
    simp only [Finset.mem_range] at hj
    have hpow : z ^ (2 * m) * z⁻¹ ^ j = z ^ (2 * m - j) := by
      rw [inv_pow]
      exact (pow_sub₀ z hne (by omega)).symm
    rw [List.getD_eq_getElem?_getD, hak j (by omega), Option.getD_some, ← hpow]
    ring
  rw [Finset.sum_congr rfl hterm, ← Finset.mul_sum, sum_lspOutput] at hz
  obtain hz | hz := mul_eq_zero.mp hz
  · exact pow_ne_zero _ hne hz
  · exact h.ne_zero hw ((div_eq_zero_iff.mp hz).resolve_right two_ne_zero)

/-- The synthesis filter of ascending line spectral pairs is stable. -/
theorem lspToLpc_stable (math : FloatMath ℝ) (hcos : math.cos = Real.cos) {lsp ak : List ℝ}
    {order : Nat} (heven : order % 2 = 0) (horder : 2 ≤ order) (hmax : order ≤ LPC_ORD)
    (hak : order < ak.length) (hlsp : Ascending lsp order) :
    ∃ ak', lspToLpc math lsp ak order = some ak' ∧ ak'.length = ak.length ∧ ak'[0]? = some 1 ∧
      Stable ak' order := by
  obtain ⟨m, rfl⟩ : ∃ m, order = 2 * m := ⟨order / 2, by omega⟩
  have hlength := hlsp.length
  have hget (i : Nat) (hi : i < 2 * m) :
      (lsp[i]?).map math.cos = some (Real.cos (lsp.getD i 0)) := by
    rw [hcos, List.getD_eq_getElem?_getD, List.getElem?_eq_getElem (by omega)]
    rfl
  obtain ⟨ak', hrun, hfilled⟩ := @lspToLpc_eq ℝ _ (fun i => Real.cos (lsp.getD (2 * i) 0))
    (fun i => Real.cos (lsp.getD (2 * i + 1) 0)) (2 * m) math lsp ak horder hmax hak
    (fun i hi => hget (2 * i) (by omega)) (fun i hi => hget (2 * i + 1) (by omega)) hlength
  have hm : 2 * m / 2 = m := by omega
  rw [hm] at hfilled
  refine ⟨ak', hrun, hfilled.length, ?_, stable_of_interlaced
    hlsp.interlaced fun j hj => hfilled.get_in (by omega) (by omega)⟩
  rw [hfilled.get_in (by omega) (by omega), lspOutput]
  simp [coeff_zero_eq_eval_zero, factors, eval_prod]
  norm_num

end Lxst.Codec2
