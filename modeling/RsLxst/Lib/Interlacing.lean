import Mathlib.Analysis.Complex.Basic
import RsLxst.Lib.LineSpectrum

/-!
# Interlacing zeros

Half the sum of `(1 + X) * factors x m` and `(1 - X) * factors y m` has no zero in the closed unit
disc when the two families interlace in `(-1, 1)` (`Interlaced.ne_zero`). The second summand is the
first times a sum of functions that have no negative real part there, with positive weights
(`Interlaced.exists_weights`).
-/

set_option autoImplicit false

open Finset Polynomial

namespace LineSpectrum

/-- `1 > x 0 > y 0 > x 1 > y 1 > … > -1` -/
structure Interlaced (x y : ℕ → ℝ) (m : ℕ) : Prop where
  below : ∀ i j, i ≤ j → j < m → y j < x i
  above : ∀ i j, i < j → j < m → x j < y i
  top : ∀ i < m, x i < 1
  bottom : ∀ i < m, -1 < y i

variable {x y : ℕ → ℝ} {m : ℕ}

namespace Interlaced

theorem antitone (h : Interlaced x y m) {i j : ℕ} (hij : i < j) (hj : j < m) : x j < x i :=
  (h.above i j hij hj).trans (h.below i i le_rfl (by omega))

theorem bottom_x (h : Interlaced x y m) {i : ℕ} (hi : i < m) : -1 < x i :=
  (h.bottom i hi).trans (h.below i i le_rfl hi)

theorem disjoint (h : Interlaced x y m) {i j : ℕ} (hi : i < m) (hj : j < m) : x i ≠ y j := by
  by_cases hij : i ≤ j
  · exact (h.below i j hij hj).ne'
  · exact (h.above j i (by omega) hi).ne

/-! ## The weights -/

/-- The two products at a zero of the first have the same sign. -/
theorem weight_pos (h : Interlaced x y m) {i : ℕ} (hi : i < m) :
    0 < (∏ j ∈ range m, (x i - y j)) / ∏ j ∈ (range m).erase i, (x i - x j) := by
  rw [← mul_prod_erase _ _ (mem_range.mpr hi), mul_div_assoc, ← prod_div_distrib]
  apply mul_pos (sub_pos.mpr (h.below i i le_rfl hi))
  apply prod_pos
  intro j hj
  obtain ⟨hne, hj⟩ := mem_erase.mp hj
  rw [mem_range] at hj
  obtain hlt | hlt := Nat.lt_or_gt_of_ne hne
  · apply div_pos_of_neg_of_neg
    · linarith [h.above j i hlt hi]
    · linarith [h.antitone hlt hi]
  · apply div_pos
    · linarith [h.below i j hlt.le hj]
    · linarith [h.antitone hlt hj]

/-- The product of the second family over the first one. -/
theorem exists_weights (h : Interlaced x y m) :
    ∃ d : ℝ, ∃ c : ℕ → ℝ, 0 < d ∧ (∀ i < m, 0 < c i) ∧
      (∏ i ∈ range m, (X - C (y i)) : ℝ[X]) = C d * ∏ i ∈ range m, (X - C (x i)) +
        (X + 1) * ∑ i ∈ range m, C (c i) * ∏ j ∈ (range m).erase i, (X - C (x j)) := by
  have hbottom : ∏ i ∈ range m, (-1 - x i) ≠ 0 := by
    rw [prod_ne_zero_iff]
    intro i hi
    linarith [h.bottom_x (mem_range.mp hi)]
  have hnode {i : ℕ} (hi : i < m) : x i + 1 ≠ 0 := by linarith [h.bottom_x hi]
  have hother {i : ℕ} (hi : i < m) : ∏ j ∈ (range m).erase i, (x i - x j) ≠ 0 := by
    rw [prod_ne_zero_iff]
    intro j hj
    obtain ⟨hne, hj⟩ := mem_erase.mp hj
    rw [mem_range] at hj
    obtain hlt | hlt := Nat.lt_or_gt_of_ne hne
    · linarith [h.antitone hlt hi]
    · linarith [h.antitone hlt hj]
  let c (i : ℕ) : ℝ :=
    (∏ j ∈ range m, (x i - y j)) / (∏ j ∈ (range m).erase i, (x i - x j)) / (x i + 1)
  refine ⟨(∏ i ∈ range m, (-1 - y i)) / ∏ i ∈ range m, (-1 - x i), c, ?_,
    fun i hi => div_pos (h.weight_pos hi) (by linarith [h.bottom_x hi]), ?_⟩
  · rw [← prod_div_distrib]
    apply prod_pos
    intro i hi
    rw [mem_range] at hi
    apply div_pos_of_neg_of_neg
    · linarith [h.bottom i hi]
    · linarith [h.bottom_x hi]
  -- two polynomials of degree at most `m` that agree on the first family and at `-1`
  have hinj : Set.InjOn (fun i => if i < m then x i else -1) (range (m + 1)) := by
    intro i hi j hj he
    simp only [coe_range, Set.mem_Iio] at hi hj
    dsimp only at he
    split at he <;> split at he
    · rename_i hi' hj'
      by_contra hne
      obtain hlt | hlt := Nat.lt_or_gt_of_ne hne
      · exact (h.antitone hlt hj').ne he.symm
      · exact (h.antitone hlt hi').ne he
    · exact absurd he (h.bottom_x (by assumption)).ne'
    · exact absurd he (h.bottom_x (by assumption)).ne
    · omega
  have hlt {p : ℝ[X]} (hp : p.natDegree ≤ m) : p.degree < (range (m + 1)).card := by
    rw [card_range]
    exact degree_le_natDegree.trans_lt (by exact_mod_cast Nat.lt_succ_of_le hp)
  have hprod (z : ℕ → ℝ) (s : Finset ℕ) :
      (∏ i ∈ s, (X - C (z i)) : ℝ[X]).natDegree = s.card := by simp
  apply eq_of_degrees_lt_of_eval_index_eq (range (m + 1)) hinj
  · apply hlt
    rw [hprod, card_range]
  · apply hlt
    apply natDegree_add_le_of_degree_le
    · apply (natDegree_C_mul_le _ _).trans
      rw [hprod, card_range]
    · have hone : (X + 1 : ℝ[X]).natDegree ≤ 1 := by
        rw [← C_1, natDegree_X_add_C]
      have hsum : (∑ i ∈ range m, C (c i) * ∏ j ∈ (range m).erase i, (X - C (x j)) : ℝ[X]).natDegree
          ≤ m - 1 := by
        apply natDegree_sum_le_of_forall_le
        intro i hi
        apply (natDegree_C_mul_le _ _).trans
        rw [hprod, card_erase_of_mem hi, card_range]
      obtain rfl | hpos := Nat.eq_zero_or_pos m
      · simp
      · apply natDegree_mul_le_of_le hone hsum |>.trans
        omega
  · intro i hi
    simp only [mem_range] at hi
    simp only [eval_add, eval_mul, eval_C, eval_prod, eval_sub, eval_X, eval_finsetSum, eval_one]
    by_cases him : i < m
    · have hzero : ∏ j ∈ range m, (x i - x j) = 0 :=
        prod_eq_zero (mem_range.mpr him) (sub_self (x i))
      rw [if_pos him, hzero, mul_zero, zero_add, sum_eq_single_of_mem i (mem_range.mpr him)]
      · have := hnode him
        have := hother him
        simp only [c]
        field_simp
      · intro j _ hne
        rw [prod_eq_zero (mem_erase.mpr ⟨hne.symm, mem_range.mpr him⟩) (sub_self (x i)), mul_zero]
    · rw [if_neg him, neg_add_cancel, zero_mul, add_zero, div_mul_cancel₀ _ hbottom]

/-! ## In the disc -/

theorem re_div_nonneg {z w : ℂ} (h : 0 ≤ z.re * w.re + z.im * w.im) : 0 ≤ (z / w).re := by
  rw [Complex.div_re, ← add_div]
  exact div_nonneg h (Complex.normSq_nonneg w)

theorem sq_add_sq_le {w : ℂ} (hw : ‖w‖ ≤ 1) : w.re ^ 2 + w.im ^ 2 ≤ 1 := by
  have hsq := pow_le_one₀ (norm_nonneg w) hw (n := 2)
  rw [Complex.sq_norm, Complex.normSq_apply] at hsq
  linarith [sq w.re, sq w.im]

theorem re_first_nonneg {w : ℂ} (hw : ‖w‖ ≤ 1) : 0 ≤ ((1 - w) / (1 + w)).re := by
  have hdisc := sq_add_sq_le hw
  apply re_div_nonneg
  simp
  nlinarith only [hdisc]

theorem re_factor_nonneg {w : ℂ} (hw : ‖w‖ ≤ 1) {x : ℝ} (hx : -1 < x) (hx' : x < 1) :
    0 ≤ ((1 - w) * (1 + w) / (1 - 2 * x * w + w ^ 2)).re := by
  have hdisc := sq_add_sq_le hw
  apply re_div_nonneg
  have hre : ((1 - w) * (1 + w)).re = 1 - w.re ^ 2 + w.im ^ 2 := by
    simp
    ring
  have him : ((1 - w) * (1 + w)).im = -2 * w.re * w.im := by
    simp
    ring
  have hre' : (1 - 2 * x * w + w ^ 2).re = 1 - 2 * x * w.re + w.re ^ 2 - w.im ^ 2 := by
    simp [pow_two]
    ring
  have him' : (1 - 2 * x * w + w ^ 2).im = 2 * w.re * w.im - 2 * x * w.im := by
    simp [pow_two]
    ring
  have hsplit : (1 - w.re ^ 2 + w.im ^ 2) * (1 - 2 * x * w.re + w.re ^ 2 - w.im ^ 2) +
      -2 * w.re * w.im * (2 * w.re * w.im - 2 * x * w.im) =
        (1 - (w.re ^ 2 + w.im ^ 2)) * ((w.re - x) ^ 2 + (1 - x ^ 2) + w.im ^ 2) := by ring
  rw [hre, him, hre', him', hsplit]
  apply mul_nonneg (by linarith)
  nlinarith only [sq_nonneg (w.re - x), sq_nonneg w.im, hx, hx']

/-- The product of the second family at a point of the plane. -/
theorem exists_quotient (h : Interlaced x y m) :
    ∃ d : ℝ, ∃ c : ℕ → ℝ, 0 < d ∧ (∀ i < m, 0 < c i) ∧ ∀ w : ℂ, w ≠ 0 →
      ∏ i ∈ range m, (1 - 2 * (y i : ℂ) * w + w ^ 2) =
        (d : ℂ) * ∏ i ∈ range m, (1 - 2 * (x i : ℂ) * w + w ^ 2) +
          (1 + w) ^ 2 * ∑ i ∈ range m, (c i : ℂ) *
            ∏ j ∈ (range m).erase i, (1 - 2 * (x j : ℂ) * w + w ^ 2) := by
  obtain ⟨d, c, hd, hc, hsplit⟩ := h.exists_weights
  refine ⟨d, c, hd, hc, fun w hw => ?_⟩
  have hfactor (z : ℝ) : 2 * w * ((w + w⁻¹) / 2 - z) = 1 - 2 * (z : ℂ) * w + w ^ 2 := by
    field_simp
    ring
  have hprod (z : ℕ → ℝ) (s : Finset ℕ) :
      ∏ i ∈ s, (1 - 2 * (z i : ℂ) * w + w ^ 2) =
        (2 * w) ^ s.card * ∏ i ∈ s, ((w + w⁻¹) / 2 - (z i : ℂ)) := by
    rw [← prod_const, ← prod_mul_distrib]
    exact prod_congr rfl fun i _ => (hfactor (z i)).symm
  have hpoint := congrArg (aeval ((w + w⁻¹) / 2)) hsplit
  simp only [map_prod, map_sub, map_add, map_mul, map_sum, aeval_X, aeval_C, map_one,
    Complex.coe_algebraMap] at hpoint
  have hterm (i : ℕ) (hi : i ∈ range m) :
      (1 + w) ^ 2 * (c i * ∏ j ∈ (range m).erase i, (1 - 2 * (x j : ℂ) * w + w ^ 2)) =
        (2 * w) ^ m * (((w + w⁻¹) / 2 + 1) *
          (c i * ∏ j ∈ (range m).erase i, ((w + w⁻¹) / 2 - (x j : ℂ)))) := by
    have hcard : ((range m).erase i).card + 1 = m := by
      rw [card_erase_add_one hi, card_range]
    have hpow : (2 * w) ^ m = (2 * w) ^ ((range m).erase i).card * (2 * w) := by
      rw [← pow_succ, hcard]
    have hsquare : (1 + w) ^ 2 = 2 * w * ((w + w⁻¹) / 2 + 1) := by
      field_simp
      ring
    rw [hprod, hpow, hsquare]
    ring
  have hsum : (1 + w) ^ 2 * ∑ i ∈ range m,
        (c i : ℂ) * ∏ j ∈ (range m).erase i, (1 - 2 * (x j : ℂ) * w + w ^ 2) =
      (2 * w) ^ m * (((w + w⁻¹) / 2 + 1) * ∑ i ∈ range m,
        (c i : ℂ) * ∏ j ∈ (range m).erase i, ((w + w⁻¹) / 2 - (x j : ℂ))) := by
    rw [mul_sum, sum_congr rfl hterm, ← mul_sum, ← mul_sum]
  rw [hprod y, hprod x, card_range, hpoint, hsum]
  ring

/-- At a zero of a factor of the first family the other product is not zero. -/
theorem ne_zero_of_factor (h : Interlaced x y m) {w : ℂ} {i : ℕ} (hi : i < m)
    (hfactor : 1 - 2 * (x i : ℂ) * w + w ^ 2 = 0) :
    (1 - w) * ∏ j ∈ range m, (1 - 2 * (y j : ℂ) * w + w ^ 2) ≠ 0 := by
  have hne : w ≠ 0 := by
    rintro rfl
    simp at hfactor
  apply mul_ne_zero
  · intro hone
    obtain rfl : w = 1 := (sub_eq_zero.mp hone).symm
    have hx : (x i : ℂ) = 1 := by linear_combination (-1 / 2) * hfactor
    exact (h.top i hi).ne (by exact_mod_cast hx)
  · rw [prod_ne_zero_iff]
    intro j hj hzero
    have hdiff : ((x i : ℂ) - y j) * (2 * w) = 0 := by linear_combination hzero - hfactor
    have hsame : (x i : ℂ) = y j :=
      sub_eq_zero.mp ((mul_eq_zero.mp hdiff).resolve_right (by simpa using hne))
    exact h.disjoint hi (mem_range.mp hj) (by exact_mod_cast hsame)

/-- **No zero in the disc.** -/
theorem ne_zero (h : Interlaced x y m) {w : ℂ} (hw : ‖w‖ ≤ 1) :
    (1 + w) * ∏ i ∈ range m, (1 - 2 * (x i : ℂ) * w + w ^ 2) +
      (1 - w) * ∏ i ∈ range m, (1 - 2 * (y i : ℂ) * w + w ^ 2) ≠ 0 := by
  intro hsum
  by_cases hfactor : ∃ i < m, 1 - 2 * (x i : ℂ) * w + w ^ 2 = 0
  · obtain ⟨i, hi, hzero⟩ := hfactor
    rw [prod_eq_zero (mem_range.mpr hi) hzero, mul_zero, zero_add] at hsum
    exact h.ne_zero_of_factor hi hzero hsum
  push Not at hfactor
  obtain rfl | hne := eq_or_ne w 0
  · norm_num at hsum
  obtain ⟨d, c, hd, hc, hquotient⟩ := h.exists_quotient
  have hproduct : ∏ i ∈ range m, (1 - 2 * (x i : ℂ) * w + w ^ 2) ≠ 0 := by
    rw [prod_ne_zero_iff]
    exact fun i hi => hfactor i (mem_range.mp hi)
  rw [hquotient w hne] at hsum
  by_cases hlast : 1 + w = 0
  · have hw' : (1 - w) ≠ 0 := by
      intro hone
      have htwo : (2 : ℂ) = 0 := by linear_combination hone + hlast
      exact two_ne_zero htwo
    have hd' : (d : ℂ) ≠ 0 := by exact_mod_cast hd.ne'
    rw [hlast, zero_mul, zero_add, zero_pow two_ne_zero, zero_mul, add_zero] at hsum
    exact mul_ne_zero hw' (mul_ne_zero hd' hproduct) hsum
  · have hterm (i : ℕ) (hi : i ∈ range m) :
        ∏ j ∈ (range m).erase i, (1 - 2 * (x j : ℂ) * w + w ^ 2) =
          (∏ j ∈ range m, (1 - 2 * (x j : ℂ) * w + w ^ 2)) /
            (1 - 2 * (x i : ℂ) * w + w ^ 2) := by
      rw [← mul_prod_erase _ _ hi, mul_div_cancel_left₀ _ (hfactor i (mem_range.mp hi))]
    have hmiddle : (1 + w) * (∏ j ∈ range m, (1 - 2 * (x j : ℂ) * w + w ^ 2)) *
        (d * ((1 - w) / (1 + w))) =
          (1 - w) * (d * ∏ j ∈ range m, (1 - 2 * (x j : ℂ) * w + w ^ 2)) := by
      field_simp
    have hrest : (1 + w) * (∏ j ∈ range m, (1 - 2 * (x j : ℂ) * w + w ^ 2)) * ∑ i ∈ range m,
          (c i : ℂ) * ((1 - w) * (1 + w) / (1 - 2 * (x i : ℂ) * w + w ^ 2)) =
        (1 - w) * ((1 + w) ^ 2 * ∑ i ∈ range m,
          (c i : ℂ) * ∏ j ∈ (range m).erase i, (1 - 2 * (x j : ℂ) * w + w ^ 2)) := by
      rw [mul_sum, mul_sum, mul_sum]
      apply sum_congr rfl
      intro i hi
      rw [hterm i hi]
      ring
    have hone : 1 + (d : ℂ) * ((1 - w) / (1 + w)) + ∑ i ∈ range m,
        (c i : ℂ) * ((1 - w) * (1 + w) / (1 - 2 * (x i : ℂ) * w + w ^ 2)) = 0 := by
      apply (mul_eq_zero.mp _).resolve_left (mul_ne_zero hlast hproduct)
      linear_combination hsum + hmiddle + hrest
    have hre := congrArg Complex.re hone
    simp only [Complex.add_re, Complex.one_re, Complex.re_ofReal_mul, Complex.re_sum,
      Complex.zero_re] at hre
    have hfirst := mul_nonneg hd.le (re_first_nonneg hw)
    have hrest := sum_nonneg fun i (hi : i ∈ range m) =>
      mul_nonneg (hc i (mem_range.mp hi)).le (re_factor_nonneg hw
        (h.bottom_x (mem_range.mp hi)) (h.top i (mem_range.mp hi)))
    linarith

end Interlaced

end LineSpectrum
