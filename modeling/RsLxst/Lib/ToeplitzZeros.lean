import Mathlib.Analysis.Complex.Norm
import Mathlib.Data.Complex.BigOperators
import RsLxst.Lib.Toeplitz

/-!
# The zeros of a solution

The solution of the normal equations of a positive definite real sequence has all its zeros within
the unit circle (`Solves.norm_lt_one`). A zero `z` divides it: `a` is `quotient a z` minus `z` times
`quotient a z` one place later. The equations make `a` orthogonal to what is later, and the form is
the same one place later, so it is `1 - z * conj z` times the form of the quotient.
-/

set_option autoImplicit false

open Finset ComplexConjugate

namespace Toeplitz

variable {r : ℕ → ℝ} {n : ℕ} {a : ℕ → ℝ} {e : ℝ}

/-- The sesquilinear form. -/
def form (r : ℕ → ℝ) (n : ℕ) (u v : ℕ → ℂ) : ℂ :=
  ∑ j ∈ range (n + 1), conj (v j) * row (fun i => (r i : ℂ)) n u j

theorem row_ofReal (x : ℕ → ℝ) (j : ℕ) :
    row (fun i => (r i : ℂ)) n (fun i => (x i : ℂ)) j = ((row r n x j : ℝ) : ℂ) := by
  simp [row]

theorem Solves.ofReal (h : Solves r n a e) :
    Solves (fun i => (r i : ℂ)) n (fun i => (a i : ℂ)) (e : ℂ) := by
  refine ⟨by simp [h.one], fun i hi => by simp [h.support i hi], ?_, fun j hj hj' => ?_⟩
  · rw [row_ofReal, h.first]
  · rw [row_ofReal, h.rest j hj hj', Complex.ofReal_zero]

theorem form_sub_mul (u v w : ℕ → ℂ) (z : ℂ) :
    form r n (fun i => u i - z * v i) w = form r n u w - z * form r n v w := by
  unfold form
  rw [mul_sum, ← sum_sub_distrib]
  apply sum_congr rfl
  intro j _
  have hrow : row (fun i => (r i : ℂ)) n (fun i => u i - z * v i) j =
      row (fun i => (r i : ℂ)) n u j - z * row (fun i => (r i : ℂ)) n v j := by
    simp only [row, sub_mul, sum_sub_distrib, mul_sum, mul_assoc]
  rw [hrow]
  ring

theorem form_conj (u v : ℕ → ℂ) : form r n v u = conj (form r n u v) := by
  have hrow (j : ℕ) : conj (row (fun i => (r i : ℂ)) n u j) =
      row (fun i => (r i : ℂ)) n (fun i => conj (u i)) j := by
    simp [row]
  simp only [form, map_sum, map_mul, Complex.conj_conj, hrow]
  exact sum_mul_row v fun i => conj (u i)

/-- The form of one sequence is that of its real and of its imaginary parts. -/
theorem form_self (u : ℕ → ℂ) :
    form r n u u = (quad r n (fun i => (u i).re) + quad r n (fun i => (u i).im) : ℝ) := by
  have hrow (j : ℕ) : row (fun i => (r i : ℂ)) n u j =
      ((row r n (fun i => (u i).re) j : ℝ) : ℂ) +
        Complex.I * ((row r n (fun i => (u i).im) j : ℝ) : ℂ) := by
    rw [← row_ofReal, ← row_ofReal, ← row_const_mul, ← row_add]
    apply row_congr
    intro i _
    rw [mul_comm, Complex.re_add_im]
  have hcross := sum_mul_row (r := r) (n := n) (fun i => (u i).re) fun i => (u i).im
  apply Complex.ext
  · simp only [form, hrow, quad, Complex.re_sum, Complex.ofReal_re, ← sum_add_distrib]
    apply sum_congr rfl
    intro j _
    simp
  · simp only [form, hrow, Complex.im_sum, Complex.ofReal_im]
    rw [← sub_eq_zero.mpr hcross.symm, ← sum_sub_distrib]
    apply sum_congr rfl
    intro j _
    simp
    ring

/-- `u`, one place later. -/
def later (u : ℕ → ℂ) : ℕ → ℂ
  | 0 => 0
  | i + 1 => u i

/-- The form is the same one place later. -/
theorem form_later (u : ℕ → ℂ) (hu : u (n + 1) = 0) :
    form r (n + 1) (later u) (later u) = form r (n + 1) u u := by
  have hlater (j : ℕ) : row (fun i => (r i : ℂ)) (n + 1) (later u) (j + 1) =
      row (fun i => (r i : ℂ)) n u j := by
    rw [row, sum_range_succ']
    simp [later, row, Nat.dist_succ_succ]
  have hsame (j : ℕ) : row (fun i => (r i : ℂ)) (n + 1) u j = row (fun i => (r i : ℂ)) n u j := by
    rw [row_succ, hu, zero_mul, add_zero]
  rw [form, sum_range_succ', form, sum_range_succ _ (n + 1), hu]
  simp only [hlater, hsame]
  simp [later]

/-! ## The zeros -/

/-- The quotient of `a` by the linear factor of `z`, by Horner's rule. -/
noncomputable def quotient (a : ℕ → ℝ) (z : ℂ) (i : ℕ) : ℂ :=
  ∑ l ∈ range (i + 1), (a l : ℂ) * z ^ (i - l)

theorem quotient_succ (a : ℕ → ℝ) (z : ℂ) (i : ℕ) :
    quotient a z (i + 1) = z * quotient a z i + a (i + 1) := by
  rw [quotient, sum_range_succ, quotient, mul_sum]
  simp only [Nat.sub_self, pow_zero, mul_one, add_left_inj]
  apply sum_congr rfl
  intro l hl
  simp only [mem_range] at hl
  rw [show i + 1 - l = i - l + 1 by omega, pow_succ]
  ring

theorem eq_quotient_sub (a : ℕ → ℝ) (z : ℂ) :
    (fun i => (a i : ℂ)) = fun i => quotient a z i - z * later (quotient a z) i := by
  funext i
  cases i with
  | zero => simp [later, quotient]
  | succ i =>
    rw [quotient_succ, later]
    ring

/-- **The zeros of a solution are within the unit circle.** -/
theorem Solves.norm_lt_one (h : Solves r n a e) (hr : PosDef r) {z : ℂ}
    (hz : ∑ i ∈ range (n + 1), (a i : ℂ) * z ^ (n - i) = 0) : ‖z‖ < 1 := by
  cases n with
  | zero => simp [h.one] at hz
  | succ n =>
    have hq : quotient a z (n + 1) = 0 := hz
    have hone : quotient a z 0 = 1 := by simp [quotient, h.one]
    have hfirst : form r (n + 1) (fun i => (a i : ℂ)) (quotient a z) = e := by
      rw [form, h.ofReal.sum_mul_row, hone, map_one, one_mul]
    have hrest : form r (n + 1) (fun i => (a i : ℂ)) (later (quotient a z)) = 0 := by
      rw [form, h.ofReal.sum_mul_row]
      simp [later]
    have hlater := form_later (r := r) (quotient a z) hq
    rw [eq_quotient_sub a z, form_sub_mul] at hfirst hrest
    rw [form_conj (quotient a z) (later (quotient a z)), sub_eq_zero.mp hrest, hlater] at hfirst
    have hnonneg := add_nonneg (hr.quad_nonneg (n + 1) fun i => (quotient a z i).re)
      (hr.quad_nonneg (n + 1) fun i => (quotient a z i).im)
    rw [form_self] at hfirst
    generalize quad r (n + 1) (fun i => (quotient a z i).re) +
      quad r (n + 1) (fun i => (quotient a z i).im) = energy at hfirst hnonneg
    have henergy : energy * (1 - ‖z‖ ^ 2) = e := by
      have hnorm : z * conj z = (‖z‖ : ℂ) ^ 2 := by
        rw [Complex.mul_conj, Complex.normSq_eq_norm_sq, Complex.ofReal_pow]
      apply Complex.ofReal_injective
      push_cast
      rw [← hfirst, map_mul, Complex.conj_ofReal]
      linear_combination (energy : ℂ) * hnorm
    have hpos := h.pos hr
    have hfactor : 0 < 1 - ‖z‖ ^ 2 := by
      rw [← henergy] at hpos
      exact pos_of_mul_pos_right hpos hnonneg
    exact (sq_lt_one_iff₀ (norm_nonneg z)).mp (by linarith only [hfactor])

end Toeplitz
