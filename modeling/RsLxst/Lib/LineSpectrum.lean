import Mathlib.Algebra.Polynomial.Roots
import Mathlib.LinearAlgebra.Lagrange
import Mathlib.RingTheory.Polynomial.Chebyshev

/-!
# Line spectral pairs

`A` is the polynomial of `a`, of even degree `n = 2 m` and with `a 0 = 1`. The sum and the difference
(`s = 1` and `s = -1`) of `A` and its reflection divide by `1 + s X`, and the quotient is symmetric:
`half` is its first half and `poly s a n` the same as a sum of Chebyshev polynomials, in
`(w + w⁻¹) / 2` (`mul_eval_poly`). With all `m` zeros of each of the two, `A` comes back from the
products of the quadratic factors of the zeros (`reconstruct`).
-/

set_option autoImplicit false

open Finset Polynomial

namespace LineSpectrum

variable {K : Type*} [Field K]

/-- The coefficients of the symmetric quotient, up to the middle one. -/
def half (s : K) (a : ℕ → K) (n : ℕ) : ℕ → K
  | 0 => 1
  | i + 1 => a (i + 1) + s * a (n - i) - s * half s a n i

/-- Of the Chebyshev polynomials, from the last one down. -/
def coef (s : K) (a : ℕ → K) (n i : ℕ) : K :=
  if i < n / 2 then (2 : ℕ) * half s a n i else half s a n i

noncomputable def poly (s : K) (a : ℕ → K) (n : ℕ) : K[X] :=
  ∑ i ∈ range (n / 2 + 1), C (coef s a n (n / 2 - i)) * Chebyshev.T K i

def evalAt (a : ℕ → K) (n : ℕ) (w : K) : K := ∑ i ∈ range (n + 1), a i * w ^ i

/-! ## The symmetric quotient -/

theorem two_mul_eval_T {w v x : K} (hwv : w * v = 1) (hx : 2 * x = w + v) (i : ℕ) :
    2 * (Chebyshev.T K i).eval x = w ^ i + v ^ i := by
  induction i using Nat.twoStepInduction with
  | zero =>
    simp
    norm_num
  | one => simpa using hx
  | more i ih ih' =>
    have hstep := Chebyshev.T_add_two K i
    push_cast at ih' ⊢
    rw [hstep]
    simp only [eval_sub, eval_mul, eval_X, eval_ofNat]
    linear_combination 2 * x * ih' - ih + (w ^ (i + 1) + v ^ (i + 1)) * hx +
      (w ^ i + v ^ i) * hwv

/-- The quotient, with the first half of its coefficients. -/
theorem pow_mul_eval_poly {w v x : K} (hwv : w * v = 1) (hx : 2 * x = w + v) (s : K) (a : ℕ → K)
    (m : ℕ) :
    w ^ m * (poly s a (2 * m)).eval x =
      (∑ i ∈ range m, half s a (2 * m) i * (w ^ i + w ^ (2 * m - i))) +
        half s a (2 * m) m * w ^ m := by
  have hm : 2 * m / 2 = m := by omega
  rw [poly, hm, eval_finsetSum, ← sum_range_reflect, sum_range_succ, mul_add, mul_sum]
  congr 1
  · apply sum_congr rfl
    intro i hi
    simp only [mem_range] at hi
    have hindex : m + 1 - 1 - i = m - i := by omega
    have hback : m - (m - i) = i := by omega
    have hcheb := two_mul_eval_T hwv hx (m - i)
    have hw : w ^ m * w ^ (m - i) = w ^ (2 * m - i) := by
      rw [← pow_add]
      congr 1
      omega
    have hv : w ^ m * v ^ (m - i) = w ^ i := by
      rw [show m = i + (m - i) by omega, pow_add, Nat.add_sub_cancel_left, mul_assoc, ← mul_pow,
        hwv, one_pow, mul_one]
    rw [hindex, hback, coef, if_pos (by omega), eval_mul, eval_C]
    linear_combination w ^ m * half s a (2 * m) i * hcheb + half s a (2 * m) i * (hw + hv)
  · rw [Nat.add_sub_cancel, Nat.sub_self, Nat.sub_zero, coef, if_neg (by omega), eval_mul, eval_C]
    simp [mul_comm]

theorem eval_add_reflected {w v : K} (hwv : w * v = 1) (s : K) (hs : s * s = 1) (a : ℕ → K)
    (m : ℕ) :
    evalAt a (2 * m) w + s * w ^ (2 * m + 1) * evalAt a (2 * m) v =
      a 0 * (1 + s * w ^ (2 * m + 1)) +
        ∑ j ∈ range m, (a (j + 1) + s * a (2 * m - j)) * (w ^ (j + 1) + s * w ^ (2 * m - j)) := by
  have hterm (i : ℕ) (hi : i ≤ 2 * m) :
      w ^ (2 * m + 1) * v ^ i = w ^ (2 * m + 1 - i) := by
    rw [show 2 * m + 1 = 2 * m + 1 - i + i by omega, pow_add, Nat.add_sub_cancel, mul_assoc,
      ← mul_pow, hwv, one_pow, mul_one]
  have hsum : evalAt a (2 * m) w + s * w ^ (2 * m + 1) * evalAt a (2 * m) v =
      ∑ i ∈ range (2 * m + 1), a i * (w ^ i + s * w ^ (2 * m + 1 - i)) := by
    rw [evalAt, evalAt, mul_sum, ← sum_add_distrib]
    apply sum_congr rfl
    intro i hi
    rw [← hterm i (by simp at hi; omega)]
    ring
  -- the upper half of the coefficients, from the last one down
  rw [hsum, sum_range_succ', show 2 * m = m + m by omega, sum_range_add,
    ← sum_range_reflect (fun j => a (m + j + 1) * _) m, ← sum_add_distrib, add_comm]
  congr 1
  · simp
  · apply sum_congr rfl
    intro j hj
    simp only [mem_range] at hj
    have hindex : m + (m - 1 - j) + 1 = m + m - j := by omega
    have hpow : m + m + 1 - (m + m - j) = j + 1 := by omega
    have hpow' : m + m + 1 - (j + 1) = m + m - j := by omega
    rw [hindex, hpow, hpow']
    linear_combination (-a (m + m - j) * w ^ (m + m - j)) * hs

/-- **The decomposition.** -/
theorem mul_eval_poly {w v x : K} (hwv : w * v = 1) (hx : 2 * x = w + v) (s : K) (hs : s * s = 1)
    {a : ℕ → K} (ha : a 0 = 1) (m : ℕ) :
    (1 + s * w) * (w ^ m * (poly s a (2 * m)).eval x) =
      evalAt a (2 * m) w + s * w ^ (2 * m + 1) * evalAt a (2 * m) v := by
  have hpartial : ∀ k ≤ m,
      (1 + s * w) * (∑ i ∈ range k, half s a (2 * m) i * (w ^ i + w ^ (2 * m - i))) +
        half s a (2 * m) k * (w ^ k + s * w ^ (2 * m + 1 - k)) =
      1 + s * w ^ (2 * m + 1) +
        ∑ j ∈ range k, (a (j + 1) + s * a (2 * m - j)) * (w ^ (j + 1) + s * w ^ (2 * m - j)) := by
    intro k hk
    induction k with
    | zero => simp [half]
    | succ k ih =>
      have hpow : 2 * m + 1 - (k + 1) = 2 * m - k := by omega
      have hpow' : 2 * m + 1 - k = 2 * m - k + 1 := by omega
      have hrest := ih (by omega)
      rw [hpow'] at hrest
      rw [sum_range_succ, sum_range_succ, hpow, half]
      linear_combination hrest + (-half s a (2 * m) k * w ^ (2 * m - k)) * hs
  have hlast := hpartial m (Nat.le_refl m)
  rw [show 2 * m + 1 - m = m + 1 by omega] at hlast
  rw [pow_mul_eval_poly hwv hx, eval_add_reflected hwv s hs, ha, one_mul, ← hlast]
  ring

/-! ## From the zeros -/

section
variable [NeZero (2 : K)]

theorem coeff_poly (s : K) (a : ℕ → K) (m : ℕ) :
    (∀ k, m < k → (poly s a (2 * m)).coeff k = 0) ∧ (poly s a (2 * m)).coeff m = 2 ^ m := by
  have hm : 2 * m / 2 = m := by omega
  have hsmall (i k : ℕ) (hik : i < k) : (Chebyshev.T K i).coeff k = 0 := by
    apply coeff_eq_zero_of_natDegree_lt
    rw [Chebyshev.natDegree_T]
    simpa using hik
  refine ⟨fun k hk => ?_, ?_⟩
  · rw [poly, finsetSum_coeff, sum_eq_zero]
    intro i hi
    simp only [mem_range] at hi
    rw [coeff_C_mul, hsmall i k (by omega), mul_zero]
  · rw [poly, hm, finsetSum_coeff, sum_range_succ, sum_eq_zero, zero_add, Nat.sub_self,
      coeff_C_mul]
    · have hlead := Chebyshev.leadingCoeff_T K m
      rw [leadingCoeff, Chebyshev.natDegree_T] at hlead
      simp only [Int.natAbs_natCast] at hlead
      rw [hlead, coef, half, hm]
      cases m with
      | zero => simp
      | succ m =>
        rw [if_pos (by omega), mul_one, Nat.add_sub_cancel, pow_succ]
        ring
    · intro i hi
      simp only [mem_range] at hi
      rw [coeff_C_mul, hsmall i m hi, mul_zero]

/-- With all its zeros, a polynomial is known. -/
theorem poly_eq_prod {s : K} {a : ℕ → K} {m : ℕ} {x : ℕ → K} (hinj : Set.InjOn x (range m))
    (hzero : ∀ i < m, (poly s a (2 * m)).eval (x i) = 0) :
    poly s a (2 * m) = C (2 ^ m) * ∏ i ∈ range m, (X - C (x i)) := by
  obtain ⟨hlarge, hlead⟩ := coeff_poly s a m
  have hdegree : (∏ i ∈ range m, (X - C (x i))).natDegree = m := by simp
  have hmonic : (∏ i ∈ range m, (X - C (x i))).Monic := monic_prod_X_sub_C _ _
  apply eq_of_degree_sub_lt_of_eval_index_eq (range m) hinj
  · rw [card_range, degree_lt_iff_coeff_zero]
    intro k hk
    rw [coeff_sub, coeff_C_mul]
    obtain rfl | hlt := eq_or_lt_of_le hk
    · have hone : (∏ i ∈ range m, (X - C (x i))).coeff m = 1 := by
        have := hmonic.coeff_natDegree
        rwa [hdegree] at this
      rw [hlead, hone, mul_one, sub_self]
    · rw [hlarge k hlt, coeff_eq_zero_of_natDegree_lt (by rwa [hdegree]), mul_zero, sub_self]
  · intro i hi
    simp only [mem_range] at hi
    rw [hzero i hi, eval_mul, eval_prod, prod_eq_zero (mem_range.mpr hi) (by simp), mul_zero]

/-- The quadratic factors of the zeros. -/
noncomputable def factors (x : ℕ → K) (m : ℕ) : K[X] :=
  ∏ i ∈ range m, (1 - C ((2 : ℕ) * x i) * X + X ^ 2)

theorem eval_factors {s : K} {a : ℕ → K} {m : ℕ} {x : ℕ → K} (hinj : Set.InjOn x (range m))
    (hzero : ∀ i < m, (poly s a (2 * m)).eval (x i) = 0) {w v y : K} (hwv : w * v = 1)
    (hy : 2 * y = w + v) :
    (factors x m).eval w = w ^ m * (poly s a (2 * m)).eval y := by
  rw [poly_eq_prod hinj hzero, factors, eval_prod, eval_mul, eval_prod, eval_C]
  have hcard : w ^ m * 2 ^ m = ∏ _i ∈ range m, 2 * w := by
    rw [prod_const, card_range, mul_pow, mul_comm]
  rw [← mul_assoc, hcard, ← prod_mul_distrib]
  apply prod_congr rfl
  intro i _
  simp only [eval_add, eval_sub, eval_mul, eval_pow, eval_X, eval_C, eval_one]
  linear_combination (-w) * hy - hwv

/-- **Back from the zeros.** -/
theorem reconstruct [Infinite K] {a : ℕ → K} (ha : a 0 = 1) {m : ℕ} {x y : ℕ → K}
    (hx : Set.InjOn x (range m)) (hy : Set.InjOn y (range m))
    (hxzero : ∀ i < m, (poly 1 a (2 * m)).eval (x i) = 0)
    (hyzero : ∀ i < m, (poly (-1) a (2 * m)).eval (y i) = 0) :
    (1 + X) * factors x m + (1 - X) * factors y m =
      C 2 * ∑ i ∈ range (2 * m + 1), C (a i) * X ^ i := by
  apply eq_of_infinite_eval_eq
  apply Set.Infinite.mono _ (Set.finite_singleton (0 : K)).infinite_compl
  intro w hw
  have hwv : w * w⁻¹ = 1 := mul_inv_cancel₀ hw
  have h2 : (2 : K) ≠ 0 := NeZero.ne 2
  have hmid : 2 * ((w + w⁻¹) / 2) = w + w⁻¹ := by field_simp
  have hsum := mul_eval_poly hwv hmid 1 (by ring) ha m
  have hdiff := mul_eval_poly hwv hmid (-1) (by ring) ha m
  rw [← eval_factors hx hxzero hwv hmid] at hsum
  rw [← eval_factors hy hyzero hwv hmid] at hdiff
  have hval : (∑ i ∈ range (2 * m + 1), C (a i) * X ^ i : K[X]).eval w = evalAt a (2 * m) w := by
    simp [evalAt, eval_finsetSum]
  simp only [Set.mem_ofPred_eq, eval_add, eval_mul, eval_sub, eval_one, eval_X, eval_C, hval]
  linear_combination hsum + hdiff

end

end LineSpectrum
