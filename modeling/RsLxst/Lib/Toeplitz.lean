import Mathlib.Algebra.BigOperators.Intervals
import Mathlib.Algebra.Order.BigOperators.Ring.Finset
import Mathlib.Algebra.Order.Field.Basic
import Mathlib.Data.Nat.Dist
import Mathlib.Tactic.LinearCombination
import Mathlib.Tactic.Linarith

/-!
# Symmetric Toeplitz systems

`row r n a j` is entry `j` of the symmetric Toeplitz matrix of `r` with `n + 1` rows, applied to
`a`, and `quad r n a` the quadratic form. `Solves r n a e` are the normal equations: `a` starts with
one, row 0 is `e` and every other row is zero. `Solves.next` is the step of the Levinson recursion,
from one size to the next. Over an ordered field and for a positive definite `r`, `e` stays positive,
the factors of the recursion stay below one (`Solves.factor_lt`) and `a` is where the form is least
(`Solves.le_quad`). The autocorrelation of a finite sequence that is not zero is positive definite
(`posDef_autocorrelation`): its form is the energy of the prediction errors.
-/

set_option autoImplicit false

open Finset

namespace Toeplitz

section
variable {K : Type*} [CommRing K] {r : ℕ → K} {n : ℕ} {a b : ℕ → K} {e : K} {s : ℕ → K} {N : ℕ}

def row (r : ℕ → K) (n : ℕ) (a : ℕ → K) (j : ℕ) : K :=
  ∑ i ∈ range (n + 1), a i * r (Nat.dist i j)

def quad (r : ℕ → K) (n : ℕ) (a : ℕ → K) : K := ∑ j ∈ range (n + 1), a j * row r n a j

theorem row_congr {j : ℕ} (h : ∀ i ≤ n, a i = b i) : row r n a j = row r n b j :=
  sum_congr rfl fun i hi => by rw [h i (by simp at hi; omega)]

theorem row_add (a b : ℕ → K) (j : ℕ) :
    row r n (fun i => a i + b i) j = row r n a j + row r n b j := by
  simp only [row, add_mul, sum_add_distrib]

theorem row_const_mul (k : K) (a : ℕ → K) (j : ℕ) :
    row r n (fun i => k * a i) j = k * row r n a j := by
  simp only [row, mul_sum, mul_assoc]

theorem row_succ (a : ℕ → K) (j : ℕ) :
    row r (n + 1) a j = row r n a j + a (n + 1) * r (Nat.dist (n + 1) j) := sum_range_succ _ _

/-- The matrix is the same read from its last row. -/
theorem row_reflect (a : ℕ → K) {j : ℕ} (hj : j ≤ n) :
    row r n (fun i => a (n - i)) j = row r n a (n - j) := by
  rw [row, row, ← sum_range_reflect]
  apply sum_congr rfl
  intro i hi
  have hi' : i ≤ n := by simp at hi; omega
  have hindex : n - (n + 1 - 1 - i) = i := by omega
  have hdist : Nat.dist (n + 1 - 1 - i) j = Nat.dist i (n - j) := by
    unfold Nat.dist
    omega
  rw [hindex, hdist]

/-- The form is symmetric. -/
theorem sum_mul_row (a b : ℕ → K) :
    ∑ j ∈ range (n + 1), b j * row r n a j = ∑ j ∈ range (n + 1), a j * row r n b j := by
  simp only [row, mul_sum]
  rw [sum_comm]
  apply sum_congr rfl
  intro i _
  apply sum_congr rfl
  intro j _
  rw [Nat.dist_comm]
  ring

theorem quad_add (a b : ℕ → K) :
    quad r n (fun i => a i + b i) =
      quad r n a + 2 * (∑ j ∈ range (n + 1), b j * row r n a j) + quad r n b := by
  have hsplit : quad r n (fun i => a i + b i) =
      quad r n a + (∑ j ∈ range (n + 1), b j * row r n a j) +
        (∑ j ∈ range (n + 1), a j * row r n b j) + quad r n b := by
    unfold quad
    rw [← sum_add_distrib, ← sum_add_distrib, ← sum_add_distrib]
    apply sum_congr rfl
    intro j _
    rw [row_add]
    ring
  rw [hsplit, ← sum_mul_row a b]
  ring

/-! ## The normal equations -/

structure Solves (r : ℕ → K) (n : ℕ) (a : ℕ → K) (e : K) : Prop where
  one : a 0 = 1
  support : ∀ i, n < i → a i = 0
  first : row r n a 0 = e
  rest : ∀ j, 1 ≤ j → j ≤ n → row r n a j = 0

theorem solves_zero (r : ℕ → K) : Solves r 0 (fun i => if i = 0 then 1 else 0) (r 0) := by
  refine ⟨rfl, fun i hi => if_neg (by omega), ?_, fun j hj hj' => by omega⟩
  simp [row]

/-- Only row 0 meets something that is not zero. -/
theorem Solves.sum_mul_row (h : Solves r n a e) (b : ℕ → K) :
    ∑ j ∈ range (n + 1), b j * row r n a j = b 0 * e := by
  rw [sum_range_succ', h.first, Finset.sum_eq_zero, zero_add]
  intro j hj
  simp only [mem_range] at hj
  rw [h.rest (j + 1) (by omega) (by omega), mul_zero]

theorem Solves.quad_eq (h : Solves r n a e) : quad r n a = e := by
  rw [quad, h.sum_mul_row, h.one, one_mul]

/-- The solution of the next size: the solution and `k` times the reflected one. -/
def next (n : ℕ) (a : ℕ → K) (k : K) (i : ℕ) : K :=
  if i ≤ n + 1 then a i + k * a (n + 1 - i) else 0

theorem Solves.row_next (h : Solves r n a e) (k : K) {j : ℕ} (hj : j ≤ n + 1) :
    row r (n + 1) (next n a k) j = row r n a j + k * row r n a (n + 1 - j) := by
  have hlast : a (n + 1) = 0 := h.support (n + 1) (by omega)
  have hsum : row r (n + 1) (next n a k) j =
      row r (n + 1) (fun i => a i + k * a (n + 1 - i)) j :=
    row_congr fun i hi => if_pos hi
  rw [hsum, row_add, row_const_mul, row_reflect a hj, row_succ, row_succ, hlast]
  ring

/-- **The Levinson step.** -/
theorem Solves.next (h : Solves r n a e) {k : K} (hk : k * e = -row r n a (n + 1)) :
    Solves r (n + 1) (next n a k) (e * (1 - k * k)) := by
  have hlast : a (n + 1) = 0 := h.support (n + 1) (by omega)
  refine ⟨?_, fun i hi => if_neg (by omega), ?_, fun j hj hj' => ?_⟩
  · simp [Toeplitz.next, h.one, hlast]
  · rw [h.row_next k (by omega), h.first, Nat.sub_zero]
    linear_combination k * hk
  · rw [h.row_next k hj']
    obtain rfl | hlt := eq_or_lt_of_le hj'
    · rw [Nat.sub_self, h.first, hk]
      ring
    · rw [h.rest j hj (by omega), h.rest (n + 1 - j) (by omega) (by omega)]
      ring

theorem Solves.quad_eq_add (h : Solves r n a e) (hb : b 0 = 1) :
    quad r n b = e + quad r n (fun i => b i - a i) := by
  have hsum := quad_add (r := r) (n := n) a fun i => b i - a i
  simp only [add_sub_cancel] at hsum
  rw [hsum, h.quad_eq, h.sum_mul_row]
  simp [hb, h.one]

/-! ## Autocorrelation -/

/-- Of `s` up to `N`, at the lag `j`. -/
def autocorrelation (s : ℕ → K) (N j : ℕ) : K := ∑ i ∈ range (N - j), s i * s (i + j)

/-- `s`, `i` places later. -/
def delayed (s : ℕ → K) (i m : ℕ) : K := if i ≤ m then s (m - i) else 0

/-- What the predictor `a` leaves of `s` at `m`. -/
def residual (s : ℕ → K) (n : ℕ) (a : ℕ → K) (m : ℕ) : K :=
  ∑ i ∈ range (n + 1), a i * delayed s i m

theorem sum_delayed_of_le (hs : ∀ i, N ≤ i → s i = 0) {i j : ℕ} (hij : i ≤ j) (hj : j ≤ n) :
    ∑ m ∈ range (N + n), delayed s i m * delayed s j m =
      autocorrelation s N (Nat.dist i j) := by
  have hsplit : N + n = j + (N + n - j) := by omega
  have hearly : ∑ m ∈ range j, delayed s i m * delayed s j m = 0 := by
    apply Finset.sum_eq_zero
    intro m hm
    simp only [mem_range] at hm
    rw [delayed.eq_def s j, if_neg (by omega), mul_zero]
  have hdist : Nat.dist i j = j - i := by
    unfold Nat.dist
    omega
  rw [hsplit, sum_range_add, hearly, zero_add, hdist, autocorrelation]
  symm
  have hsub : range (N - (j - i)) ⊆ range (N + n - j) := by
    intro t ht
    simp only [mem_range] at ht ⊢
    omega
  have hterm : ∀ t ∈ range (N - (j - i)), s t * s (t + (j - i)) =
      delayed s i (j + t) * delayed s j (j + t) := by
    intro t _
    have hi : j + t - i = t + (j - i) := by omega
    have hj : j + t - j = t := by omega
    rw [delayed, delayed, if_pos (by omega), if_pos (by omega), hi, hj, mul_comm]
  rw [sum_congr rfl hterm]
  apply Finset.sum_subset hsub
  intro t ht hnot
  simp only [mem_range] at ht hnot
  have hzero : delayed s i (j + t) = 0 := by
    rw [delayed, if_pos (by omega), hs _ (by omega)]
  rw [hzero, zero_mul]

theorem sum_delayed (hs : ∀ i, N ≤ i → s i = 0) {i j : ℕ} (hi : i ≤ n) (hj : j ≤ n) :
    ∑ m ∈ range (N + n), delayed s i m * delayed s j m =
      autocorrelation s N (Nat.dist i j) := by
  obtain hij | hij := Nat.le_total i j
  · exact sum_delayed_of_le hs hij hj
  · rw [Nat.dist_comm, ← sum_delayed_of_le hs hij hi]
    exact sum_congr rfl fun m _ => mul_comm _ _

/-- The form of an autocorrelation is the energy of the prediction errors. -/
theorem quad_autocorrelation (hs : ∀ i, N ≤ i → s i = 0) (n : ℕ) (a : ℕ → K) :
    quad (autocorrelation s N) n a = ∑ m ∈ range (N + n), residual s n a m ^ 2 := by
  have hsquare (m : ℕ) : residual s n a m ^ 2 = ∑ j ∈ range (n + 1), ∑ i ∈ range (n + 1),
      a j * a i * (delayed s i m * delayed s j m) := by
    rw [pow_two, residual, sum_mul_sum]
    apply sum_congr rfl
    intro j _
    apply sum_congr rfl
    intro i _
    ring
  simp only [hsquare, quad, row, mul_sum]
  symm
  rw [sum_comm]
  apply sum_congr rfl
  intro j hj
  rw [sum_comm]
  apply sum_congr rfl
  intro i hi
  simp only [mem_range] at hi hj
  rw [← mul_sum, sum_delayed hs (by omega) (by omega), mul_assoc]

end

/-! ## Positive definite sequences -/

section
variable {K : Type*} [Field K] [LinearOrder K] [IsStrictOrderedRing K] {r : ℕ → K} {n : ℕ}
  {a b : ℕ → K} {e : K} {s : ℕ → K} {N : ℕ}

def PosDef (r : ℕ → K) : Prop := ∀ (n : ℕ) (a : ℕ → K), (∃ i ≤ n, a i ≠ 0) → 0 < quad r n a

omit [IsStrictOrderedRing K] in
theorem PosDef.quad_nonneg (hr : PosDef r) (n : ℕ) (a : ℕ → K) : 0 ≤ quad r n a := by
  by_cases h : ∃ i ≤ n, a i ≠ 0
  · exact (hr n a h).le
  · push Not at h
    rw [quad, Finset.sum_eq_zero]
    intro j hj
    rw [h j (by simp at hj; omega), zero_mul]

omit [IsStrictOrderedRing K] in
theorem Solves.pos (h : Solves r n a e) (hr : PosDef r) : 0 < e := by
  rw [← h.quad_eq]
  exact hr n a ⟨0, by omega, by simp [h.one]⟩

/-- The factor of a step is below one. -/
theorem Solves.factor_lt (h : Solves r n a e) (hr : PosDef r) {k : K}
    (hk : k * e = -row r n a (n + 1)) : |k| < 1 := by
  have hnext := (h.next hk).pos hr
  have hfactor : 0 < 1 - k * k := pos_of_mul_pos_right hnext (h.pos hr).le
  rw [← sq_lt_one_iff_abs_lt_one]
  nlinarith only [hfactor]

/-- The solution is where the form is least among the sequences that start with one. -/
theorem Solves.le_quad (h : Solves r n a e) (hr : PosDef r) (hb : b 0 = 1) : e ≤ quad r n b := by
  rw [h.quad_eq_add hb]
  exact le_add_of_nonneg_right (hr.quad_nonneg n _)

/-- And only there. -/
theorem Solves.eq_of_quad_le (h : Solves r n a e) (hr : PosDef r) (hb : b 0 = 1)
    (hle : quad r n b ≤ e) : ∀ i ≤ n, b i = a i := by
  intro i hi
  by_contra hne
  have hpos := hr n (fun i => b i - a i) ⟨i, hi, sub_ne_zero.mpr hne⟩
  rw [h.quad_eq_add hb] at hle
  linarith only [hle, hpos]

theorem posDef_autocorrelation (hs : ∀ i, N ≤ i → s i = 0) (hne : ∃ i, s i ≠ 0) :
    PosDef (autocorrelation s N) := by
  classical
  intro n a ha
  rw [quad_autocorrelation hs]
  -- the first entries of `a` and of `s` that are not zero meet in one residual, alone
  have ha' : ∃ i, i ≤ n ∧ a i ≠ 0 := ha
  obtain ⟨hin, hi⟩ := Nat.find_spec ha'
  have hbefore (l : ℕ) (hl : l < Nat.find ha') : a l = 0 := by
    have := Nat.find_min ha' hl
    simp only [not_and, not_not] at this
    exact this (by omega)
  have ht := Nat.find_spec hne
  have hquiet (l : ℕ) (hl : l < Nat.find hne) : s l = 0 := by
    simpa using Nat.find_min hne hl
  have htN : Nat.find hne < N := by
    by_contra hge
    exact ht (hs _ (by omega))
  generalize Nat.find ha' = i at *
  generalize Nat.find hne = t at *
  have hresidual : residual s n a (i + t) = a i * s t := by
    rw [residual, sum_eq_single i]
    · rw [delayed, if_pos (by omega), Nat.add_sub_cancel_left]
    · intro l _ hne'
      obtain hlt | hgt := Nat.lt_or_gt_of_ne hne'
      · rw [hbefore l hlt, zero_mul]
      · by_cases hle : l ≤ i + t
        · rw [delayed, if_pos hle, hquiet _ (by omega), mul_zero]
        · rw [delayed, if_neg hle, mul_zero]
    · intro hnot
      simp at hnot
      omega
  apply Finset.sum_pos'
  · intro m _
    exact sq_nonneg _
  · refine ⟨i + t, by simp; omega, ?_⟩
    rw [hresidual]
    exact sq_pos_of_ne_zero (mul_ne_zero hi ht)

end

end Toeplitz
