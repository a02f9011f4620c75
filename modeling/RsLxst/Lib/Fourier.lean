import Mathlib.Algebra.BigOperators.Intervals
import Mathlib.Algebra.Star.BigOperators
import Mathlib.RingTheory.RootsOfUnity.PrimitiveRoots
import Mathlib.Tactic.LinearCombination

/-!
# The discrete Fourier transform over a commutative ring

`dft w n x k` is the sum of `x j * w ^ (j * k)` for `j < n`. `dft_mul` is decimation in time: a
transform of length `p * m` is `p` transforms of length `m` of every `p`-th entry, put together
with the powers of `w` (`mix`). `dft_dft` is the inversion for a root whose powers sum to zero. With
a conjugation, `two_mul_dft_real` gets the transform of a real sequence from that of its even and
odd entries packed into one sequence of half the length, and `dft_fold` goes the other way.
-/

set_option autoImplicit false

open Finset

namespace Fourier

section
variable {R : Type*} [CommRing R]

def dft (w : R) (n : ℕ) (x : ℕ → R) (k : ℕ) : R := ∑ j ∈ range n, x j * w ^ (j * k)

theorem dft_congr {w : R} {n k : ℕ} {x y : ℕ → R} (h : ∀ j < n, x j = y j) :
    dft w n x k = dft w n y k :=
  sum_congr rfl fun j hj => by rw [h j (mem_range.mp hj)]

theorem dft_add (w : R) (n k : ℕ) (x y : ℕ → R) :
    dft w n (fun j => x j + y j) k = dft w n x k + dft w n y k := by
  simp only [dft, add_mul, sum_add_distrib]

theorem dft_const_mul (w : R) (n k : ℕ) (c : R) (x : ℕ → R) :
    dft w n (fun j => c * x j) k = c * dft w n x k := by
  simp only [dft, mul_sum, mul_assoc]

@[simp] theorem dft_one (w : R) (x : ℕ → R) (k : ℕ) : dft w 1 x k = x 0 := by simp [dft]

/-- The frequencies are those modulo the length. -/
theorem dft_add_mul {w : R} {n : ℕ} (hw : w ^ n = 1) (x : ℕ → R) (k r : ℕ) :
    dft w n x (k + r * n) = dft w n x k := by
  apply sum_congr rfl
  intro j _
  have hone : w ^ (j * (r * n)) = 1 := by
    rw [← mul_assoc, mul_comm (j * r), pow_mul, hw, one_pow]
  rw [mul_add, pow_add, hone, mul_one]

/-! ## Decimation in time -/

/-- `p` values put together at the frequency `k`. -/
def mix (w : R) (p : ℕ) (x : ℕ → R) (k : ℕ) : R := ∑ q ∈ range p, x q * w ^ (q * k)

theorem mix_congr {w : R} {p k : ℕ} {x y : ℕ → R} (h : ∀ q < p, x q = y q) :
    mix w p x k = mix w p y k :=
  dft_congr h

/-- A sum over rows of `p` entries, column by column. -/
theorem sum_range_rows (f : ℕ → R) (p m : ℕ) :
    ∑ j ∈ range (p * m), f j = ∑ q ∈ range p, ∑ j ∈ range m, f (q + j * p) := by
  induction m with
  | zero => simp
  | succ m ih =>
    rw [Nat.mul_succ, sum_range_add, ih, ← sum_add_distrib]
    apply sum_congr rfl
    intro q _
    rw [sum_range_succ, mul_comm m p, add_comm q (p * m)]

theorem dft_mul (w : R) (p m : ℕ) (x : ℕ → R) (k : ℕ) :
    dft w (p * m) x k = mix w p (fun q => dft (w ^ p) m (fun j => x (q + j * p)) k) k := by
  rw [dft, sum_range_rows, mix]
  apply sum_congr rfl
  intro q _
  rw [dft, sum_mul]
  apply sum_congr rfl
  intro j _
  have hpow : w ^ ((q + j * p) * k) = (w ^ p) ^ (j * k) * w ^ (q * k) := by
    rw [← pow_mul, ← pow_add]
    congr 1
    ring
  rw [hpow, mul_assoc]

/-- Decimation in time at the frequencies of one residue. -/
theorem dft_mul_add {w : R} {p m : ℕ} (hw : w ^ (p * m) = 1) (x : ℕ → R) (u r : ℕ) :
    dft w (p * m) x (u + r * m) =
      mix w p (fun q => dft (w ^ p) m (fun j => x (q + j * p)) u) (u + r * m) := by
  rw [dft_mul]
  apply mix_congr
  intro q _
  exact dft_add_mul (by rw [← pow_mul, hw]) _ u r

/-! ## Inversion -/

/-- `w` is an `n`-th root of one, and the powers of its nontrivial powers sum to zero. -/
def Principal (w : R) (n : ℕ) : Prop :=
  w ^ n = 1 ∧ ∀ d, 0 < d → d < n → ∑ k ∈ range n, w ^ (d * k) = 0

theorem principal_of_isPrimitiveRoot [IsDomain R] {w : R} {n : ℕ} (h : IsPrimitiveRoot w n) :
    Principal w n := by
  refine ⟨h.pow_eq_one, ?_⟩
  intro d hd hn
  have hne : w ^ d - 1 ≠ 0 := sub_ne_zero.mpr (h.pow_ne_one_of_pos_of_lt (by omega) hn)
  have hgeom := geom_sum_mul (w ^ d) n
  rw [← pow_mul, mul_comm d n, pow_mul, h.pow_eq_one, one_pow, sub_self] at hgeom
  have hzero := (mul_eq_zero.mp hgeom).resolve_right hne
  simpa only [pow_mul] using hzero

/-- A transform and then one with the inverse root gives every entry `n` times over. -/
theorem dft_dft {w v : R} {n : ℕ} (hw : Principal w n) (hv : w * v = 1) (x : ℕ → R) {i : ℕ}
    (hi : i < n) : dft v n (dft w n x) i = n * x i := by
  have hcancel (a : ℕ) : w ^ a * v ^ a = 1 := by rw [← mul_pow, hv, one_pow]
  have hentry (j : ℕ) (hj : j < n) :
      ∑ k ∈ range n, w ^ (j * k) * v ^ (k * i) = if j = i then (n : R) else 0 := by
    rcases lt_trichotomy j i with hlt | rfl | hgt
    · -- the powers of the inverse root at the difference, read backwards through `w`
      rw [if_neg (by omega)]
      have hback (k : ℕ) (hk : k ∈ range n) :
          w ^ (j * k) * v ^ (k * i) = w ^ ((n - (i - j)) * k) := by
        have hsplit : w ^ ((n - (i - j)) * k) * w ^ (i * k) = w ^ (j * k) := by
          have hexp : (n - (i - j)) * k + i * k = n * k + j * k := by
            obtain ⟨d, rfl⟩ : ∃ d, i = j + d := ⟨i - j, by omega⟩
            rw [Nat.add_sub_cancel_left, ← Nat.add_mul, ← Nat.add_mul]
            congr 1
            omega
          rw [← pow_add, hexp, pow_add, pow_mul, hw.1, one_pow, one_mul]
        rw [← hsplit, mul_assoc, mul_comm k i, hcancel, mul_one]
      rw [sum_congr rfl hback]
      exact hw.2 _ (by omega) (by omega)
    · rw [if_pos rfl]
      have hone (k : ℕ) (hk : k ∈ range n) : w ^ (j * k) * v ^ (k * j) = 1 := by
        rw [mul_comm k j, hcancel]
      rw [sum_congr rfl hone, sum_const, card_range, nsmul_eq_mul, mul_one]
    · rw [if_neg (by omega)]
      have hfront (k : ℕ) (hk : k ∈ range n) :
          w ^ (j * k) * v ^ (k * i) = w ^ ((j - i) * k) := by
        have hexp : j * k = (j - i) * k + i * k := by
          rw [← Nat.add_mul]
          congr 1
          omega
        rw [hexp, pow_add, mul_assoc, mul_comm k i, hcancel, mul_one]
      rw [sum_congr rfl hfront]
      exact hw.2 _ (by omega) (by omega)
  calc dft v n (dft w n x) i
      = ∑ k ∈ range n, ∑ j ∈ range n, x j * (w ^ (j * k) * v ^ (k * i)) := by
        simp only [dft, sum_mul, mul_assoc]
    _ = ∑ j ∈ range n, x j * ∑ k ∈ range n, w ^ (j * k) * v ^ (k * i) := by
        rw [sum_comm]
        simp only [mul_sum]
    _ = ∑ j ∈ range n, x j * if j = i then (n : R) else 0 :=
        sum_congr rfl fun j hj => by rw [hentry j (mem_range.mp hj)]
    _ = n * x i := by
        rw [sum_eq_single i]
        · rw [if_pos rfl, mul_comm]
        · intro j _ hne
          rw [if_neg hne, mul_zero]
        · intro h
          exact absurd (mem_range.mpr hi) h

/-! ## Half the length -/

/-- Decimation in frequency: a transform at an even and at the next odd frequency from one of half
the length, for a root `v` whose power at the half is `-1`. -/
theorem dft_fold {v i : R} {n : ℕ} (hv : v ^ n = -1) (y : ℕ → R) (j : ℕ) :
    dft (v ^ 2) n (fun k => y k + y (n + k) + (y k - y (n + k)) * (i * v ^ k)) j =
      dft v (2 * n) y (2 * j) + i * dft v (2 * n) y (2 * j + 1) := by
  have heven (k : ℕ) : v ^ ((n + k) * (2 * j)) = (v ^ 2) ^ (k * j) := by
    have hexp : (n + k) * (2 * j) = n * (2 * j) + 2 * (k * j) := by ring
    rw [hexp, pow_add, pow_mul, hv, Even.neg_one_pow ⟨j, by ring⟩, one_mul, pow_mul]
  have hodd (k : ℕ) : v ^ ((n + k) * (2 * j + 1)) = -(v ^ k * (v ^ 2) ^ (k * j)) := by
    have hexp : (n + k) * (2 * j + 1) = n * (2 * j + 1) + (k + 2 * (k * j)) := by ring
    rw [hexp, pow_add, pow_mul, hv, Odd.neg_one_pow ⟨j, rfl⟩, pow_add, ← pow_mul, neg_one_mul]
  rw [two_mul n, dft, dft, dft, sum_range_add, sum_range_add, ← sum_add_distrib,
    ← sum_add_distrib, mul_sum, ← sum_add_distrib]
  apply sum_congr rfl
  intro k _
  have hfirst : v ^ (k * (2 * j)) = (v ^ 2) ^ (k * j) := by
    rw [← pow_mul]
    congr 1
    ring
  have hnext : v ^ (k * (2 * j + 1)) = v ^ k * (v ^ 2) ^ (k * j) := by
    rw [← pow_mul, ← pow_add]
    congr 1
    ring
  rw [heven, hodd, hfirst, hnext]
  ring

variable [StarRing R]

theorem star_pow_mul {w : R} (hs : star w * w = 1) (a : ℕ) : star (w ^ a) * w ^ a = 1 := by
  rw [star_pow, ← mul_pow, hs, one_pow]

/-- The transform of a real sequence is symmetric up to conjugation. -/
theorem star_dft_sub {w : R} {n : ℕ} (hw : w ^ n = 1) (hs : star w * w = 1) {x : ℕ → R}
    (hx : ∀ j < n, star (x j) = x j) {k : ℕ} (hk : k ≤ n) :
    star (dft w n x (n - k)) = dft w n x k := by
  rw [dft, star_sum]
  apply sum_congr rfl
  intro j hj
  have hpow : star (w ^ (j * (n - k))) = w ^ (j * k) := by
    have hone : w ^ (j * (n - k)) * w ^ (j * k) = 1 := by
      rw [← pow_add, ← Nat.mul_add, Nat.sub_add_cancel hk, mul_comm j n, pow_mul, hw, one_pow]
    calc star (w ^ (j * (n - k)))
        = star (w ^ (j * (n - k))) * (w ^ (j * (n - k)) * w ^ (j * k)) := by rw [hone, mul_one]
      _ = w ^ (j * k) := by rw [← mul_assoc, star_pow_mul hs, one_mul]
  rw [star_mul', hx j (mem_range.mp hj), hpow]

/-- The transform of a sequence that is symmetric up to conjugation is real. -/
theorem star_dft_of_symmetric {w : R} {n : ℕ} (hw : w ^ n = 1) (hs : star w * w = 1) {y : ℕ → R}
    (hzero : star (y 0) = y 0) (hy : ∀ k, 0 < k → k < n → star (y k) = y (n - k)) (j : ℕ) :
    star (dft w n y j) = dft w n y j := by
  cases n with
  | zero => simp [dft]
  | succ m =>
    have hentry (k : ℕ) (hk : k < m) :
        star (y (k + 1) * w ^ ((k + 1) * j)) = y (m - 1 - k + 1) * w ^ ((m - 1 - k + 1) * j) := by
      have hback : m + 1 - (k + 1) = m - 1 - k + 1 := by omega
      have hone : w ^ ((m - 1 - k + 1) * j) * w ^ ((k + 1) * j) = 1 := by
        have hexp : m - 1 - k + 1 + (k + 1) = m + 1 := by omega
        rw [← pow_add, ← Nat.add_mul, hexp, pow_mul, hw, one_pow]
      have hpow : star (w ^ ((k + 1) * j)) = w ^ ((m - 1 - k + 1) * j) := by
        calc star (w ^ ((k + 1) * j))
            = w ^ ((m - 1 - k + 1) * j) * (star (w ^ ((k + 1) * j)) * w ^ ((k + 1) * j)) := by
              rw [mul_left_comm, hone, mul_one]
          _ = w ^ ((m - 1 - k + 1) * j) := by rw [star_pow_mul hs, mul_one]
      rw [star_mul', hy (k + 1) (by omega) (by omega), hpow, hback]
    rw [dft, sum_range_succ', star_add, star_sum, zero_mul, pow_zero, mul_one, hzero,
      sum_congr rfl fun k hk => hentry k (mem_range.mp hk),
      sum_range_reflect (fun k => y (k + 1) * w ^ ((k + 1) * j))]

/-- The even and the odd entries as the real and the imaginary parts of one sequence. -/
def packed (i : R) (x : ℕ → R) (j : ℕ) : R := x (2 * j) + i * x (2 * j + 1)

/-- Twice the transform of a real sequence, from the packed one's at `k` and at `n - k`. -/
theorem two_mul_dft_real {v i : R} {n : ℕ} (hv : v ^ n = -1) (hs : star v * v = 1)
    (hi : i * i = -1) (hstar : star i = -i) {x : ℕ → R} (hx : ∀ j < 2 * n, star (x j) = x j)
    {k : ℕ} (hk : k ≤ n) :
    2 * dft v (2 * n) x k =
      dft (v ^ 2) n (packed i x) k + star (dft (v ^ 2) n (packed i x) (n - k)) +
        (dft (v ^ 2) n (packed i x) k - star (dft (v ^ 2) n (packed i x) (n - k))) *
          (-i * v ^ k) := by
  have hw : (v ^ 2) ^ n = 1 := by rw [← pow_mul, mul_comm, pow_mul, hv, neg_one_sq]
  have hw' : star (v ^ 2) * v ^ 2 = 1 := star_pow_mul hs 2
  have hpacked (l : ℕ) : dft (v ^ 2) n (packed i x) l =
      dft (v ^ 2) n (fun j => x (2 * j)) l + i * dft (v ^ 2) n (fun j => x (2 * j + 1)) l := by
    rw [← dft_const_mul, ← dft_add]
    rfl
  have heven := star_dft_sub (x := fun j => x (2 * j)) hw hw' (fun j hj => hx _ (by omega)) hk
  have hodd := star_dft_sub (x := fun j => x (2 * j + 1)) hw hw' (fun j hj => hx _ (by omega)) hk
  have hsplit : dft v (2 * n) x k =
      dft (v ^ 2) n (fun j => x (2 * j)) k + v ^ k * dft (v ^ 2) n (fun j => x (2 * j + 1)) k := by
    rw [dft_mul, mix, sum_range_succ, sum_range_one]
    simp only [zero_add, one_mul, zero_mul, pow_zero, mul_one, mul_comm _ (v ^ k),
      Nat.mul_comm 2, Nat.add_comm 1]
  rw [hpacked k, hpacked (n - k), star_add, star_mul', heven, hodd, hstar, hsplit]
  linear_combination (2 * v ^ k * dft (v ^ 2) n (fun j => x (2 * j + 1)) k) * hi

/-- The same at `n - k`, from the same two values. -/
theorem two_mul_dft_real_sub {v i : R} {n : ℕ} (hv : v ^ n = -1) (hs : star v * v = 1)
    (hi : i * i = -1) (hstar : star i = -i) {x : ℕ → R} (hx : ∀ j < 2 * n, star (x j) = x j)
    {k : ℕ} (hk : k ≤ n) :
    2 * dft v (2 * n) x (n - k) =
      star (dft (v ^ 2) n (packed i x) k + star (dft (v ^ 2) n (packed i x) (n - k)) -
        (dft (v ^ 2) n (packed i x) k - star (dft (v ^ 2) n (packed i x) (n - k))) *
          (-i * v ^ k)) := by
  have hpow : v ^ (n - k) = -star (v ^ k) := by
    have hneg : v ^ (n - k) * v ^ k = -1 := by rw [← pow_add, Nat.sub_add_cancel hk, hv]
    calc v ^ (n - k) = v ^ (n - k) * (star (v ^ k) * v ^ k) := by rw [star_pow_mul hs, mul_one]
      _ = star (v ^ k) * (v ^ (n - k) * v ^ k) := by ring
      _ = -star (v ^ k) := by rw [hneg, mul_neg_one]
  rw [two_mul_dft_real hv hs hi hstar hx (Nat.sub_le n k), Nat.sub_sub_self hk, hpow]
  simp only [star_sub, star_add, star_mul', star_star, star_neg, hstar]
  ring

end

end Fourier
