import Mathlib.Data.List.Count
import Mathlib.Order.Lattice

/-!
# Inversions

The pairs of a list that are out of order. Exchanging two neighbours that are out of order takes
exactly one away (`inversions_swap`), so at most `n * (n - 1) / 2` such exchanges are possible
(`two_mul_inversions_le`).
-/

set_option autoImplicit false

namespace Inversions

variable {α : Type*} [LinearOrder α]

def inversions : List α → ℕ
  | [] => 0
  | a :: l => l.countP (· < a) + inversions l

theorem two_mul_inversions_le (l : List α) : 2 * inversions l ≤ l.length * (l.length - 1) := by
  induction l with
  | nil => simp [inversions]
  | cons a l ih =>
    have hcount : l.countP (· < a) ≤ l.length := List.countP_le_length
    rw [inversions, List.length_cons, Nat.add_sub_cancel]
    cases hl : l.length with
    | zero =>
      rw [hl] at hcount ih
      omega
    | succ n =>
      rw [hl] at hcount ih
      rw [Nat.add_sub_cancel] at ih
      calc 2 * (l.countP (· < a) + inversions l)
          = 2 * l.countP (· < a) + 2 * inversions l := Nat.mul_add _ _ _
        _ ≤ 2 * (n + 1) + (n + 1) * n := by omega
        _ = (n + 1 + 1) * (n + 1) := by
          rw [Nat.mul_comm (n + 1) n, ← Nat.add_mul, Nat.add_comm 2 n]

theorem inversions_swap (pre : List α) {a b : α} (post : List α) (h : b < a) :
    inversions (pre ++ a :: b :: post) = inversions (pre ++ b :: a :: post) + 1 := by
  induction pre with
  | nil =>
    have hnot : ¬ a < b := not_lt_of_gt h
    simp [inversions, h, hnot]
    omega
  | cons c pre ih =>
    have hcount := (List.Perm.append_left pre (List.Perm.swap b a post)).countP_eq (· < c)
    simp only [List.cons_append, inversions, ih]
    omega

end Inversions
