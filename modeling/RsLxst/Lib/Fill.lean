import Mathlib.Algebra.BigOperators.Intervals
import Mathlib.Data.List.Basic

/-!
# Counting loops that may fail

`foldlM` over the indices `b, b + 1, …, b + n - 1`, with `Option`. `foldlM_range'` is the invariant
rule: an invariant that every step keeps, and with which it does not fail, holds at the end.
`foldlM_sum` is a loop that adds up, and `foldlM_filled` one that writes a buffer entry by entry:
`Filled b n v l l'` says that `l'` is `l` with the values of `v` from `b` on.
-/

set_option autoImplicit false

namespace Fill

variable {σ α : Type*}

/-- **The loop rule.** -/
theorem foldlM_range' {step : σ → ℕ → Option σ} {b n : ℕ} (I : ℕ → σ → Prop) {s : σ} (h0 : I b s)
    (h : ∀ i s, b ≤ i → i < b + n → I i s → ∃ s', step s i = some s' ∧ I (i + 1) s') :
    ∃ s', (List.range' b n).foldlM step s = some s' ∧ I (b + n) s' := by
  induction n generalizing b s with
  | zero => exact ⟨s, rfl, h0⟩
  | succ n ih =>
    obtain ⟨s₁, hstep, h1⟩ := h b s (Nat.le_refl b) (by omega) h0
    obtain ⟨s', hrest, hlast⟩ := ih h1 fun i s hi hn => h i s (by omega) (by omega)
    refine ⟨s', ?_, ?_⟩
    · rw [List.range'_succ, List.foldlM_cons, hstep]
      exact hrest
    · rw [show b + (n + 1) = b + 1 + n by omega]
      exact hlast

theorem foldlM_sum [AddCommMonoid α] {step : α → ℕ → Option α} {f : ℕ → α} {b n : ℕ}
    (h : ∀ i s, b ≤ i → i < b + n → step s i = some (s + f i)) (s : α) :
    (List.range' b n).foldlM step s = some (s + ∑ i ∈ Finset.Ico b (b + n), f i) := by
  have hstep : ∀ i s', b ≤ i → i < b + n → s' = s + ∑ j ∈ Finset.Ico b i, f j →
      ∃ s'', step s' i = some s'' ∧ s'' = s + ∑ j ∈ Finset.Ico b (i + 1), f j := by
    rintro i _ hi hn rfl
    refine ⟨_, h i _ hi hn, ?_⟩
    rw [Finset.sum_Ico_succ_top hi, add_assoc]
  have hstart : s = s + ∑ j ∈ Finset.Ico b b, f j := by simp
  obtain ⟨s', hrun, rfl⟩ := foldlM_range' (fun i s' => s' = s + ∑ j ∈ Finset.Ico b i, f j)
    hstart hstep
  exact hrun

/-! ## Buffers -/

structure Filled (b n : ℕ) (v : ℕ → α) (l l' : List α) : Prop where
  length : l'.length = l.length
  get : ∀ j, l'[j]? = if b ≤ j ∧ j < b + n then some (v j) else l[j]?

variable {b n : ℕ} {v : ℕ → α} {l l' : List α}

theorem Filled.get_in (h : Filled b n v l l') {j : ℕ} (hb : b ≤ j) (hn : j < b + n) :
    l'[j]? = some (v j) := by rw [h.get, if_pos ⟨hb, hn⟩]

theorem Filled.getD_in (h : Filled b n v l l') {j : ℕ} (hb : b ≤ j) (hn : j < b + n) (d : α) :
    l'.getD j d = v j := by
  rw [List.getD_eq_getElem?_getD, h.get_in hb hn, Option.getD_some]

theorem Filled.get_out (h : Filled b n v l l') {j : ℕ} (hj : j < b ∨ b + n ≤ j) :
    l'[j]? = l[j]? := by rw [h.get, if_neg (by omega)]

theorem filled_zero (b : ℕ) (v : ℕ → α) (l : List α) : Filled b 0 v l l := by
  refine ⟨rfl, fun j => ?_⟩
  rw [if_neg (by omega)]

theorem Filled.set (h : Filled b n v l l') (hn : b + n < l.length) :
    Filled b (n + 1) v l (l'.set (b + n) (v (b + n))) := by
  refine ⟨by simp [h.length], fun j => ?_⟩
  rw [List.getElem?_set, h.length, h.get]
  by_cases hj : b + n = j
  · subst hj
    rw [if_pos rfl, if_pos hn, if_pos (by omega)]
  · rw [if_neg hj]
    have hsame : (b ≤ j ∧ j < b + n) ↔ b ≤ j ∧ j < b + (n + 1) := by omega
    simp only [hsame]

/-- A loop that writes one entry after another; a step sees what was written before. -/
theorem foldlM_filled {step : List α → ℕ → Option (List α)} (hn : b + n ≤ l.length)
    (h : ∀ i l', i < n → Filled b i v l l' →
      step l' (b + i) = some (l'.set (b + i) (v (b + i)))) :
    ∃ l', (List.range' b n).foldlM step l = some l' ∧ Filled b n v l l' := by
  have hstep : ∀ i l', b ≤ i → i < b + n → Filled b (i - b) v l l' →
      ∃ l'', step l' i = some l'' ∧ Filled b (i + 1 - b) v l l'' := by
    intro i l' hi hin hfilled
    have hindex : b + (i - b) = i := by omega
    have hone := h (i - b) l' (by omega) hfilled
    have hset := hfilled.set (by omega)
    rw [hindex] at hone hset
    rw [show i - b + 1 = i + 1 - b by omega] at hset
    exact ⟨_, hone, hset⟩
  have hstart : Filled b (b - b) v l l := by
    rw [Nat.sub_self]
    exact filled_zero b v l
  obtain ⟨l', hrun, hlast⟩ := foldlM_range' (fun i l' => Filled b (i - b) v l l') hstart hstep
  rw [Nat.add_sub_cancel_left] at hlast
  exact ⟨l', hrun, hlast⟩

end Fill
