import RsLxst.Codec2.Lpc
import RsLxst.Lib.Fill
import RsLxst.Lib.ToeplitzZeros

/-!
# The analysis of a frame

`autocorrelate` computes the autocorrelation of the windowed frame (`autocorrelate_eq`) and
`levinson_durbin` solves its normal equations (`levinsonDurbin_eq`): for a frame that is not zero,
`e` is never zero and no reflection coefficient is clipped.
-/

set_option autoImplicit false

namespace Lxst.Codec2

open Toeplitz Fill

variable {F : Type} [Field F]

theorem filled_eq {capacity length : Nat} (h : length ≤ capacity) :
    filled capacity length = some (List.replicate length (0 : F)) := if_pos h

/-- The samples that the analysis uses, zero from `Nsam` on. -/
def signal (Sn : List F) (Nsam i : Nat) : F := if i < Nsam then Sn.getD i 0 else 0

theorem signal_of_le (Sn : List F) {Nsam i : Nat} (hi : Nsam ≤ i) : signal Sn Nsam i = 0 :=
  if_neg (by omega)

theorem getElem?_signal {Sn : List F} {Nsam i : Nat} (hN : Nsam ≤ Sn.length) (hi : i < Nsam) :
    Sn[i]? = some (signal Sn Nsam i) := by
  rw [signal, if_pos hi, List.getD_eq_getElem?_getD, List.getElem?_eq_getElem (by omega)]
  rfl

/-! ## Autocorrelation -/

theorem autocorrelateAt_eq {Sn Rn : List F} {Nsam j : Nat} (hN : Nsam ≤ Sn.length)
    (hj : j ≤ Nsam) (hR : j < Rn.length) :
    autocorrelateAt Sn Nsam Rn j =
      some (Rn.set j (autocorrelation (signal Sn Nsam) Nsam j)) := by
  have hstep : ∀ i Rn', 0 ≤ i → i < 0 + (Nsam - j) →
      Rn' = Rn.set j (∑ t ∈ Finset.range i, signal Sn Nsam t * signal Sn Nsam (t + j)) →
      ∃ Rn'', addProduct Sn j Rn' i = some Rn'' ∧
        Rn'' = Rn.set j (∑ t ∈ Finset.range (i + 1), signal Sn Nsam t * signal Sn Nsam (t + j)) := by
    rintro i _ - hi rfl
    refine ⟨_, ?_, rfl⟩
    rw [addProduct, getElem?_signal hN (by omega), getElem?_signal hN (by omega),
      List.getElem?_set_self hR, Finset.sum_range_succ]
    simp only [Option.bind_eq_bind, Option.bind_some]
    rw [store_eq (by simpa using hR), List.set_set]
  have hstart : Rn.set j 0 =
      Rn.set j (∑ t ∈ Finset.range 0, signal Sn Nsam t * signal Sn Nsam (t + j)) := rfl
  obtain ⟨Rn', hrun, hlast⟩ := foldlM_range' _ hstart hstep
  rw [autocorrelateAt, if_pos hj, store_eq hR]
  simp only [Option.bind_eq_bind, Option.bind_some, List.range_eq_range']
  rw [hrun, hlast, Nat.zero_add, autocorrelation]

theorem autocorrelate_eq {Sn Rn : List F} {Nsam order : Nat} (hN : Nsam ≤ Sn.length)
    (horder : order ≤ Nsam) (hR : order < Rn.length) :
    ∃ Rn', autocorrelate Sn Rn Nsam order = some Rn' ∧
      Filled 0 (order + 1) (autocorrelation (signal Sn Nsam) Nsam) Rn Rn' := by
  rw [autocorrelate, List.range_eq_range']
  apply foldlM_filled (by omega)
  intro j Rn' hj hfilled
  rw [Nat.zero_add]
  apply autocorrelateAt_eq hN (by omega)
  rw [hfilled.length]
  omega

/-! ## The recursion -/

/-- The entries of a row of `a`: there is none for the leading one. -/
structure Row (n : Nat) (a : Nat → F) (row : List F) : Prop where
  length : row.length = LPC_ORD + 1
  get : ∀ j, 1 ≤ j → j ≤ n → row[j]? = some (a j)

theorem levinsonSum_eq {R row : List F} {r a : Nat → F} {n : Nat} (hrow : Row n a row)
    (hR : ∀ j ≤ n, R[j]? = some (r j)) :
    levinsonSum R row (n + 1) = some (∑ j ∈ Finset.Ico 1 (n + 1), a j * r (n + 1 - j)) := by
  have hterm : ∀ j sum, 1 ≤ j → j < 1 + n →
      levinsonTerm R row (n + 1) sum j = some (sum + a j * r (n + 1 - j)) := by
    intro j sum hj hjn
    rw [levinsonTerm, hrow.get j hj (by omega), hR (n + 1 - j) (by omega)]
    rfl
  have hsum := foldlM_sum hterm 0
  rwa [zero_add, Nat.add_comm 1 n] at hsum

/-- The last row, split as the code sums it. -/
theorem row_last (r a : Nat → F) (n : Nat) :
    row r n a (n + 1) =
      a 0 * r (n + 1) + ∑ j ∈ Finset.Ico 1 (n + 1), a j * r (n + 1 - j) := by
  have hdist (j : Nat) (hj : j ≤ n + 1) : Nat.dist j (n + 1) = n + 1 - j := by
    unfold Nat.dist
    omega
  rw [row, Finset.range_eq_Ico, Finset.sum_eq_sum_Ico_succ_bot (by omega), hdist 0 (by omega)]
  congr 1
  apply Finset.sum_congr rfl
  intro j hj
  simp only [Finset.mem_Ico] at hj
  rw [hdist j (by omega)]

theorem nextRow_eq {row : List F} {a : Nat → F} {n : Nat} (hrow : Row n a row) (hone : a 0 = 1)
    (hsupport : a (n + 1) = 0) (hn : n < LPC_ORD) (k : F) :
    ∃ row', nextRow row k (n + 1) = some row' ∧ Row (n + 1) (next n a k) row' := by
  have hstore : store (List.replicate (LPC_ORD + 1) (0 : F)) (n + 1) k =
      some ((List.replicate (LPC_ORD + 1) 0).set (n + 1) k) := store_eq (by simp; omega) k
  have hlast : next n a k (n + 1) = k := by
    simp [next, hsupport, hone]
  have hstep : ∀ i l, i < n →
      Filled 1 i (next n a k) ((List.replicate (LPC_ORD + 1) (0 : F)).set (n + 1) k) l →
      nextRowAt row k (n + 1) l (1 + i) = some (l.set (1 + i) (next n a k (1 + i))) := by
    intro i l hi hfilled
    rw [nextRowAt, hrow.get (1 + i) (by omega) (by omega),
      hrow.get (n + 1 - (1 + i)) (by omega) (by omega)]
    simp only [Option.bind_eq_bind, Option.bind_some]
    rw [store_eq (by rw [hfilled.length]; simp; omega), next, if_pos (by omega)]
  obtain ⟨row', hrun, hfilled⟩ := foldlM_filled (by simp; omega) hstep
  refine ⟨row', ?_, by simp [hfilled.length], fun j hj hjn => ?_⟩
  · rw [nextRow, hstore]
    exact hrun
  · obtain rfl | hlt := eq_or_lt_of_le hjn
    · rw [hfilled.get_out (by omega), List.getElem?_set_self (by simp; omega), hlast]
    · exact hfilled.get_in hj (by omega)

section
variable [LinearOrder F] [IsStrictOrderedRing F]

/-- A step solves the next size: `e` is not zero, and `k` is not clipped. -/
theorem levinsonStep_eq {R row : List F} {r a : Nat → F} {n : Nat} {e : F} (hr : PosDef r)
    (hsolves : Solves r n a e) (hrow : Row n a row) (hR : ∀ j ≤ n + 1, R[j]? = some (r j))
    (hn : n < LPC_ORD) :
    ∃ row' a' e', levinsonStep R (row, e) (n + 1) = some (row', e') ∧
      Solves r (n + 1) a' e' ∧ Row (n + 1) a' row' := by
  have hne : e ≠ 0 := (hsolves.pos hr).ne'
  have hsum := levinsonSum_eq hrow fun j hj => hR j (by omega)
  have hlast := row_last r a n
  rw [hsolves.one, one_mul] at hlast
  obtain ⟨k, hk⟩ : ∃ k, k = -1 * Toeplitz.row r n a (n + 1) / e := ⟨_, rfl⟩
  have hmul : k * e = -Toeplitz.row r n a (n + 1) := by
    rw [hk, div_mul_cancel₀ _ hne]
    ring
  have hclip : ¬ |k| > 1 := (hsolves.factor_lt hr hmul).not_gt
  have hreflection : reflection R row e (n + 1) = some k := by
    rw [reflection, hsum, hR (n + 1) (Nat.le_refl _)]
    simp only [Option.bind_eq_bind, Option.bind_some]
    rw [← hlast, ← hk, if_neg hclip]
    rfl
  obtain ⟨row', hnext, hrow'⟩ :=
    nextRow_eq hrow hsolves.one (hsolves.support (n + 1) (by omega)) hn k
  refine ⟨row', next n a k, e * (1 - k * k), ?_, hsolves.next hmul, hrow'⟩
  rw [levinsonStep, hreflection]
  simp only [Option.bind_eq_bind, Option.bind_some]
  rw [hnext]
  rfl

theorem levinsonDurbin_eq {R lpcs : List F} {r : Nat → F} {order : Nat} (hr : PosDef r)
    (hR : ∀ j ≤ order, R[j]? = some (r j)) (horder : order ≤ LPC_ORD)
    (hlpcs : order < lpcs.length) :
    ∃ lpcs' a e, levinsonDurbin R lpcs order = some lpcs' ∧ Solves r order a e ∧
      Filled 0 (order + 1) a lpcs lpcs' := by
  have hstep : ∀ i (state : List F × F), 1 ≤ i → i < 1 + order →
      (∃ a, Solves r (i - 1) a state.2 ∧ Row (i - 1) a state.1) →
        ∃ state', levinsonStep R state i = some state' ∧
          ∃ a, Solves r (i + 1 - 1) a state'.2 ∧ Row (i + 1 - 1) a state'.1 := by
    rintro i ⟨row, e⟩ hi hin ⟨a, hsolves, hrow⟩
    obtain ⟨row', a', e', hrun, hsolves', hrow'⟩ :=
      levinsonStep_eq hr hsolves hrow (fun j hj => hR j (by omega)) (by omega)
    rw [show i - 1 + 1 = i by omega] at hrun hsolves' hrow'
    exact ⟨(row', e'), hrun, a', hsolves', hrow'⟩
  have hstart : ∃ a, Solves r (1 - 1) a (List.replicate (LPC_ORD + 1) (0 : F), r 0).2 ∧
      Row (1 - 1) a (List.replicate (LPC_ORD + 1) (0 : F), r 0).1 :=
    ⟨_, solves_zero r, by simp, fun j hj hj' => by omega⟩
  obtain ⟨⟨row, e⟩, hrun, a, hsolves, hrow⟩ := foldlM_range' _ hstart hstep
  rw [Nat.add_sub_cancel_left] at hsolves hrow
  have hcopy : ∀ i l, i < order → Filled 1 i a lpcs l →
      copyAt id row l (1 + i) = some (l.set (1 + i) (a (1 + i))) := by
    intro i l hi hl
    rw [copyAt, hrow.get (1 + i) (by omega) (by omega)]
    exact store_eq (by rw [hl.length]; omega) _
  obtain ⟨lpcs₁, hcopied, hfilled⟩ := foldlM_filled (by omega) hcopy
  refine ⟨lpcs₁.set 0 1, a, e, ?_, hsolves, by simp [hfilled.length], fun j => ?_⟩
  · rw [levinsonDurbin, if_pos horder, hR 0 (by omega)]
    simp only [Option.bind_eq_bind, Option.bind_some]
    rw [hrun]
    simp only [Option.bind_some]
    rw [hcopied]
    exact store_eq (by rw [hfilled.length]; omega) 1
  · rw [List.getElem?_set, hfilled.length, hfilled.get]
    by_cases hj : 0 = j
    · subst hj
      rw [if_pos rfl, if_pos (by omega), if_pos (by omega), hsolves.one]
    · rw [if_neg hj]
      have hsame : (1 ≤ j ∧ j < 1 + order) ↔ 0 ≤ j ∧ j < 0 + (order + 1) := by omega
      simp only [hsame]

end

end Lxst.Codec2
