import Mathlib.Algebra.Order.Ring.Rat
import Mathlib.Data.List.GetD
import RsLxst.Codec2.Lsp
import RsLxst.Codec2.Proof.Lpc
import RsLxst.Lib.Inversions

/-!
# Repairs of line spectral pairs

A swap of `check_lsp_order` moves an entry one place on and adds 0.1 to it, and the other one back
by as much: less a tenth of its index (`lowered`), every entry stays what it is, and the swap takes
one inversion away. So the loop ends, and its result is a permutation of the lowered entries.
-/

set_option autoImplicit false

namespace Lxst.Codec2

open Inversions Fill

variable {F : Type} [Field F]

/-- Each entry less a tenth of its index. -/
def lowered (lsp : List F) : List F := lsp.zipIdx.map fun (x, i) => x - (i : F) / (10 : Nat)

theorem lowered_pair (pre post : List F) (y x : F) :
    lowered (pre ++ y :: x :: post) =
      lowered pre ++ (y - (pre.length : F) / (10 : Nat)) ::
        (x - ((pre.length + 1 : Nat) : F) / (10 : Nat)) ::
          (post.zipIdx (pre.length + 2)).map fun (x, i) => x - (i : F) / (10 : Nat) := by
  simp [lowered, List.zipIdx_append]

/-- A swap, lowered, is an exchange. -/
theorem lowered_swap (pre post : List F) (y x : F) :
    lowered (pre ++ (x - 1 / (10 : Nat)) :: (y + 1 / (10 : Nat)) :: post) =
      lowered pre ++ (x - ((pre.length + 1 : Nat) : F) / (10 : Nat)) ::
        (y - (pre.length : F) / (10 : Nat)) ::
          (post.zipIdx (pre.length + 2)).map fun (x, i) => x - (i : F) / (10 : Nat) := by
  have hx : x - 1 / ((10 : Nat) : F) - (pre.length : F) / (10 : Nat) =
      x - ((pre.length + 1 : Nat) : F) / (10 : Nat) := by
    push_cast
    ring
  have hy : y + 1 / ((10 : Nat) : F) - ((pre.length + 1 : Nat) : F) / (10 : Nat) =
      y - (pre.length : F) / (10 : Nat) := by
    push_cast
    ring
  rw [lowered_pair, hx, hy]

/-- Two neighbours, and what it takes to write them. -/
theorem exists_pair {l : List F} {i : Nat} (hi : 1 ≤ i) (hil : i < l.length) :
    ∃ pre post, pre.length = i - 1 ∧ l = pre ++ l.getD (i - 1) 0 :: l.getD i 0 :: post ∧
      ∀ a b, (l.set (i - 1) a).set i b = pre ++ a :: b :: post := by
  obtain ⟨k, rfl⟩ : ∃ k, i = k + 1 := ⟨i - 1, by omega⟩
  have hsplit : l.take k ++ l.getD k 0 :: l.getD (k + 1) 0 :: l.drop (k + 2) = l := by
    rw [List.getD_eq_getElem l 0 (by omega), List.getD_eq_getElem l 0 (by omega),
      ← List.drop_eq_getElem_cons, ← List.drop_eq_getElem_cons, List.take_append_drop]
  have hset (pre post : List F) (c d a b : F) :
      ((pre ++ c :: d :: post).set pre.length a).set (pre.length + 1) b =
        pre ++ a :: b :: post := by
    simp
  have hlength : (l.take k).length = k := by
    rw [List.length_take]
    omega
  refine ⟨l.take k, l.drop (k + 2), hlength, hsplit.symm, fun a b => ?_⟩
  have := hset (l.take k) (l.drop (k + 2)) (l.getD k 0) (l.getD (k + 1) 0) a b
  rwa [hsplit, hlength] at this

/-! ## The loop -/

variable [LinearOrder F]

/-- Before the turn `i` of the loop, after `swaps` swaps. -/
structure Turn (lsp₀ : List F) (order i swaps : Nat) (lsp : List F) : Prop where
  first : 1 ≤ i
  length : lsp.length = lsp₀.length
  rest : lsp.drop order = lsp₀.drop order
  perm : (lowered (lsp.take order)).Perm (lowered (lsp₀.take order))
  count : swaps + inversions (lowered (lsp.take order)) = inversions (lowered (lsp₀.take order))
  same : swaps = 0 → lsp = lsp₀
  /-- After a swap the first pair is not compared. -/
  ascends : ∀ k, (if swaps = 0 then 1 else 2) ≤ k → k < i → lsp.getD (k - 1) 0 ≤ lsp.getD k 0

variable {lsp₀ lsp : List F} {order i swaps : Nat}

theorem turn_start (lsp : List F) (order : Nat) : Turn lsp order 1 0 lsp :=
  ⟨Nat.le_refl 1, rfl, rfl, .refl _, Nat.zero_add _, fun _ => rfl, fun k hk hlt => by
    simp at hk
    omega⟩

theorem Turn.keep (h : Turn lsp₀ order i swaps lsp) (hle : ¬ lsp.getD i 0 < lsp.getD (i - 1) 0) :
    Turn lsp₀ order (i + 1) swaps lsp := by
  refine ⟨by omega, h.length, h.rest, h.perm, h.count, h.same, fun k hk hlt => ?_⟩
  obtain rfl | hlt := Nat.lt_succ_iff_lt_or_eq.mp hlt |>.symm
  · exact not_lt.mp hle
  · exact h.ascends k hk hlt

theorem Turn.swap [IsStrictOrderedRing F] (h : Turn lsp₀ order i swaps lsp) (hi : i < order)
    (horder : order ≤ lsp.length) (hlt : lsp.getD i 0 < lsp.getD (i - 1) 0) :
    Turn lsp₀ order 2 (swaps + 1)
      ((lsp.set (i - 1) (lsp.getD i 0 - 1 / (10 : Nat))).set i
        (lsp.getD (i - 1) 0 + 1 / (10 : Nat))) := by
  have hfirst := h.first
  have htake : (lsp.take order).length = order := by
    rw [List.length_take]
    omega
  have hget (j : Nat) (hj : j < order) : (lsp.take order).getD j 0 = lsp.getD j 0 := by
    rw [List.getD_eq_getElem _ _ (by omega), List.getD_eq_getElem _ _ (by omega),
      List.getElem_take]
  obtain ⟨pre, post, hpre, hsplit, hset⟩ := exists_pair hfirst (by omega : i < (lsp.take order).length)
  rw [hget i hi, hget (i - 1) (by omega)] at hsplit
  have hafter := lowered_swap pre post (lsp.getD (i - 1) 0) (lsp.getD i 0)
  have hbefore := lowered_pair pre post (lsp.getD (i - 1) 0) (lsp.getD i 0)
  rw [← hsplit] at hbefore
  rw [← hset] at hafter
  have hgap : lsp.getD i 0 - ((pre.length + 1 : Nat) : F) / (10 : Nat) <
      lsp.getD (i - 1) 0 - (pre.length : F) / (10 : Nat) := by
    push_cast
    linarith
  refine ⟨by omega, by simp [h.length], ?_, ?_, ?_, fun hzero => by omega, fun k hk hlt => ?_⟩
  · rw [List.drop_set_of_lt hi, List.drop_set_of_lt (by omega)]
    exact h.rest
  · rw [List.take_set, List.take_set, hafter]
    apply List.Perm.trans _ h.perm
    rw [hbefore]
    exact (List.Perm.swap _ _ _).append_left _
  · have hcount := h.count
    rw [hbefore, inversions_swap _ _ hgap] at hcount
    rw [List.take_set, List.take_set, hafter]
    omega
  · rw [if_neg (by omega)] at hk
    omega

/-- The loop ends. -/
theorem checkOrderLoop_eq [IsStrictOrderedRing F] (horder : order ≤ lsp₀.length) {fuel : Nat}
    (h : Turn lsp₀ order i swaps lsp)
    (hfuel : inversions (lowered (lsp.take order)) * (order + 1) + (order - i) < fuel) :
    ∃ lsp' swaps' i', checkOrderLoop order fuel lsp swaps i = some (lsp', swaps') ∧ order ≤ i' ∧
      Turn lsp₀ order i' swaps' lsp' := by
  induction fuel generalizing lsp swaps i with
  | zero => omega
  | succ fuel ih =>
    have hlength := h.length
    have hfirst := h.first
    rw [checkOrderLoop]
    by_cases hi : i < order
    · have hget (j : Nat) (hj : j < lsp.length) : lsp[j]? = some (lsp.getD j 0) := by
        rw [List.getElem?_eq_getElem hj, List.getD_eq_getElem]
      rw [if_pos hi, hget i (by omega), hget (i - 1) (by omega)]
      simp only [Option.bind_eq_bind, Option.bind_some]
      by_cases hlt : lsp.getD i 0 < lsp.getD (i - 1) 0
      · have hswap := h.swap hi (by omega) hlt
        have hcount := h.count
        have hcount' := hswap.count
        rw [if_pos hlt, store_eq (by omega)]
        simp only [Option.bind_some]
        rw [store_eq (by simp; omega)]
        apply ih hswap
        generalize inversions (lowered (((lsp.set (i - 1) (lsp.getD i 0 - 1 / (10 : Nat))).set i
          (lsp.getD (i - 1) 0 + 1 / (10 : Nat))).take order)) = n at hcount' ⊢
        have hn : inversions (lowered (lsp.take order)) = n + 1 := by omega
        rw [hn, Nat.succ_mul] at hfuel
        omega
      · rw [if_neg hlt]
        apply ih (h.keep hlt)
        omega
    · rw [if_neg hi]
      exact ⟨lsp, swaps, i, rfl, by omega, h⟩

theorem checkOrderLoop_ascending (h : ∀ k, 1 ≤ k → k < order → lsp.getD (k - 1) 0 ≤ lsp.getD k 0)
    (horder : order ≤ lsp.length) {fuel : Nat} (hi : 1 ≤ i) (hfuel : order - i < fuel) :
    checkOrderLoop order fuel lsp swaps i = some (lsp, swaps) := by
  induction fuel generalizing i with
  | zero => omega
  | succ fuel ih =>
    rw [checkOrderLoop]
    by_cases hlt : i < order
    · have hle := h i hi hlt
      rw [List.getD_eq_getElem _ _ (by omega), List.getD_eq_getElem _ _ (by omega)] at hle
      rw [if_pos hlt, List.getElem?_eq_getElem (by omega), List.getElem?_eq_getElem (by omega)]
      simp only [Option.bind_eq_bind, Option.bind_some]
      rw [if_neg (not_lt.mpr hle)]
      exact ih (by omega) (by omega)
    · rw [if_neg hlt]

/-- Turns enough for any input. -/
def orderTurns (order : Nat) : Nat := order * (order - 1) / 2 * (order + 1) + order

theorem checkLspOrder_eq [IsStrictOrderedRing F] (horder : order ≤ lsp.length) {fuel : Nat}
    (hfuel : orderTurns order < fuel) :
    ∃ lsp' swaps i, checkLspOrder fuel lsp order = some (lsp', swaps) ∧ order ≤ i ∧
      Turn lsp order i swaps lsp' := by
  apply checkOrderLoop_eq horder (turn_start lsp order)
  have hmany := two_mul_inversions_le (lowered (lsp.take order))
  have hlength : (lowered (lsp.take order)).length = order := by
    simp [lowered]
    omega
  rw [hlength] at hmany
  have hinversions : inversions (lowered (lsp.take order)) ≤ order * (order - 1) / 2 := by omega
  have := Nat.mul_le_mul_right (order + 1) hinversions
  unfold orderTurns at hfuel
  omega

/-- **The repair of the order**, in exact arithmetic. `check_lsp_order` ends after at most one swap
for each pair. Less a tenth of the index, its result is a permutation of its input; every pair but
the first one, which is not compared again, is in order, and an input in order stays as it is. -/
theorem check_lsp_order_permutes [IsStrictOrderedRing F] {lsp : List F} {order : Nat}
    (horder : order ≤ lsp.length) {fuel : Nat} (hfuel : orderTurns order < fuel) :
    ∃ lsp' swaps, checkLspOrder fuel lsp order = some (lsp', swaps) ∧
      2 * swaps ≤ order * (order - 1) ∧ lsp'.drop order = lsp.drop order ∧
      (lowered (lsp'.take order)).Perm (lowered (lsp.take order)) ∧
      (∀ i, 2 ≤ i → i < order → lsp'.getD (i - 1) 0 ≤ lsp'.getD i 0) ∧
      (swaps = 0 ↔ ∀ i, 1 ≤ i → i < order → lsp.getD (i - 1) 0 ≤ lsp.getD i 0) ∧
      (swaps = 0 → lsp' = lsp) := by
  obtain ⟨lsp', swaps, i, hrun, hi, h⟩ := checkLspOrder_eq horder hfuel
  have hmany := two_mul_inversions_le (lowered (lsp.take order))
  have hlength : (lowered (lsp.take order)).length = order := by
    simp [lowered]
    omega
  rw [hlength] at hmany
  have hcount := h.count
  refine ⟨lsp', swaps, hrun, by omega, h.rest, h.perm, fun k hk hlt => ?_, ⟨fun hzero => ?_,
    fun hascends => ?_⟩, h.same⟩
  · apply h.ascends k _ (by omega)
    split <;> omega
  · rw [← h.same hzero]
    intro k hk hlt
    apply h.ascends k _ (by omega)
    rw [if_pos hzero]
    exact hk
  · have hturns : order - 1 < fuel := by
      unfold orderTurns at hfuel
      omega
    have hsame : checkOrderLoop order fuel lsp 0 1 = some (lsp, 0) :=
      checkOrderLoop_ascending hascends horder (Nat.le_refl 1) hturns
    rw [checkLspOrder, hsame] at hrun
    simp at hrun
    exact hrun.2.symm

/-- Three frequencies of which the first two are out of order. -/
theorem check_lsp_order_permutes_three :
    ∃ lsp' swaps, checkLspOrder 20 ([1, 1 / 2, 3 / 2] : List ℚ) 3 = some (lsp', swaps) ∧
      2 * swaps ≤ 3 * (3 - 1) ∧ lsp'.drop 3 = ([1, 1 / 2, 3 / 2] : List ℚ).drop 3 ∧
      (lowered (lsp'.take 3)).Perm (lowered (([1, 1 / 2, 3 / 2] : List ℚ).take 3)) ∧
      (∀ i, 2 ≤ i → i < 3 → lsp'.getD (i - 1) 0 ≤ lsp'.getD i 0) ∧
      (swaps = 0 ↔ ∀ i, 1 ≤ i → i < 3 →
        ([1, 1 / 2, 3 / 2] : List ℚ).getD (i - 1) 0 ≤ ([1, 1 / 2, 3 / 2] : List ℚ).getD i 0) ∧
      (swaps = 0 → lsp' = [1, 1 / 2, 3 / 2]) :=
  check_lsp_order_permutes (by decide) (by decide)

/-! ## Separation -/

/-- The entries that `bw_expand_lsps` leaves, each as low as it may be. -/
def expanded (separation : Nat → F) (lsp : List F) : Nat → F
  | 0 => lsp.getD 0 0
  | i + 1 => max (lsp.getD (i + 1) 0) (expanded separation lsp i + separation (i + 1))

theorem expandStep_eq [IsStrictOrderedRing F] {l : List F} {i : Nat} (hi : 1 ≤ i)
    (hl : i < l.length) (separation : F) :
    expandStep separation l i =
      some (l.set i (max (l.getD i 0) (l.getD (i - 1) 0 + separation))) := by
  rw [expandStep, List.getElem?_eq_getElem hl, List.getElem?_eq_getElem (by omega),
    List.getD_eq_getElem _ _ hl, List.getD_eq_getElem _ _ (by omega)]
  simp only [Option.bind_eq_bind, Option.bind_some]
  by_cases hclose : l[i] - l[i - 1] < separation
  · rw [if_pos hclose, store_eq hl, max_eq_right (by linarith)]
  · rw [if_neg hclose, max_eq_left (by linarith), List.set_getElem_self]
    rfl

/-- The separation that `bw_expand_lsps` asks of the entry `i` and the one before it. -/
def separationAt (math : FloatMath F) (minSepLow minSepHigh : F) (i : Nat) : F :=
  (if i < 4 then minSepLow else minSepHigh) * (math.pi / (4000 : Nat))

theorem expandStep_filled [IsStrictOrderedRing F] {separation : Nat → F} {lsp l : List F} {i : Nat}
    (h : Filled 0 i (expanded separation lsp) lsp l) (hi : 1 ≤ i) (hlsp : i < lsp.length) :
    ∃ l', expandStep (separation i) l i = some l' ∧
      Filled 0 (i + 1) (expanded separation lsp) lsp l' := by
  obtain ⟨k, rfl⟩ : ∃ k, i = k + 1 := ⟨i - 1, by omega⟩
  have hlength := h.length
  have hhere : l.getD (k + 1) 0 = lsp.getD (k + 1) 0 := by
    rw [List.getD_eq_getElem?_getD, h.get_out (by omega), ← List.getD_eq_getElem?_getD]
  have hbefore : l.getD k 0 = expanded separation lsp k := by
    exact h.getD_in (by omega) (by omega) 0
  have hset := h.set (by omega)
  rw [Nat.zero_add] at hset
  refine ⟨_, ?_, hset⟩
  rw [expandStep_eq hi (by omega), hhere, Nat.add_sub_cancel, hbefore, expanded]

/-- What `bw_expand_lsps` leaves. -/
theorem bwExpandLsps_eq [IsStrictOrderedRing F] (math : FloatMath F) {lsp : List F} {order : Nat}
    (horder : 4 ≤ order) (hlsp : order ≤ lsp.length) (minSepLow minSepHigh : F) :
    ∃ lsp', bwExpandLsps math lsp order minSepLow minSepHigh = some lsp' ∧
      Filled 0 order (expanded (separationAt math minSepLow minSepHigh) lsp) lsp lsp' := by
  have hstep {i : Nat} {l : List F} (separation : F)
      (hsep : separation = separationAt math minSepLow minSepHigh i) (hi : 1 ≤ i) (hil : i < order)
      (h : Filled 0 i (expanded (separationAt math minSepLow minSepHigh) lsp) lsp l) :
      ∃ l', expandStep separation l i = some l' ∧
        Filled 0 (i + 1) (expanded (separationAt math minSepLow minSepHigh) lsp) lsp l' := by
    rw [hsep]
    exact expandStep_filled h hi (by omega)
  have hstart : Filled 0 1 (expanded (separationAt math minSepLow minSepHigh) lsp) lsp lsp := by
    have hset := (filled_zero 0 (expanded (separationAt math minSepLow minSepHigh) lsp) lsp).set
      (by omega)
    rw [Nat.zero_add, expanded, List.getD_eq_getElem _ _ (by omega), List.set_getElem_self] at hset
    exact hset
  obtain ⟨l, hlow, hl⟩ := foldlM_range' (n := 3) (fun i l => Filled 0 i _ lsp l) hstart
    fun i l hi hil h => hstep (minSepLow * (math.pi / (4000 : Nat)))
      (by rw [separationAt, if_pos (by omega)]) hi (by omega) h
  obtain ⟨lsp', hhigh, hlsp'⟩ := foldlM_range' (n := order - 4) (fun i l => Filled 0 i _ lsp l) hl
    fun i l hi hil h => hstep (minSepHigh * (math.pi / (4000 : Nat)))
      (by rw [separationAt, if_neg (by omega)]) (by omega) (by omega) h
  refine ⟨lsp', ?_, by rwa [show 1 + 3 + (order - 4) = order by omega] at hlsp'⟩
  rw [bwExpandLsps, hlow]
  exact hhigh

/-! ## Interpolation -/

omit [LinearOrder F] in
theorem interpolateLspVer2_eq {interp prev next : List F} {order : Nat} (weight : F)
    (hinterp : order ≤ interp.length) (hprev : order ≤ prev.length) (hnext : order ≤ next.length) :
    ∃ interp', interpolateLspVer2 interp prev next weight order = some interp' ∧
      Filled 0 order (fun i => (1 - weight) * prev.getD i 0 + weight * next.getD i 0) interp
        interp' := by
  have hstep : ∀ i l, i < order →
      Filled 0 i (fun i => (1 - weight) * prev.getD i 0 + weight * next.getD i 0) interp l →
      interpolateStep prev next weight l (0 + i) =
        some (l.set (0 + i) ((1 - weight) * prev.getD (0 + i) 0 + weight * next.getD (0 + i) 0)) := by
    intro i l hi hl
    rw [Nat.zero_add, interpolateStep, List.getElem?_eq_getElem (by omega),
      List.getElem?_eq_getElem (by omega), List.getD_eq_getElem _ _ (by omega),
      List.getD_eq_getElem _ _ (by omega)]
    exact store_eq (by rw [hl.length]; omega) _
  obtain ⟨interp', hrun, hfilled⟩ := foldlM_filled (by omega) hstep
  refine ⟨interp', ?_, hfilled⟩
  rw [interpolateLspVer2, List.range_eq_range']
  exact hrun

end Lxst.Codec2
