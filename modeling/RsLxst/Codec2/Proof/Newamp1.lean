import Mathlib.Algebra.Order.Field.Basic
import Mathlib.Algebra.Order.Ring.Rat
import Mathlib.Algebra.Field.Rat
import RsLxst.Codec2.Newamp1

/-!
# The bounded search is the exhaustive one

In exact arithmetic a sum of squares only grows, so an error that `squared_error` abandons is no
smaller than its limit, and neither is the full one (`squaredError_cut`). The five candidates are
therefore the same (`quantizeBest_eq`), and so is the winner of each of them; the winners in the
order of the candidates decide like one scan over all pairs (`quantize_eq_exhaustive`).
-/

set_option autoImplicit false

namespace Lxst.Codec2

open MBest

variable {F : Type}

/-! ## The errors -/

theorem groups_flatten : groups.flatten = List.finRange K := by decide

theorem toList_zip_toList {α β : Type} {n : Nat} (v : Vector α n) (w : Vector β n) :
    v.toList.zip w.toList = (List.finRange n).map fun k => (v.get k, w.get k) := by
  apply List.ext_getElem
  · simp
  · intro i h1 h2
    simp [Vector.get]

theorem fullError_eq [Zero F] [Add F] [Sub F] [Mul F] (vector target : Vector F K) :
    fullError vector target = (List.finRange K).foldl (addSquare vector target) 0 := by
  rw [fullError, toList_zip_toList, List.foldl_map]
  rfl

theorem length_of_mapM {α β : Type} {f : α → Option β} {as : List α} {bs : List β}
    (h : as.mapM f = some bs) : bs.length = as.length := by
  induction as generalizing bs with
  | nil =>
    cases h
    rfl
  | cons a as ih =>
    rw [List.mapM_cons] at h
    obtain ⟨b, -, h⟩ := Option.bind_eq_some_iff.mp h
    obtain ⟨rest, hrest, h⟩ := Option.bind_eq_some_iff.mp h
    cases h
    rw [List.length_cons, List.length_cons, ih hrest]

/-- A pair of indexes with its error. -/
def paired (first : Nat) (entry : F × Nat) : F × Nat × Nat := (entry.1, first, entry.2)

section
variable [Zero F] [Add F] [Sub F] [Mul F] [LT F] [DecidableLT F] [LE F] [DecidableLE F]

theorem quantize_eq (vq1 vq2 : Codebook F) (start : F) (target : Vector F K) :
    quantize vq1 vq2 start target =
      (((quantizeBest vq1 start target).toList.mapM fun candidate =>
        residual vq1 target candidate.2).map fun residuals =>
          ((quantizeBest vq1 start target).toList.zip
            (quantizeWinners vq2 start residuals)).foldl
            (fun result (candidate, winner) => better result (paired candidate.2 winner))
            (start, 0, 0)).map Prod.snd := by
  rw [Option.map_map, Option.map_eq_bind]
  rfl

end

section
variable [Zero F] [Add F] [Sub F] [Mul F] [LinearOrder F]

/-! ## Winners and pairs -/

/-- The errors of a residual over the second codebook. -/
def errors (vq2 : Codebook F) (residual : Vector F K) : List (F × Nat) :=
  vq2.zipIdx.map fun (vector, second) => (fullError vector residual, second)

/-- All pairs with a candidate. -/
def scanPairs (vq2 : Codebook F) (result : F × Nat × Nat) (first : Nat) (residual : Vector F K) :
    F × Nat × Nat :=
  vq2.zipIdx.foldl (fun result (vector, second) =>
    better result (fullError vector residual, first, second)) result

/-- A candidate's winner decides like all pairs with the candidate. -/
theorem better_winner (vq2 : Codebook F) {start : F} {result : F × Nat × Nat}
    (hresult : result.1 ≤ start) (first : Nat) (residual : Vector F K) :
    better result (paired first ((errors vq2 residual).foldl better (start, 0))) =
      scanPairs vq2 result first residual := by
  have hpaired : paired first ((errors vq2 residual).foldl better (start, 0)) =
      ((errors vq2 residual).map (paired first)).foldl better (start, first, 0) := by
    have hstart : (start, first, 0) = paired first (start, 0) := rfl
    rw [List.foldl_map, hstart]
    refine (List.foldl_hom (paired first) fun kept entry => ?_).symm
    unfold better paired
    split <;> rfl
  rw [hpaired, foldl_better_eq hresult, errors, List.map_map, List.foldl_map]
  rfl

theorem scanPairs_le (vq2 : Codebook F) (result : F × Nat × Nat) (first : Nat)
    (residual : Vector F K) : (scanPairs vq2 result first residual).1 ≤ result.1 := by
  have h := foldl_better_le result ((errors vq2 residual).map (paired first))
  rw [errors, List.map_map, List.foldl_map] at h
  exact h

/-- The winners in the order of the candidates decide like one scan over all pairs. -/
theorem foldl_winners (vq2 : Codebook F) (start : F) (candidates : List (F × Nat))
    (residuals : List (Vector F K)) :
    (candidates.zip
        (residuals.map fun residual => (errors vq2 residual).foldl better (start, 0))).foldl
      (fun result (candidate, winner) => better result (paired candidate.2 winner))
      (start, 0, 0) =
      (candidates.zip residuals).foldl
        (fun result (candidate, residual) => scanPairs vq2 result candidate.2 residual)
        (start, 0, 0) := by
  rw [List.zip_map_right, List.foldl_map]
  symm
  apply foldl_congr_of_invariant (I := fun result => result.1 ≤ start)
  · rintro result ⟨candidate, residual⟩ hresult
    refine ⟨(better_winner vq2 hresult candidate.2 residual).symm, ?_⟩
    exact (scanPairs_le vq2 result candidate.2 residual).trans hresult
  · exact le_refl start

theorem exhaustive_eq (vq1 vq2 : Codebook F) (start : F) (target : Vector F K) :
    exhaustive vq1 vq2 start target =
      ((exhaustiveBest vq1 start target).toList.foldlM
        (fun result candidate =>
          (residual vq1 target candidate.2).map (scanPairs vq2 result candidate.2))
        (start, 0, 0)).map Prod.snd := by
  rw [Option.map_eq_bind]
  rfl

end

/-! ## Exact arithmetic -/

section
variable [Field F] [LinearOrder F] [IsStrictOrderedRing F]

theorem squaredError_cut (vector target : Vector F K) (limit : F) :
    Cut limit (squaredError vector target limit) (fullError vector target) := by
  have hstep : ∀ error k, error ≤ addSquare vector target error k := by
    intro error k
    exact le_add_of_nonneg_right (mul_self_nonneg _)
  rw [fullError_eq, ← groups_flatten]
  exact scanUntil_cut hstep limit groups 0

theorem quantizeBest_eq (vq1 : Codebook F) (start : F) (target : Vector F K) :
    quantizeBest vq1 start target = exhaustiveBest vq1 start target := by
  unfold quantizeBest exhaustiveBest
  apply foldl_congr_of_invariant (I := Ranked)
  · rintro best ⟨vector, index⟩ hranked
    have hcut := squaredError_cut vector target best[4].1
    exact ⟨insert_cut hranked hcut index, insert_ranked hranked _⟩
  · exact replicate_ranked _

theorem quantizeWinners_eq (vq2 : Codebook F) (start : F) {residuals : List (Vector F K)}
    (hfive : residuals.length = 5) :
    quantizeWinners vq2 start residuals =
      residuals.map fun residual => (errors vq2 residual).foldl better (start, 0) := by
  have hstart : List.replicate 5 (start, 0) = residuals.map fun _ => (start, 0) := by
    rw [List.map_const', hfive]
  rw [quantizeWinners, hstart, foldl_zipWith]
  apply List.map_congr_left
  intro residual _
  rw [errors, List.foldl_map]
  congr 1
  funext kept entry
  exact better_cut (squaredError_cut entry.1 residual kept.1) entry.2

/-- **The bounded search returns what the exhaustive one returns**, for codebooks of any size and
any value to start from. -/
theorem quantize_eq_exhaustive (vq1 vq2 : Codebook F) (start : F) (target : Vector F K) :
    quantize vq1 vq2 start target = exhaustive vq1 vq2 start target := by
  rw [quantize_eq, exhaustive_eq, quantizeBest_eq]
  generalize exhaustiveBest vq1 start target = best
  rw [foldlM_eq_map (fun candidate : F × Nat => residual vq1 target candidate.2)
    (fun result candidate residual => scanPairs vq2 result candidate.2 residual)]
  cases hresiduals : best.toList.mapM fun candidate => residual vq1 target candidate.2 with
  | none => rfl
  | some residuals =>
    have hfive := length_of_mapM hresiduals
    rw [Vector.length_toList] at hfive
    rw [Option.map_some, Option.map_some, quantizeWinners_eq vq2 start hfive, foldl_winners]
    rfl

/-- A zero target, with equal vectors in the first codebook. -/
theorem quantize_eq_exhaustive_zero :
    quantize ([Vector.replicate K 1, Vector.replicate K 1] : Codebook ℚ) [Vector.replicate K (-1)]
        (10 ^ 32) (Vector.replicate K 0) =
      exhaustive ([Vector.replicate K 1, Vector.replicate K 1] : Codebook ℚ)
        [Vector.replicate K (-1)] (10 ^ 32) (Vector.replicate K 0) :=
  quantize_eq_exhaustive _ _ _ _

end

end Lxst.Codec2
