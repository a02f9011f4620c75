import Mathlib.Algebra.BigOperators.Fin
import RsLxst.Codec2.KissFft
import RsLxst.Lib.Fourier

/-!
# The butterflies of the FFT

With exact arithmetic and an exact table (`Exact st w`: the powers of the root `w`, which takes the
quarter turn of the state's direction), the butterfly of a stage replaces each column by its mix
with the powers of the root (`columnMix`), whatever its radix: `bfly2_eq` to `bfly5_eq` and
`bflyGeneric_eq`. So the four special ones do what the generic one does (`recombine_eq_generic`).
-/

set_option autoImplicit false

namespace Lxst.Codec2

open Columns Finset Fourier KissFftCpx

/-- A stage of a transform of length `nfft`: `m` columns of `p` entries. -/
structure Stage (nfft fstride p m : Nat) : Prop where
  length : fstride * (p * m) = nfft
  fstride : 0 < fstride
  rows : 0 < p
  columns : 0 < m

section
variable {nfft fstride p m : Nat}

theorem Stage.nfft_pos (hs : Stage nfft fstride p m) : 0 < nfft := by
  rw [← hs.length]
  exact Nat.mul_pos hs.fstride (Nat.mul_pos hs.rows hs.columns)

theorem Stage.turn_le (hs : Stage nfft fstride p m) {u q : Nat} (hu : u ≤ m) (hq : q ≤ p) :
    u * (fstride * q) ≤ nfft := by
  calc u * (fstride * q) = fstride * (q * u) := by ring
    _ ≤ fstride * (p * m) := Nat.mul_le_mul_left _ (Nat.mul_le_mul hq hu)
    _ = nfft := hs.length

theorem Stage.turn_lt (hs : Stage nfft fstride p m) {u q : Nat} (hu : u < m) (hq : q < p) :
    u * (fstride * q) < nfft := by
  calc u * (fstride * q) = fstride * (q * u) := by ring
    _ < fstride * (p * m) := Nat.mul_lt_mul_of_pos_left (Nat.mul_lt_mul'' hq hu) hs.fstride
    _ = nfft := hs.length

end

variable {F : Type} [Field F]

/-- A quarter turn. -/
def quarterTurn (inverse : Int) : KissFftCpx F := if inverse ≠ 0 then unit else -unit

structure Exact (st : KissFftState F) (w : KissFftCpx F) : Prop where
  twiddles : st.twiddles = (List.range st.nfft).map (w ^ ·)
  root : IsPrimitiveRoot w st.nfft
  norm : star w * w = 1
  quarter : 4 ∣ st.nfft → w ^ (st.nfft / 4) = quarterTurn st.inverse

variable {st : KissFftState F} {w : KissFftCpx F} {fstride p m : Nat}

theorem Exact.length (h : Exact st w) : st.twiddles.length = st.nfft := by simp [h.twiddles]

theorem Exact.getElem? (h : Exact st w) {i : Nat} (hi : i < st.nfft) :
    st.twiddles[i]? = some (w ^ i) := by
  simp [h.twiddles, hi]

/-- What a butterfly leaves in row `r` of column `u`. -/
def columnMix (w : KissFftCpx F) (fstride m u : Nat) (x : Fin p → KissFftCpx F) (r : Fin p) :
    KissFftCpx F :=
  ∑ q : Fin p, x q * w ^ (q * (fstride * (u + r * m)))

/-- The entries turned first, then mixed with the root of the stage. -/
theorem columnMix_eq (w : KissFftCpx F) (fstride m u : Nat) (x : Fin p → KissFftCpx F)
    (r : Fin p) :
    columnMix w fstride m u x r =
      ∑ q : Fin p, x q * w ^ (u * (fstride * q)) * (w ^ (fstride * m)) ^ (q * r : Nat) := by
  apply sum_congr rfl
  intro q _
  rw [mul_assoc, ← pow_mul, ← pow_add]
  congr 2
  ring

/-- The root of the stage. -/
theorem Stage.root (hs : Stage st.nfft fstride p m) (h : Exact st w) :
    IsPrimitiveRoot (w ^ (fstride * m)) p := by
  refine h.root.pow hs.nfft_pos ?_
  rw [← hs.length]
  ring

/-- The twiddle of the entry `q` of the column `u`. -/
theorem Stage.twiddle (hs : Stage st.nfft fstride p m) (h : Exact st w) {u q : Nat} (hu : u < m)
    (hq : q < p) : st.twiddles[u * (fstride * q)]? = some (w ^ (u * (fstride * q))) :=
  h.getElem? (hs.turn_lt hu hq)

/-! ## The butterflies -/

section
variable {u : Nat}

theorem bfly2_eq [LinearOrder F] [IsStrictOrderedRing F] (h : Exact st w)
    (hs : Stage st.nfft fstride 2 m) (hu : u < m) (x : Fin 2 → KissFftCpx F) :
    bfly2 st.twiddles fstride u x = some (columnMix w fstride m u x) := by
  have hroot : w ^ (fstride * m) = -1 := (hs.root h).eq_neg_one_of_two_right
  have htw := hs.twiddle h hu (q := 1) (by omega)
  rw [Nat.mul_one] at htw
  have hslice : (u + 1) * fstride ≤ st.twiddles.length := by
    have := hs.turn_le (u := u + 1) (q := 1) hu (by omega)
    rwa [Nat.mul_one, ← h.length] at this
  rw [bfly2, htw]
  simp only [Option.bind_eq_bind, Option.bind_some, hslice, if_true, Option.pure_def,
    Option.some.injEq]
  funext r
  rw [columnMix_eq, hroot, Fin.sum_univ_two]
  fin_cases r
  · simp
  · simp [sub_eq_add_neg]

theorem quarterTurn_mul_self (inverse : Int) :
    quarterTurn inverse * quarterTurn inverse = (-1 : KissFftCpx F) := by
  unfold quarterTurn
  split
  · exact unit_mul_unit
  · rw [neg_mul_neg, unit_mul_unit]

/-- The two rows that differ by a quarter turn, in the order of the direction. -/
theorem quarter_rows (inverse : Int) (a b c d : KissFftCpx F) :
    (if inverse ≠ 0 then some ![a, { r := c.r - d.i, i := c.i + d.r }, b,
        { r := c.r + d.i, i := c.i - d.r }]
      else some ![a, { r := c.r + d.i, i := c.i - d.r }, b,
        { r := c.r - d.i, i := c.i + d.r }]) =
      some ![a, c + quarterTurn inverse * d, b, c - quarterTurn inverse * d] := by
  have hplus : ({ r := c.r - d.i, i := c.i + d.r } : KissFftCpx F) = c + unit * d := by
    ext <;> simp [sub_eq_add_neg]
  have hminus : ({ r := c.r + d.i, i := c.i - d.r } : KissFftCpx F) = c - unit * d := by
    ext <;> simp
  rw [hplus, hminus]
  unfold quarterTurn
  split
  · rfl
  · rw [neg_mul, sub_neg_eq_add, ← sub_eq_add_neg]

theorem bfly4_eq (h : Exact st w) (hs : Stage st.nfft fstride 4 m) (hu : u < m)
    (x : Fin 4 → KissFftCpx F) :
    bfly4 st.inverse st.twiddles fstride u x = some (columnMix w fstride m u x) := by
  have hlength : st.nfft = 4 * (fstride * m) := by
    rw [← hs.length]
    ring
  have hroot : w ^ (fstride * m) = quarterTurn st.inverse := by
    have hquarter : st.nfft / 4 = fstride * m := by omega
    rw [← hquarter]
    exact h.quarter ⟨fstride * m, hlength⟩
  have htw1 := hs.twiddle h hu (q := 1) (by omega)
  have htw2 := hs.twiddle h hu (q := 2) (by omega)
  have htw3 := hs.twiddle h hu (q := 3) (by omega)
  rw [Nat.mul_one] at htw1
  have hslice : (u + 1) * (fstride * 3) ≤ st.twiddles.length := by
    rw [h.length]
    exact hs.turn_le hu (by omega)
  rw [bfly4, htw1, htw2, htw3]
  simp only [Option.bind_eq_bind, Option.bind_some, hslice, if_true, Option.pure_def, cMul_eq,
    cAdd_eq, cSub_eq]
  rw [quarter_rows]
  congr 1
  have hsq := quarterTurn_mul_self (F := F) st.inverse
  funext r
  rw [columnMix_eq, hroot, Fin.sum_univ_four]
  fin_cases r
  · simp
    ring
  · simp
    linear_combination (-(x 2 * w ^ (u * (fstride * 2)))
      - x 3 * w ^ (u * (fstride * 3)) * quarterTurn st.inverse) * hsq
  · simp
    linear_combination (-(x 1 * w ^ (u * fstride))
      + x 2 * w ^ (u * (fstride * 2)) * (1 - quarterTurn st.inverse ^ 2)
      - x 3 * w ^ (u * (fstride * 3)) *
        (1 - quarterTurn st.inverse ^ 2 + quarterTurn st.inverse ^ 4)) * hsq
  · simp
    linear_combination (-(x 1 * w ^ (u * fstride)) * quarterTurn st.inverse
      - x 2 * w ^ (u * (fstride * 2)) *
        (1 - quarterTurn st.inverse ^ 2 + quarterTurn st.inverse ^ 4)
      + x 3 * w ^ (u * (fstride * 3)) * quarterTurn st.inverse *
        (1 - quarterTurn st.inverse ^ 2 + quarterTurn st.inverse ^ 4
          - quarterTurn st.inverse ^ 6)) * hsq

/-- The conjugate of a power of the root of the stage is another one. -/
theorem star_root_pow (h : Exact st w) (hs : Stage st.nfft fstride p m) {a b : Nat}
    (hab : a + b = p) :
    star ((w ^ (fstride * m)) ^ a) = (w ^ (fstride * m)) ^ b := by
  have hone : (w ^ (fstride * m)) ^ a * (w ^ (fstride * m)) ^ b = 1 := by
    rw [← pow_add, hab, (hs.root h).pow_eq_one]
  have hnorm : star ((w ^ (fstride * m)) ^ a) * (w ^ (fstride * m)) ^ a = 1 := by
    rw [← pow_mul]
    exact star_pow_mul h.norm _
  calc star ((w ^ (fstride * m)) ^ a)
      = star ((w ^ (fstride * m)) ^ a) * ((w ^ (fstride * m)) ^ a * (w ^ (fstride * m)) ^ b) := by
        rw [hone, mul_one]
    _ = (w ^ (fstride * m)) ^ b := by rw [← mul_assoc, hnorm, one_mul]

theorem bfly5_eq (h : Exact st w) (hs : Stage st.nfft fstride 5 m) (hu : u < m)
    (x : Fin 5 → KissFftCpx F) :
    bfly5 (w ^ (fstride * m)) ((w ^ (fstride * m)) ^ 2) st.twiddles fstride u x =
      some (columnMix w fstride m u x) := by
  have hindex (q : Nat) : q * u * fstride = u * (fstride * q) := by ring
  have htw1 := hs.twiddle h hu (q := 1) (by omega)
  rw [Nat.mul_one] at htw1
  rw [bfly5, hindex 2, hindex 3, hindex 4, htw1, hs.twiddle h hu (q := 2) (by omega),
    hs.twiddle h hu (q := 3) (by omega), hs.twiddle h hu (q := 4) (by omega)]
  simp only [Option.bind_eq_bind, Option.bind_some, Option.pure_def, cMul_eq, cAdd_eq, cSub_eq]
  congr 1
  have hroot := (hs.root h).pow_eq_one
  have hthree := (star_root_pow h hs (a := 2) (b := 3) (by omega)).symm
  have hfour : (w ^ (fstride * m)) ^ 4 = star (w ^ (fstride * m)) := by
    have := star_root_pow h hs (a := 1) (b := 4) (by omega)
    rw [pow_one] at this
    exact this.symm
  generalize hx1 : x 1 * w ^ (u * fstride) = x1
  generalize hx2 : x 2 * w ^ (u * (fstride * 2)) = x2
  generalize hx3 : x 3 * w ^ (u * (fstride * 3)) = x3
  generalize hx4 : x 4 * w ^ (u * (fstride * 4)) = x4
  generalize hya : w ^ (fstride * m) = ya at *
  have hsix : ya ^ 6 = ya := by rw [pow_succ, hroot, one_mul]
  have height : ya ^ 8 = star (ya ^ 2) := by rw [pow_add ya 5 3, hroot, one_mul, hthree]
  have hnine : ya ^ 9 = star ya := by rw [pow_add ya 5 4, hroot, one_mul, hfour]
  have htwelve : ya ^ 12 = ya ^ 2 := by
    rw [pow_add ya 10 2, pow_mul ya 5 2, hroot, one_pow, one_mul]
  have hsixteen : ya ^ 16 = ya := by
    rw [pow_succ, pow_mul ya 5 3, hroot, one_pow, one_mul]
  generalize hyb : ya ^ 2 = yb at *
  funext r
  rw [columnMix_eq, hya, Fin.sum_univ_five]
  fin_cases r
  · ext
    · simp [hx1, hx2, hx3, hx4]
      ring
    · simp [hx1, hx2, hx3, hx4]
      ring
  · ext
    · simp [hx1, hx2, hx3, hx4, hyb, hthree, hfour]
      ring
    · simp [hx1, hx2, hx3, hx4, hyb, hthree, hfour]
      ring
  · ext
    · simp [hx1, hx2, hx3, hx4, hyb, hfour, hsix, height]
      ring
    · simp [hx1, hx2, hx3, hx4, hyb, hfour, hsix, height]
      ring
  · ext
    · simp [hx1, hx2, hx3, hx4, hthree, hsix, hnine, htwelve]
      ring
    · simp [hx1, hx2, hx3, hx4, hthree, hsix, hnine, htwelve]
      ring
  · ext
    · simp [hx1, hx2, hx3, hx4, hfour, height, htwelve, hsixteen]
      ring
    · simp [hx1, hx2, hx3, hx4, hfour, height, htwelve, hsixteen]
      ring

section
variable [LinearOrder F] [IsStrictOrderedRing F]

/-- The real part of the root of a stage of three entries. -/
theorem root_three_r (h : Exact st w) (hs : Stage st.nfft fstride 3 m) :
    2 * (w ^ (fstride * m)).r = -1 := by
  have hsum := (hs.root h).geom_sum_eq_zero (by omega)
  have hconj : star ((w ^ (fstride * m)) ^ 1) = (w ^ (fstride * m)) ^ 2 :=
    star_root_pow h hs (by omega)
  rw [sum_range_succ, sum_range_succ, sum_range_one, ← hconj, pow_zero, pow_one] at hsum
  have hr : 1 + (w ^ (fstride * m)).r + (w ^ (fstride * m)).r = 0 := congrArg KissFftCpx.r hsum
  linear_combination hr

theorem bfly3_eq (h : Exact st w) (hs : Stage st.nfft fstride 3 m) (hu : u < m)
    (x : Fin 3 → KissFftCpx F) :
    bfly3 (w ^ (fstride * m)) st.twiddles fstride u x = some (columnMix w fstride m u x) := by
  have htw1 := hs.twiddle h hu (q := 1) (by omega)
  have htw2 := hs.twiddle h hu (q := 2) (by omega)
  rw [Nat.mul_one] at htw1
  rw [bfly3, htw1, htw2]
  simp only [Option.bind_eq_bind, Option.bind_some, Option.pure_def, cMul_eq, cAdd_eq, cSub_eq]
  congr 1
  have hr := root_three_r h hs
  have hsq : (w ^ (fstride * m)) ^ 2 = star (w ^ (fstride * m)) := by
    have := star_root_pow h hs (a := 1) (b := 2) (by omega)
    rw [pow_one] at this
    exact this.symm
  have hfour : (w ^ (fstride * m)) ^ 4 = w ^ (fstride * m) := by
    rw [pow_succ, (hs.root h).pow_eq_one, one_mul]
  generalize hx1 : x 1 * w ^ (u * fstride) = x1
  generalize hx2 : x 2 * w ^ (u * (fstride * 2)) = x2
  generalize hroot : w ^ (fstride * m) = root at *
  funext r
  rw [columnMix_eq, hroot, Fin.sum_univ_three]
  fin_cases r
  · simp [hx1, hx2]
    ring
  · ext
    · simp [hx1, hx2, hsq, cMulByScalar]
      linear_combination (-(x1.r + x2.r) / 2) * hr
    · simp [hx1, hx2, hsq, cMulByScalar]
      linear_combination (-(x1.i + x2.i) / 2) * hr
  · ext
    · simp [hx1, hx2, hsq, hfour, cMulByScalar]
      linear_combination (-(x1.r + x2.r) / 2) * hr
    · simp [hx1, hx2, hsq, hfour, cMulByScalar]
      linear_combination (-(x1.i + x2.i) / 2) * hr

end

/-! ## The generic butterfly -/

/-- One more step of an index below the length, as the code takes it. -/
theorem wrapped_add {N n a : Nat} (ha : a < N) :
    (if n * a % N + a ≥ N then n * a % N + a - N else n * a % N + a) = (n + 1) * a % N := by
  have hmod : n * a % N < N := Nat.mod_lt _ (by omega)
  have hsum : (n + 1) * a % N = (n * a % N + a) % N := by
    rw [Nat.add_mul, Nat.one_mul, Nat.mod_add_mod]
  rw [hsum]
  generalize n * a % N = b at hmod
  split
  · rename_i hge
    rw [Nat.mod_eq_sub_mod hge, Nat.mod_eq_of_lt (by omega)]
  · rename_i hlt
    rw [Nat.mod_eq_of_lt (by omega)]

theorem Exact.pow_mod (h : Exact st w) (a : Nat) : w ^ (a % st.nfft) = w ^ a := by
  have hsplit : w ^ (st.nfft * (a / st.nfft) + a % st.nfft) = w ^ (a % st.nfft) := by
    rw [pow_add, pow_mul, h.root.pow_eq_one, one_pow, one_mul]
  rw [← hsplit, Nat.div_add_mod]

/-- After `n` steps of the inner loop. -/
theorem genericTerm_foldlM (h : Exact st w) {fstride k n : Nat} (hk : fstride * k < st.nfft)
    (scratch : Fin (n + 1) → KissFftCpx F) :
    (List.finRange n).foldlM (genericTerm st fstride k scratch) (0, scratch 0) =
      some (n * (fstride * k) % st.nfft,
        ∑ q : Fin (n + 1), scratch q * w ^ (q * (fstride * k))) := by
  induction n with
  | zero => simp
  | succ n ih =>
    have hbefore : (List.finRange n).foldlM
        (fun state q => genericTerm st fstride k scratch state q.castSucc) (0, scratch 0) = _ :=
      ih fun q => scratch q.castSucc
    have hindex : (n + 1) * (fstride * k) % st.nfft < st.nfft := Nat.mod_lt _ (by omega)
    rw [List.finRange_succ_last, List.foldlM_append, List.foldlM_map, hbefore]
    simp only [Option.bind_eq_bind, Option.bind_some, List.foldlM_cons, List.foldlM_nil,
      genericTerm, wrapped_add hk, h.getElem? hindex, Option.pure_def, h.pow_mod, cAdd_eq, cMul_eq]
    rw [Fin.sum_univ_castSucc (n := n + 1)]
    rfl

theorem genericSum_eq (h : Exact st w) {fstride k p : Nat} (hk : fstride * k < st.nfft)
    (scratch : Fin (p + 1) → KissFftCpx F) :
    genericSum st fstride k scratch =
      some (∑ q : Fin (p + 1), scratch q * w ^ (q * (fstride * k))) := by
  rw [genericSum, genericTerm_foldlM h hk]
  rfl

theorem bflyGeneric_eq (h : Exact st w) {fstride p m : Nat} (hs : Stage st.nfft fstride (p + 1) m)
    {u : Nat} (hu : u < m) (x : Fin (p + 1) → KissFftCpx F) :
    (gather fun q1 : Fin (p + 1) => genericSum st fstride (u + q1 * m) x) =
      some (columnMix w fstride m u x) := by
  apply gather_eq
  intro q1
  apply genericSum_eq h
  rw [← hs.length]
  exact Nat.mul_lt_mul_of_pos_left (entry_lt hu q1) hs.fstride

theorem kfBflyGeneric_columns (h : Exact st w) {fstride p m : Nat}
    (hs : Stage st.nfft fstride p m) (hp : p ≤ 5) (Fout : List (KissFftCpx F)) :
    kfBflyGeneric Fout fstride st m p =
      eachColumn p m (fun u x => some (columnMix w fstride m u x)) Fout := by
  cases p with
  | zero => exact absurd hs.rows (by omega)
  | succ p =>
    rw [kfBflyGeneric, if_pos hp]
    exact eachColumn_congr (fun u hu x => bflyGeneric_eq h hs hu x) Fout

/-- The root of the stage, where the butterflies of three and of five look it up. -/
theorem Stage.lookup {fstride p m : Nat} (hs : Stage st.nfft fstride p m) (h : Exact st w)
    {a : Nat} (ha : a < p) :
    st.twiddles[fstride * a * m]? = some ((w ^ (fstride * m)) ^ a) := by
  have hlt : fstride * a * m < st.nfft := by
    rw [← hs.length, Nat.mul_assoc]
    exact Nat.mul_lt_mul_of_pos_left (Nat.mul_lt_mul_of_pos_right ha hs.columns) hs.fstride
  rw [h.getElem? hlt, ← pow_mul, mul_right_comm]

section
variable [LinearOrder F] [IsStrictOrderedRing F] {fstride p m : Nat}

theorem recombine_columns (h : Exact st w) (hs : Stage st.nfft fstride p m) (hp : 2 ≤ p)
    (hp5 : p ≤ 5) (Fout : List (KissFftCpx F)) :
    recombine Fout fstride st m p =
      eachColumn p m (fun u x => some (columnMix w fstride m u x)) Fout := by
  obtain rfl | rfl | rfl | rfl : p = 2 ∨ p = 3 ∨ p = 4 ∨ p = 5 := by omega
  · exact eachColumn_congr (fun u hu x => bfly2_eq h hs hu x) Fout
  · have hepi := hs.lookup h (a := 1) (by omega)
    rw [mul_one, pow_one] at hepi
    rw [recombine, kfBfly3, hepi]
    exact eachColumn_congr (fun u hu x => bfly3_eq h hs hu x) Fout
  · rw [recombine, kfBfly4, if_neg hs.columns.ne']
    exact eachColumn_congr (fun u hu x => bfly4_eq h hs hu x) Fout
  · have hya := hs.lookup h (a := 1) (by omega)
    rw [mul_one, pow_one] at hya
    rw [recombine, kfBfly5, hya, hs.lookup h (a := 2) (by omega)]
    exact eachColumn_congr (fun u hu x => bfly5_eq h hs hu x) Fout

/-- **The butterflies of radix 2 to 5 do what the generic one does**, on any list. -/
theorem recombine_eq_generic (h : Exact st w) (hs : Stage st.nfft fstride p m) (hp : 2 ≤ p)
    (hp5 : p ≤ 5) (Fout : List (KissFftCpx F)) :
    recombine Fout fstride st m p = kfBflyGeneric Fout fstride st m p := by
  rw [recombine_columns h hs hp hp5, kfBflyGeneric_columns h hs hp5]

theorem recombine_eq (h : Exact st w) (hs : Stage st.nfft fstride p m) (hp : 2 ≤ p) (hp5 : p ≤ 5)
    {Fout : List (KissFftCpx F)} (hl : p * m ≤ Fout.length) :
    recombine Fout fstride st m p =
      some (mapColumns p m (fun u x => columnMix w fstride m u x) Fout) := by
  rw [recombine_columns h hs hp hp5]
  exact eachColumn_eq hs.rows hs.columns (fun u _ x => rfl) hl

end

end

end Lxst.Codec2
