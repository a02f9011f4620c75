import RsLxst.Codec2.Proof.LpcToLsp

/-!
# From line spectral pairs to a predictor

`lsp_to_lpc` feeds an impulse through the second order sections of `P(z)` and `Q(z)`. What it keeps
of the section `i` at the step `j` are coefficients of the product of the sections before it
(`Memory`), so it writes the coefficients of the two products, put together. With exact line
spectral pairs that is the predictor they come from: `lsp_to_lpc_inverts`.
-/

set_option autoImplicit false

namespace Lxst.Codec2

open Polynomial LineSpectrum Fill

/-! ## The buffer -/

section
variable {F : Type}

/-- The four writes of a section, in the order of the code. -/
def writeSection (Wp : List F) (b : Nat) (v0 v1 v2 v3 : F) : List F :=
  (((Wp.set (b + 1) v1).set (b + 3) v3).set b v0).set (b + 2) v2

@[simp] theorem length_writeSection (Wp : List F) (b : Nat) (v0 v1 v2 v3 : F) :
    (writeSection Wp b v0 v1 v2 v3).length = Wp.length := by simp [writeSection]

theorem getElem?_writeSection {Wp : List F} {b : Nat} (hb : b + 3 < Wp.length) (v0 v1 v2 v3 : F) :
    (writeSection Wp b v0 v1 v2 v3)[b]? = some v0 ∧
      (writeSection Wp b v0 v1 v2 v3)[b + 1]? = some v1 ∧
      (writeSection Wp b v0 v1 v2 v3)[b + 2]? = some v2 ∧
      (writeSection Wp b v0 v1 v2 v3)[b + 3]? = some v3 := by
  unfold writeSection
  refine ⟨?_, ?_, ?_, ?_⟩
  · rw [List.getElem?_set_ne (by omega), List.getElem?_set_self (by simp; omega)]
  · rw [List.getElem?_set_ne (by omega), List.getElem?_set_ne (by omega),
      List.getElem?_set_ne (by omega), List.getElem?_set_self (by omega)]
  · rw [List.getElem?_set_self (by simp; omega)]
  · rw [List.getElem?_set_ne (by omega), List.getElem?_set_ne (by omega),
      List.getElem?_set_self (by simp; omega)]

theorem getElem?_writeSection_other {Wp : List F} {b k : Nat} (hk : k < b ∨ b + 3 < k)
    (v0 v1 v2 v3 : F) : (writeSection Wp b v0 v1 v2 v3)[k]? = Wp[k]? := by
  unfold writeSection
  rw [List.getElem?_set_ne (by omega), List.getElem?_set_ne (by omega),
    List.getElem?_set_ne (by omega), List.getElem?_set_ne (by omega)]

end

/-! ## The sections -/

variable {F : Type} [Field F] {x y : Nat → F} {m i j : Nat}

theorem coeff_factors_succ (x : Nat → F) (i j : Nat) :
    (factors x (i + 1)).coeff j =
      (factors x i).coeff j - 2 * x i * (X * factors x i).coeff j +
        (X ^ 2 * factors x i).coeff j := by
  have hsplit : factors x (i + 1) =
      factors x i - C (2 * x i) * (X * factors x i) + X ^ 2 * factors x i := by
    rw [factors, Finset.prod_range_succ, ← factors]
    push_cast
    ring
  rw [hsplit, coeff_add, coeff_sub, coeff_C_mul]

theorem coeff_X_sq_mul_succ (p : F[X]) (j : Nat) :
    (X ^ 2 * p).coeff (j + 1) = (X * p).coeff j := by
  rw [pow_two, mul_assoc, coeff_X_mul]

/-- What `Wp` holds in the step `j`, before the section `i`: the sections before it have gone on to
the next step. -/
structure Memory (x y : Nat → F) (order i j : Nat) (Wp : List F) : Prop where
  length : Wp.length = order * 4 + 2
  first : ∀ q < order / 2,
    Wp[q * 4]? = some ((X * factors x q).coeff (if q < i then j + 1 else j)) ∧
      Wp[q * 4 + 1]? = some ((X ^ 2 * factors x q).coeff (if q < i then j + 1 else j))
  second : ∀ q < order / 2,
    Wp[q * 4 + 2]? = some ((X * factors y q).coeff (if q < i then j + 1 else j)) ∧
      Wp[q * 4 + 3]? = some ((X ^ 2 * factors y q).coeff (if q < i then j + 1 else j))
  last : Wp[order / 2 * 4]? = some ((X * factors x (order / 2)).coeff j) ∧
    Wp[order / 2 * 4 + 1]? = some ((X * factors y (order / 2)).coeff j)

variable {order : Nat} {Wp freq : List F}

theorem memory_zero (x y : Nat → F) (order : Nat) :
    Memory x y order 0 0 (List.replicate (order * 4 + 2) 0) := by
  have hget (k : Nat) (hk : k < order * 4 + 2) :
      (List.replicate (order * 4 + 2) (0 : F))[k]? = some 0 := by
    rw [List.getElem?_replicate, if_pos hk]
  have hone (p : F[X]) : (X * p).coeff 0 = 0 := coeff_X_mul_zero p
  have htwo (p : F[X]) : (X ^ 2 * p).coeff 0 = 0 := by rw [pow_two, mul_assoc, coeff_X_mul_zero]
  refine ⟨by simp, fun q hq => ?_, fun q hq => ?_, ?_⟩
  · rw [hget _ (by omega), hget _ (by omega)]
    simp [hone, htwo]
  · rw [hget _ (by omega), hget _ (by omega)]
    simp [hone, htwo]
  · rw [hget _ (by omega), hget _ (by omega), hone, hone]
    exact ⟨rfl, rfl⟩

/-- A section multiplies by its factor. -/
theorem lspSection_eq (hm : Memory x y order i j Wp) (hi : i < order / 2)
    (hx : freq[2 * i]? = some (x i)) (hy : freq[2 * i + 1]? = some (y i)) :
    ∃ Wp', lspSection freq ⟨Wp, (factors x i).coeff j, (factors y i).coeff j⟩ i =
        some ⟨Wp', (factors x (i + 1)).coeff j, (factors y (i + 1)).coeff j⟩ ∧
      Memory x y order (i + 1) j Wp' := by
  obtain ⟨h1, h2⟩ := hm.first i hi
  obtain ⟨h3, h4⟩ := hm.second i hi
  rw [if_neg (Nat.lt_irrefl i)] at h1 h2 h3 h4
  have hlength := hm.length
  refine ⟨writeSection Wp (i * 4) ((factors x i).coeff j) ((X * factors x i).coeff j)
    ((factors y i).coeff j) ((X * factors y i).coeff j), ?_, ?_⟩
  · rw [lspSection]
    simp only [hx, hy, h1, h2, h3, h4, Option.bind_eq_bind, Option.bind_some]
    rw [store_eq (by omega)]
    simp only [Option.bind_some]
    rw [store_eq (by simp; omega)]
    simp only [Option.bind_some]
    rw [store_eq (by simp; omega)]
    simp only [Option.bind_some]
    rw [store_eq (by simp; omega)]
    simp only [Option.bind_some]
    rw [coeff_factors_succ, coeff_factors_succ]
    push_cast
    rfl
  · obtain ⟨g0, g1, g2, g3⟩ := @getElem?_writeSection F Wp (i * 4) (by omega)
      ((factors x i).coeff j) ((X * factors x i).coeff j) ((factors y i).coeff j)
      ((X * factors y i).coeff j)
    refine ⟨by simp [hlength], fun q hq => ?_, fun q hq => ?_, ?_⟩
    · obtain rfl | hne := eq_or_ne q i
      · rw [g0, g1, if_pos (by omega), coeff_X_mul, coeff_X_sq_mul_succ]
        exact ⟨rfl, rfl⟩
      · have hiff : q < i + 1 ↔ q < i := by omega
        rw [getElem?_writeSection_other (by omega), getElem?_writeSection_other (by omega)]
        simp only [hiff]
        exact hm.first q hq
    · obtain rfl | hne := eq_or_ne q i
      · rw [g2, g3, if_pos (by omega), coeff_X_mul, coeff_X_sq_mul_succ]
        exact ⟨rfl, rfl⟩
      · have hiff : q < i + 1 ↔ q < i := by omega
        rw [getElem?_writeSection_other (by omega), getElem?_writeSection_other (by omega)]
        simp only [hiff]
        exact hm.second q hq
    · rw [getElem?_writeSection_other (by omega), getElem?_writeSection_other (by omega)]
      exact hm.last

/-- What the filter puts out at the step `j`. -/
noncomputable def lspOutput (x y : Nat → F) (m j : Nat) : F :=
  ((1 + X) * factors x m + (1 - X) * factors y m).coeff j * (1 / (2 : Nat))

theorem lspToLpcStep_eq {ak : List F} (hm : Memory x y order 0 j Wp) (horder : 2 ≤ order)
    (hx : ∀ i < order / 2, freq[2 * i]? = some (x i))
    (hy : ∀ i < order / 2, freq[2 * i + 1]? = some (y i)) (hj : j < ak.length) {xin : F}
    (hxin : xin = (1 : F[X]).coeff j) :
    ∃ Wp', lspToLpcStep freq order (ak, ⟨Wp, xin, xin⟩) j =
        some (ak.set j (lspOutput x y (order / 2) j), ⟨Wp', 0, 0⟩) ∧
      Memory x y order 0 (j + 1) Wp' := by
  have hstep : ∀ i (s : LspFilter F), 0 ≤ i → i < 0 + order / 2 →
      (s.xin1 = (factors x i).coeff j ∧ s.xin2 = (factors y i).coeff j ∧
        Memory x y order i j s.Wp) →
      ∃ s', lspSection freq s i = some s' ∧ s'.xin1 = (factors x (i + 1)).coeff j ∧
        s'.xin2 = (factors y (i + 1)).coeff j ∧ Memory x y order (i + 1) j s'.Wp := by
    rintro i ⟨Wp, xin1, xin2⟩ - hi ⟨rfl, rfl, hmemory⟩
    obtain ⟨Wp', hrun, hmemory'⟩ :=
      lspSection_eq hmemory (by omega) (hx i (by omega)) (hy i (by omega))
    exact ⟨_, hrun, rfl, rfl, hmemory'⟩
  have hstart : xin = (factors x 0).coeff j ∧ xin = (factors y 0).coeff j ∧
      Memory x y order 0 j Wp := by
    refine ⟨?_, ?_, hm⟩
    · simpa [factors] using hxin
    · simpa [factors] using hxin
  obtain ⟨⟨Wp₁, xin1, xin2⟩, hrun, hxin1, hxin2, hmemory⟩ :=
    foldlM_range' (s := (⟨Wp, xin, xin⟩ : LspFilter F)) _ hstart hstep
  dsimp only at hxin1 hxin2 hmemory
  rw [Nat.zero_add] at hxin1 hxin2 hmemory
  obtain ⟨hlast1, hlast2⟩ := hmemory.last
  have hlength := hmemory.length
  have hoffset : (if order / 2 = 0 then 0 else (order / 2 - 1) * 4 + 3) + 1 = order / 2 * 4 := by
    rw [if_neg (by omega)]
    omega
  have hoffset' : (if order / 2 = 0 then 0 else (order / 2 - 1) * 4 + 3) + 2 =
      order / 2 * 4 + 1 := by omega
  refine ⟨(Wp₁.set (order / 2 * 4) xin1).set (order / 2 * 4 + 1) xin2, ?_, ?_⟩
  · rw [lspToLpcStep, List.range_eq_range', hrun]
    simp only [Option.bind_eq_bind, Option.bind_some, hoffset, hoffset', hlast1, hlast2]
    rw [store_eq hj]
    simp only [Option.bind_some]
    rw [store_eq (by omega)]
    simp only [Option.bind_some]
    rw [store_eq (by simp; omega)]
    have hout : (factors x (order / 2)).coeff j + (X * factors x (order / 2)).coeff j +
        ((factors y (order / 2)).coeff j - (X * factors y (order / 2)).coeff j) =
          ((1 + X) * factors x (order / 2) + (1 - X) * factors y (order / 2)).coeff j := by
      rw [add_mul, sub_mul, one_mul, one_mul, coeff_add, coeff_add, coeff_sub]
    rw [hxin1, hxin2, hout]
    rfl
  · refine ⟨by simp [hlength], fun q hq => ?_, fun q hq => ?_, ?_⟩
    · have := hmemory.first q hq
      rw [if_pos hq] at this
      rw [if_neg (by omega), List.getElem?_set_ne (by omega), List.getElem?_set_ne (by omega),
        List.getElem?_set_ne (by omega), List.getElem?_set_ne (by omega)]
      exact this
    · have := hmemory.second q hq
      rw [if_pos hq] at this
      rw [if_neg (by omega), List.getElem?_set_ne (by omega), List.getElem?_set_ne (by omega),
        List.getElem?_set_ne (by omega), List.getElem?_set_ne (by omega)]
      exact this
    · rw [List.getElem?_set_ne (by omega), List.getElem?_set_self (by omega),
        List.getElem?_set_self (by simp; omega), coeff_X_mul, coeff_X_mul, hxin1, hxin2]
      exact ⟨rfl, rfl⟩

/-- `lsp_to_lpc` writes the coefficients of the two products, put together. -/
theorem lspToLpc_eq (math : FloatMath F) {lsp ak : List F} (horder : 2 ≤ order)
    (hmax : order ≤ LPC_ORD) (hak : order < ak.length)
    (hx : ∀ i < order / 2, (lsp[2 * i]?).map math.cos = some (x i))
    (hy : ∀ i < order / 2, (lsp[2 * i + 1]?).map math.cos = some (y i))
    (hlsp : order ≤ lsp.length) :
    ∃ ak', lspToLpc math lsp ak order = some ak' ∧
      Filled 0 (order + 1) (lspOutput x y (order / 2)) ak ak' := by
  have hcos : ∀ i freq, i < order → Filled 0 i (fun i => math.cos (lsp.getD i 0))
      (List.replicate order 0) freq →
      copyAt math.cos lsp freq (0 + i) = some (freq.set (0 + i) (math.cos (lsp.getD (0 + i) 0))) := by
    intro i freq hi hfreq
    rw [Nat.zero_add, copyAt, List.getElem?_eq_getElem (by omega), List.getD_eq_getElem?_getD,
      List.getElem?_eq_getElem (by omega)]
    exact store_eq (by rw [hfreq.length]; simp; omega) _
  obtain ⟨freq, hfreq, hfilled⟩ := foldlM_filled (by simp) hcos
  have hget (i : Nat) (hi : i < order) : freq[i]? = (lsp[i]?).map math.cos := by
    rw [hfilled.get_in (by omega) (by omega), List.getD_eq_getElem?_getD,
      List.getElem?_eq_getElem (by omega)]
    rfl
  have hstep : ∀ j (state : List F × LspFilter F), 0 ≤ j → j < 0 + (order + 1) →
      (state.2.xin1 = (1 : F[X]).coeff j ∧ state.2.xin2 = state.2.xin1 ∧
        Memory x y order 0 j state.2.Wp ∧
        Filled 0 j (lspOutput x y (order / 2)) ak state.1) →
      ∃ state', lspToLpcStep freq order state j = some state' ∧
        state'.2.xin1 = (1 : F[X]).coeff (j + 1) ∧ state'.2.xin2 = state'.2.xin1 ∧
        Memory x y order 0 (j + 1) state'.2.Wp ∧
        Filled 0 (j + 1) (lspOutput x y (order / 2)) ak state'.1 := by
    rintro j ⟨ak₁, Wp, xin, xin'⟩ - hj ⟨hxin, hsame, hmemory, hak₁⟩
    dsimp only at hxin hsame hmemory hak₁
    subst hsame
    have hlength := hak₁.length
    obtain ⟨Wp', hrun, hmemory'⟩ := @lspToLpcStep_eq F _ x y j order Wp freq ak₁ hmemory horder
      (fun i hi => (hget (2 * i) (by omega)).trans (hx i hi))
      (fun i hi => (hget (2 * i + 1) (by omega)).trans (hy i hi)) (by omega) _ hxin
    refine ⟨_, hrun, ?_, rfl, hmemory', ?_⟩
    · simp [coeff_one]
    · have hset := hak₁.set (by omega)
      rwa [Nat.zero_add] at hset
  have hstart : (1 : F) = (1 : F[X]).coeff 0 ∧ (1 : F) = 1 ∧
      Memory x y order 0 0 (List.replicate (order * 4 + 2) (0 : F)) ∧
      Filled 0 0 (lspOutput x y (order / 2)) ak ak :=
    ⟨by simp, rfl, memory_zero x y order, filled_zero 0 _ ak⟩
  obtain ⟨⟨ak', s⟩, hrun, -, -, -, hak'⟩ := foldlM_range'
    (s := (ak, (⟨List.replicate (order * 4 + 2) (0 : F), 1, 1⟩ : LspFilter F))) _ hstart hstep
  rw [Nat.zero_add] at hak'
  refine ⟨ak', ?_, hak'⟩
  rw [lspToLpc, filled_eq hmax, filled_eq (by omega)]
  simp only [Option.bind_eq_bind, Option.bind_some, List.range_eq_range']
  rw [hfreq]
  simp only [Option.bind_some]
  rw [hrun]
  rfl

/-! ## The inverse -/

theorem lspOutput_eq [CharZero F] {α : Nat → F} (hone : α 0 = 1) {m : Nat}
    (hx : Set.InjOn x (Finset.range m)) (hy : Set.InjOn y (Finset.range m))
    (hxzero : ∀ i < m, (poly 1 α (2 * m)).eval (x i) = 0)
    (hyzero : ∀ i < m, (poly (-1) α (2 * m)).eval (y i) = 0) {j : Nat} (hj : j ≤ 2 * m) :
    lspOutput x y m j = α j := by
  have hinfinite : Infinite F := Infinite.of_injective _ (Nat.cast_injective (R := F))
  have htwo : (2 : F) ≠ 0 := two_ne_zero
  have hcoeff : (∑ i ∈ Finset.range (2 * m + 1), C (α i) * X ^ i : F[X]).coeff j = α j := by
    rw [finsetSum_coeff, Finset.sum_eq_single j]
    · rw [coeff_C_mul_X_pow, if_pos rfl]
    · intro i _ hne
      rw [coeff_C_mul_X_pow, if_neg hne.symm]
    · intro hnot
      simp at hnot
      omega
  rw [lspOutput, reconstruct hone hx hy hxzero hyzero, coeff_C_mul, hcoeff]
  push_cast
  field_simp

/-- **From exact line spectral pairs back to the predictor.** The cosines of the even entries of
`lsp` are the zeros of the `P'` of `lpc_to_lsp` and those of the odd ones the zeros of its `Q'`. -/
theorem lsp_to_lpc_inverts [CharZero F] (math : FloatMath F) {a lsp ak P Q : List F} {order : Nat}
    (heven : order % 2 = 0) (horder : 2 ≤ order) (hmax : order ≤ LPC_ORD)
    (hone : a[0]? = some 1) (ha : order < a.length) (hlsp : order ≤ lsp.length)
    (hak : order < ak.length) (hpolys : lspPolys a order = some (P, Q))
    (hzero : ∀ i < order,
      chebPolyEva (if i % 2 ≠ 0 then Q else P) (math.cos (lsp.getD i 0)) order = some 0)
    (hdistinct : ∀ i < order, ∀ j < order, i % 2 = j % 2 →
      math.cos (lsp.getD i 0) = math.cos (lsp.getD j 0) → i = j) :
    ∃ ak', lspToLpc math lsp ak order = some ak' ∧ ak'.length = ak.length ∧
      ∀ j, ak'[j]? = if j ≤ order then a[j]? else ak[j]? := by
  obtain ⟨m, rfl⟩ : ∃ m, order = 2 * m := ⟨order / 2, by omega⟩
  have hm : 2 * m / 2 = m := by omega
  have hstarts := starts_getD ha
  obtain ⟨P', Q', hpolys', hP, hQ⟩ := lspPolys_eq hmax hstarts
  obtain ⟨rfl, rfl⟩ : P = P' ∧ Q = Q' := by
    rw [hpolys] at hpolys'
    simpa using hpolys'
  have hx (i : Nat) (hi : i < m) :
      (poly 1 (fun i => a.getD i 0) (2 * m)).eval (math.cos (lsp.getD (2 * i) 0)) = 0 := by
    have hpoint := hzero (2 * i) (by omega)
    rw [if_neg (by omega), chebPolyEva_eq horder hmax hP] at hpoint
    rw [eval_poly_eq]
    exact Option.some.inj hpoint
  have hy (i : Nat) (hi : i < m) :
      (poly (-1) (fun i => a.getD i 0) (2 * m)).eval (math.cos (lsp.getD (2 * i + 1) 0)) = 0 := by
    have hpoint := hzero (2 * i + 1) (by omega)
    rw [if_pos (by omega), chebPolyEva_eq horder hmax hQ] at hpoint
    rw [eval_poly_eq]
    exact Option.some.inj hpoint
  have hget (i : Nat) (hi : i < 2 * m) :
      (lsp[i]?).map math.cos = some (math.cos (lsp.getD i 0)) := by
    rw [List.getD_eq_getElem?_getD, List.getElem?_eq_getElem (by omega)]
    rfl
  obtain ⟨ak', hrun, hfilled⟩ := @lspToLpc_eq F _
    (fun i => math.cos (lsp.getD (2 * i) 0)) (fun i => math.cos (lsp.getD (2 * i + 1) 0)) (2 * m)
    math lsp ak horder hmax hak (fun i hi => hget (2 * i) (by omega))
    (fun i hi => hget (2 * i + 1) (by omega)) hlsp
  refine ⟨ak', hrun, hfilled.length, fun j => ?_⟩
  rw [hfilled.get]
  by_cases hj : j ≤ 2 * m
  · have hvalue := @lspOutput_eq F _ (fun i => math.cos (lsp.getD (2 * i) 0))
      (fun i => math.cos (lsp.getD (2 * i + 1) 0)) _ (fun i => a.getD i 0)
      (by rw [List.getD_eq_getElem?_getD, hone]; rfl) m
      (fun i hi k hk he => by
        simp only [Finset.coe_range, Set.mem_Iio] at hi hk
        have := hdistinct (2 * i) (by omega) (2 * k) (by omega) (by omega) he
        omega)
      (fun i hi k hk he => by
        simp only [Finset.coe_range, Set.mem_Iio] at hi hk
        have := hdistinct (2 * i + 1) (by omega) (2 * k + 1) (by omega) (by omega) he
        omega) hx hy j hj
    rw [if_pos (by omega), if_pos hj, hm, hvalue]
    exact (hstarts j (by omega)).symm
  · rw [if_neg (by omega), if_neg hj]

/-- The predictor of order four that predicts nothing: its pairs are at the multiples of 36
degrees. -/
theorem lsp_to_lpc_inverts_flat :
    let math : FloatMath ℝ := { pi := Real.pi, acos := Real.arccos, cos := Real.cos }
    let lsp : List ℝ := [Real.pi / 5, 2 * (Real.pi / 5), Real.pi - 2 * (Real.pi / 5),
      Real.pi - Real.pi / 5]
    ∃ ak', lspToLpc math lsp [0, 0, 0, 0, 0] 4 = some ak' ∧ ak'.length = 5 ∧
      ∀ j, ak'[j]? = if j ≤ 4 then ([1, 0, 0, 0, 0] : List ℝ)[j]? else
        ([0, 0, 0, 0, 0] : List ℝ)[j]? := by
  intro math lsp
  have hpolys : lspPolys ([1, 0, 0, 0, 0] : List ℝ) 4 =
      some ([2, -2, 1, 0, 0], [2, 2, 1, 0, 0]) := by
    simp [lspPolys, filled, store, LPC_ORD, lspPolyStep, doubleStep, List.range, List.range.loop,
      List.range'_succ]
  have hP (x : ℝ) : chebPolyEva [2, -2, 1, 0, 0] x 4 = some (4 * x ^ 2 - 2 * x - 1) := by
    simp [chebPolyEva, filled, store, LPC_ORD, chebStep, chebTerm, List.range, List.range.loop,
      List.range'_succ]
    ring
  have hQ (x : ℝ) : chebPolyEva [2, 2, 1, 0, 0] x 4 = some (4 * x ^ 2 + 2 * x - 1) := by
    simp [chebPolyEva, filled, store, LPC_ORD, chebStep, chebTerm, List.range, List.range.loop,
      List.range'_succ]
    ring
  obtain ⟨x, hx⟩ : ∃ x, Real.cos (Real.pi / 5) = x := ⟨_, rfl⟩
  have hlarge : 1 / 2 < x := by
    have hroot : (1 : ℝ) < √5 := Real.lt_sqrt_of_sq_lt (by norm_num)
    rw [← hx, Real.cos_pi_div_five]
    linarith
  have hroot : 4 * x ^ 2 - 2 * x - 1 = 0 := by
    rw [← hx]
    exact Real.quadratic_root_cos_pi_div_five
  -- the cosines of the four pairs
  have hcos0 : math.cos (lsp.getD 0 0) = x := hx
  have hcos1 : math.cos (lsp.getD 1 0) = x - 1 / 2 := by
    show Real.cos (2 * (Real.pi / 5)) = _
    rw [Real.cos_two_mul, hx]
    linarith
  have hcos2 : math.cos (lsp.getD 2 0) = 1 / 2 - x := by
    show Real.cos (Real.pi - 2 * (Real.pi / 5)) = _
    rw [Real.cos_pi_sub, ← neg_sub]
    exact congrArg Neg.neg hcos1
  have hcos3 : math.cos (lsp.getD 3 0) = -x := by
    show Real.cos (Real.pi - Real.pi / 5) = _
    rw [Real.cos_pi_sub, hx]
  refine lsp_to_lpc_inverts math (by decide) (by decide) (by decide) rfl (by simp) (by simp [lsp])
    (by simp) hpolys ?_ ?_
  · intro i hi
    obtain rfl | rfl | rfl | rfl : i = 0 ∨ i = 1 ∨ i = 2 ∨ i = 3 := by omega
    · rw [hcos0, if_neg (by decide), hP, hroot]
    · rw [hcos1, if_pos (by decide), hQ, Option.some.injEq]
      linear_combination hroot
    · rw [hcos2, if_neg (by decide), hP, Option.some.injEq]
      linear_combination hroot
    · rw [hcos3, if_pos (by decide), hQ, Option.some.injEq]
      linear_combination hroot
  · intro i hi j hj hparity hsame
    by_contra hne
    obtain ⟨rfl, rfl⟩ | ⟨rfl, rfl⟩ | ⟨rfl, rfl⟩ | ⟨rfl, rfl⟩ :
        i = 0 ∧ j = 2 ∨ i = 2 ∧ j = 0 ∨ i = 1 ∧ j = 3 ∨ i = 3 ∧ j = 1 := by omega
    · rw [hcos0, hcos2] at hsame
      linarith
    · rw [hcos0, hcos2] at hsame
      linarith
    · rw [hcos1, hcos3] at hsame
      linarith
    · rw [hcos1, hcos3] at hsame
      linarith

end Lxst.Codec2
