import Mathlib.Algebra.Order.Archimedean.Basic
import Mathlib.Analysis.SpecialFunctions.Trigonometric.Inverse
import Mathlib.Topology.Algebra.Polynomial
import Mathlib.Topology.Order.IntermediateValue
import RsLxst.Codec2.Proof.Lpc
import RsLxst.Lib.LineSpectrum

/-!
# From a predictor to line spectral pairs

`cheb_poly_eva` evaluates the polynomials that `lpc_to_lsp` makes of a predictor, and they are those
of the line spectral pairs (`lspPolys_eq`, `chebPolyEva_eq`). The search goes down from one in steps
of `delta` and bisects where the sign changes: what it returns are zeros up to `delta / 2^(nb + 1)`,
one after another, alternating between the two polynomials (`lpc_to_lsp_zeros`).
-/

set_option autoImplicit false

namespace Lxst.Codec2

open Polynomial LineSpectrum Fill

variable {F : Type} [Field F]

/-! ## The polynomials -/

/-- The values of the Chebyshev polynomials at `x`. -/
noncomputable def chebAt (x : F) (i : Nat) : F := (Chebyshev.T F i).eval x

/-- The sum of `cheb_poly_eva`. -/
noncomputable def chebSum (c : Nat → F) (m : Nat) (x : F) : F :=
  ∑ i ∈ Finset.range (m + 1), c (m - i) * chebAt x i

theorem eval_poly_eq (s : F) (a : Nat → F) (n : Nat) (x : F) :
    (poly s a n).eval x = chebSum (LineSpectrum.coef s a n) (n / 2) x := by
  rw [poly, eval_finsetSum, chebSum]
  simp only [eval_mul, eval_C, chebAt]

/-- The first entries of a buffer. -/
def Starts (n : Nat) (v : Nat → F) (l : List F) : Prop := ∀ i < n, l[i]? = some (v i)

omit [Field F] in
theorem Starts.set {n : Nat} {v : Nat → F} {l : List F} (h : Starts n v l) (hn : n < l.length) :
    Starts (n + 1) v (l.set n (v n)) := by
  intro i hi
  by_cases he : n = i
  · subst he
    exact List.getElem?_set_self hn
  · rw [List.getElem?_set_ne he]
    exact h i (by omega)

omit [Field F] in
theorem Starts.filled {b n : Nat} {v : Nat → F} {l l' : List F} (h : Starts b v l)
    (hf : Filled b n v l l') : Starts (b + n) v l' := by
  intro i hi
  rw [hf.get]
  by_cases hb : b ≤ i
  · rw [if_pos ⟨hb, hi⟩]
  · rw [if_neg (by omega)]
    exact h i (by omega)

theorem chebAt_add_two (x : F) (i : Nat) :
    chebAt x (2 + i) = (2 : Nat) * x * chebAt x (1 + i) - chebAt x i := by
  have hstep := Chebyshev.T_add_two F i
  unfold chebAt
  rw [Nat.add_comm 2 i, Nat.add_comm 1 i]
  push_cast
  rw [hstep]
  simp

theorem chebLoop_eq (x : F) {m : Nat} (hm : 1 ≤ m) :
    ∃ T, (List.range' 2 (m - 1)).foldlM (chebStep x)
        (((List.replicate (m + 1) (0 : F)).set 0 1).set 1 x) = some T ∧
      Starts (m + 1) (chebAt x) T := by
  have hstart : Starts 2 (chebAt x) (((List.replicate (m + 1) (0 : F)).set 0 1).set 1 x) := by
    intro i hi
    obtain rfl | rfl : i = 0 ∨ i = 1 := by omega
    · rw [List.getElem?_set_ne (by omega), List.getElem?_set_self (by simp)]
      simp [chebAt]
    · rw [List.getElem?_set_self (by simp; omega)]
      simp [chebAt]
  have hstep : ∀ i T, i < m - 1 →
      Filled 2 i (chebAt x) (((List.replicate (m + 1) (0 : F)).set 0 1).set 1 x) T →
      chebStep x T (2 + i) = some (T.set (2 + i) (chebAt x (2 + i))) := by
    intro i T hi hT
    have hfirst := hstart.filled hT
    rw [chebStep, show 2 + i - 1 = 1 + i by omega, show 2 + i - 2 = i by omega,
      hfirst (1 + i) (by omega), hfirst i (by omega)]
    simp only [Option.bind_eq_bind, Option.bind_some]
    rw [store_eq (by rw [hT.length]; simp; omega), chebAt_add_two]
  obtain ⟨T, hrun, hT⟩ := foldlM_filled (by simp; omega) hstep
  refine ⟨T, hrun, ?_⟩
  have hfirst := hstart.filled hT
  rwa [show 2 + (m - 1) = m + 1 by omega] at hfirst

theorem chebPolyEva_eq {coef : List F} {c : Nat → F} {order : Nat} (horder : 2 ≤ order)
    (hmax : order ≤ LPC_ORD) (hc : Starts (order / 2 + 1) c coef) (x : F) :
    chebPolyEva coef x order = some (chebSum c (order / 2) x) := by
  have hcap : order / 2 + 1 ≤ LPC_ORD / 2 + 1 := by omega
  obtain ⟨T, hrun, hT⟩ := @chebLoop_eq F _ x (order / 2) (by omega)
  have hterm : ∀ i sum, 0 ≤ i → i < 0 + (order / 2 + 1) →
      chebTerm coef T order sum i = some (sum + c (order / 2 - i) * chebAt x i) := by
    intro i sum _ hi
    rw [chebTerm, hc (order / 2 - i) (by omega), hT i (by omega)]
    rfl
  have hsum := foldlM_sum hterm 0
  rw [zero_add, zero_add, ← Finset.range_eq_Ico] at hsum
  rw [chebPolyEva, filled_eq hcap]
  simp only [Option.bind_eq_bind, Option.bind_some]
  rw [store_eq (by simp)]
  simp only [Option.bind_some]
  rw [store_eq (by simp; omega)]
  simp only [Option.bind_some]
  rw [hrun]
  simp only [Option.bind_some, List.range_eq_range']
  exact hsum

/-- Both polynomials, as the loops of `lpc_to_lsp` leave them. -/
structure Polys (order n : Nat) (p q : Nat → F) (polys : List F × List F) : Prop where
  lengthP : polys.1.length = order + 1
  lengthQ : polys.2.length = order + 1
  P : Starts n p polys.1
  Q : Starts n q polys.2

theorem lspPolyStep_eq {a : List F} {α : Nat → F} {order i : Nat} {polys : List F × List F}
    (ha : Starts (order + 1) α a) (hi : 1 ≤ i) (him : i < 1 + order / 2)
    (h : Polys order i (half 1 α order) (half (-1) α order) polys) :
    ∃ polys', lspPolyStep a order polys i = some polys' ∧
      Polys order (i + 1) (half 1 α order) (half (-1) α order) polys' := by
  obtain ⟨hlP, hlQ, hP, hQ⟩ := h
  obtain ⟨k, rfl⟩ : ∃ k, i = k + 1 := ⟨i - 1, by omega⟩
  refine ⟨(polys.1.set (k + 1) (half 1 α order (k + 1)),
    polys.2.set (k + 1) (half (-1) α order (k + 1))), ?_, by simp [hlP], by simp [hlQ],
      hP.set (by omega), hQ.set (by omega)⟩
  rw [lspPolyStep, ha (k + 1) (by omega), show order + 1 - (k + 1) = order - k by omega,
    ha (order - k) (by omega)]
  simp only [Option.bind_eq_bind, Option.bind_some, Nat.add_sub_cancel]
  rw [hP k (by omega), hQ k (by omega)]
  simp only [Option.bind_some]
  rw [store_eq (by omega)]
  simp only [Option.bind_some]
  rw [store_eq (by omega), half, half]
  simp only [one_mul, neg_one_mul, sub_neg_eq_add, ← sub_eq_add_neg]
  rfl

/-- Doubled up to `i`. -/
def doubledTo (i : Nat) (v : Nat → F) (j : Nat) : F :=
  if j < i then (2 : Nat) * v j else v j

theorem Starts.double {n i : Nat} {v : Nat → F} {l : List F} (h : Starts n (doubledTo i v) l)
    (hi : i < l.length) : Starts n (doubledTo (i + 1) v) (l.set i ((2 : Nat) * v i)) := by
  intro j hj
  by_cases he : i = j
  · subst he
    rw [List.getElem?_set_self hi, doubledTo, if_pos (by omega)]
  · have hiff : j < i + 1 ↔ j < i := by omega
    rw [List.getElem?_set_ne he, h j hj, doubledTo, doubledTo]
    simp only [hiff]

theorem doubleStep_eq {order n i : Nat} {p q : Nat → F} {polys : List F × List F} (hin : i < n)
    (hn : n ≤ order + 1) (h : Polys order n (doubledTo i p) (doubledTo i q) polys) :
    ∃ polys', doubleStep polys i = some polys' ∧
      Polys order n (doubledTo (i + 1) p) (doubledTo (i + 1) q) polys' := by
  obtain ⟨hlP, hlQ, hP, hQ⟩ := h
  refine ⟨(polys.1.set i ((2 : Nat) * p i), polys.2.set i ((2 : Nat) * q i)), ?_, by simp [hlP],
    by simp [hlQ], hP.double (by omega), hQ.double (by omega)⟩
  rw [doubleStep, hP i hin, hQ i hin]
  simp only [Option.bind_eq_bind, Option.bind_some, doubledTo, Nat.lt_irrefl, if_false]
  rw [store_eq (by omega)]
  simp only [Option.bind_some]
  rw [store_eq (by omega)]
  rfl

theorem lspPolys_eq {a : List F} {α : Nat → F} {order : Nat} (hmax : order ≤ LPC_ORD)
    (ha : Starts (order + 1) α a) :
    ∃ P Q, lspPolys a order = some (P, Q) ∧
      Starts (order / 2 + 1) (LineSpectrum.coef 1 α order) P ∧
      Starts (order / 2 + 1) (LineSpectrum.coef (-1) α order) Q := by
  have hone (s : F) : Starts 1 (half s α order) ((List.replicate (order + 1) 0).set 0 1) := by
    intro i hi
    obtain rfl : i = 0 := by omega
    rw [List.getElem?_set_self (by simp), half]
  have hstart : Polys order 1 (half 1 α order) (half (-1) α order)
      ((List.replicate (order + 1) 0).set 0 1, (List.replicate (order + 1) 0).set 0 1) :=
    ⟨by simp, by simp, hone 1, hone (-1)⟩
  obtain ⟨polys, hrun, hpolys⟩ := foldlM_range' (n := order / 2)
    (fun i polys => Polys order i (half 1 α order) (half (-1) α order) polys) hstart
    fun i polys hi him h => lspPolyStep_eq ha hi him h
  have hnone (v : Nat → F) : doubledTo 0 v = v := by
    funext j
    simp [doubledTo]
  have hstart' : Polys order (1 + order / 2) (doubledTo 0 (half 1 α order))
      (doubledTo 0 (half (-1) α order)) polys := by
    rwa [hnone, hnone]
  obtain ⟨polys', hrun', hpolys'⟩ := foldlM_range' (n := order / 2)
    (fun i polys => Polys order (1 + order / 2) (doubledTo i (half 1 α order))
      (doubledTo i (half (-1) α order)) polys) hstart'
    fun i polys _ him h => doubleStep_eq (by omega) (by omega) h
  rw [Nat.zero_add] at hpolys'
  refine ⟨polys'.1, polys'.2, ?_, ?_, ?_⟩
  · rw [lspPolys, filled_eq (by omega)]
    simp only [Option.bind_eq_bind, Option.bind_some]
    rw [store_eq (by simp)]
    simp only [Option.bind_some]
    rw [hrun]
    simp only [Option.bind_some, List.range_eq_range']
    exact hrun'
  · rw [Nat.add_comm]
    exact hpolys'.P
  · rw [Nat.add_comm]
    exact hpolys'.Q

/-! ## Bisection -/

section
variable [LinearOrder F] [IsStrictOrderedRing F] {f : F → F}

/-- `x` is an end of an interval of that width, and `f` changes its sign there. -/
def Bracket (f : F → F) (width x : F) : Prop :=
  ∃ xl xr, xl - xr = width ∧ f xl * f xr ≤ 0 ∧ (x = xl ∨ x = xr)

theorem sign_change {u v w : F} (huv : u * v ≤ 0) (hwu : w * u > 0) : w * v ≤ 0 := by
  by_contra hwv
  push Not at hwv
  have hsquare : 0 < u * u := by
    have hu : u ≠ 0 := fun hu => by simp [hu] at hwu
    exact mul_self_pos.mpr hu
  nlinarith only [mul_pos hwu hwv, huv, mul_self_nonneg w]

theorem bisect_eq (k : Nat) (xm : F) {xl xr : F} (hlt : xr < xl) (hsign : f xl * f xr ≤ 0) :
    ∃ xm' xr', bisect (fun x => some (f x)) (k + 1) xm (f xl) xl xr = some (xm', xr') ∧
      xr < xm' ∧ xm' < xl ∧ xr' ≤ xm' ∧ Bracket f ((xl - xr) / 2 ^ (k + 1)) xm' := by
  induction k generalizing xm xl xr with
  | zero =>
    have hmid : xl - (xl + xr) / 2 = (xl - xr) / 2 ^ (0 + 1) := by ring
    have hmid' : (xl + xr) / 2 - xr = (xl - xr) / 2 ^ (0 + 1) := by ring
    rw [bisect]
    push_cast
    simp only [Option.bind_eq_bind, Option.bind_some]
    split
    · rename_i hup
      exact ⟨_, _, rfl, by linarith, by linarith, by linarith,
        _, _, hmid', sign_change hsign hup, .inl rfl⟩
    · rename_i hup
      push Not at hup
      refine ⟨_, _, rfl, by linarith, by linarith, le_rfl, _, _, hmid, ?_, .inr rfl⟩
      rw [mul_comm]
      exact hup
  | succ k ih =>
    rw [bisect]
    push_cast
    simp only [Option.bind_eq_bind, Option.bind_some]
    split
    · rename_i hup
      obtain ⟨xm', xr', hrun, hlow, hhigh, hend, hbracket⟩ :=
        @ih ((xl + xr) / 2) ((xl + xr) / 2) xr (by linarith) (sign_change hsign hup)
      have hwidth : ((xl + xr) / 2 - xr) / 2 ^ (k + 1) = (xl - xr) / 2 ^ (k + 1 + 1) := by
        rw [pow_succ 2 (k + 1), show (xl + xr) / 2 - xr = (xl - xr) / 2 by ring, div_div,
          mul_comm (2 : F)]
      rw [hwidth] at hbracket
      exact ⟨xm', xr', hrun, hlow, by linarith, hend, hbracket⟩
    · rename_i hup
      push Not at hup
      rw [mul_comm] at hup
      obtain ⟨xm', xr', hrun, hlow, hhigh, hend, hbracket⟩ :=
        @ih ((xl + xr) / 2) xl ((xl + xr) / 2) (by linarith) hup
      have hwidth : (xl - (xl + xr) / 2) / 2 ^ (k + 1) = (xl - xr) / 2 ^ (k + 1 + 1) := by
        rw [pow_succ 2 (k + 1), show xl - (xl + xr) / 2 = (xl - xr) / 2 by ring, div_div,
          mul_comm (2 : F)]
      rw [hwidth] at hbracket
      exact ⟨xm', xr', hrun, by linarith, hhigh, hend, hbracket⟩

/-! ## The search -/

/-- What a search from `top` down returns: no zero, and it has passed -1; or a zero. -/
inductive Searched (f : F → F) (nb : Nat) (delta top : F) : Option F × F × F → Prop
  | none {xl xr : F} (hle : xr ≤ xl) (hxl : xl ≤ top) (hxr : xr < -1) :
      Searched f nb delta top (none, xl, xr)
  | zero {xm xr : F} (hle : xr ≤ xm) (hlt : xm < top) (hgt : -1 - delta < xm)
      (hbracket : Bracket f (delta / 2 ^ (nb + 1)) xm) :
      Searched f nb delta top (some xm, xm, xr)

omit [IsStrictOrderedRing F] in
theorem Searched.mono {nb : Nat} {delta top top' : F} {result : Option F × F × F}
    (h : Searched f nb delta top result) (htop : top ≤ top') : Searched f nb delta top' result := by
  cases h with
  | none hle hxl hxr => exact .none hle (hxl.trans htop) hxr
  | zero hle hlt hgt hbracket => exact .zero hle (hlt.trans_le htop) hgt hbracket

/-- One turn of the search: it ends, or goes on one interval lower. -/
theorem searchZero_turn (nb : Nat) {delta : F} (hdelta : 0 < delta) (fuel : Nat) {xl xr : F}
    (hle : xr ≤ xl) :
    (∃ result, searchZero (fun x => some (f x)) nb delta (fuel + 1) (f xl) xl xr = some result ∧
      Searched f nb delta xl result) ∨
    searchZero (fun x => some (f x)) nb delta (fuel + 1) (f xl) xl xr =
      searchZero (fun x => some (f x)) nb delta fuel (f (xl - delta)) (xl - delta) (xl - delta) := by
  rw [searchZero]
  by_cases hxr : xr ≥ -1
  · rw [if_pos hxr]
    simp only [Option.bind_eq_bind, Option.bind_some]
    by_cases hfound : f (xl - delta) * f xl < 0 ∨ f (xl - delta) = 0
    · left
      have hsign : f xl * f (xl - delta) ≤ 0 := by
        obtain hneg | hzero := hfound
        · rw [mul_comm]
          exact hneg.le
        · rw [hzero, mul_zero]
      obtain ⟨xm, xr', hrun, hgt, hlt, hend, hbracket⟩ := bisect_eq nb 0 (by linarith) hsign
      rw [sub_sub_cancel] at hbracket
      rw [if_pos hfound, hrun]
      exact ⟨_, rfl, .zero hend hlt (by linarith) hbracket⟩
    · right
      rw [if_neg hfound]
  · left
    rw [if_neg hxr]
    exact ⟨_, rfl, .none hle le_rfl (not_le.mp hxr)⟩

/-- The search ends after as many turns as there are intervals. -/
theorem searchZero_eq (nb : Nat) {delta : F} (hdelta : 0 < delta) (n : Nat) {xl xr : F}
    (hle : xr ≤ xl) (hfuel : xl + 1 < (n + 1) * delta) :
    ∃ result, searchZero (fun x => some (f x)) nb delta (n + 2) (f xl) xl xr = some result ∧
      Searched f nb delta xl result := by
  induction n generalizing xl xr with
  | zero =>
    obtain hend | hturn := searchZero_turn nb hdelta 1 hle
    · exact hend
    · have hlow : ¬ xl - delta ≥ -1 := by
        simp only [Nat.cast_zero, zero_add, one_mul] at hfuel
        linarith
      rw [hturn, searchZero, if_neg hlow]
      exact ⟨_, rfl, .none le_rfl (by linarith) (not_le.mp hlow)⟩
  | succ n ih =>
    obtain hend | hturn := searchZero_turn nb hdelta (n + 2) hle
    · exact hend
    · have hless : xl - delta + 1 < (n + 1) * delta := by
        push_cast at hfuel
        linarith
      obtain ⟨result, hrun, hsearched⟩ := ih le_rfl hless
      rw [hturn]
      exact ⟨result, hrun, hsearched.mono (by linarith)⟩

/-! ## The loop over the zeros -/

/-- The polynomial that the zero `j` is a zero of. -/
noncomputable def lspValue (α : Nat → F) (order j : Nat) (x : F) : F :=
  chebSum (LineSpectrum.coef (if j % 2 ≠ 0 then -1 else 1) α order) (order / 2) x

/-- After `j` searches: `x` are the zeros found. -/
structure Progress (α : Nat → F) (order nb : Nat) (delta : F) (freq : List F) (j : Nat) (x : Nat → F)
    (s : LspSearch F) : Prop where
  roots : s.roots ≤ j
  ended : s.roots < j → s.xr < -1
  top : s.xl ≤ 1
  le : s.xr ≤ s.xl
  length : s.freq.length = freq.length
  found : Starts s.roots x s.freq
  bounds : ∀ i < s.roots, s.xl ≤ x i ∧ x i < 1 ∧ -1 - delta < x i
  bracket : ∀ i < s.roots, Bracket (lspValue α order i) (delta / 2 ^ (nb + 1)) (x i)
  descends : ∀ i, i + 1 < s.roots → x (i + 1) < x i
  rest : ∀ i, s.roots ≤ i → s.freq[i]? = freq[i]?

variable {α : Nat → F} {order nb : Nat} {delta : F} {freq : List F}

omit [IsStrictOrderedRing F] in
theorem Progress.none {j : Nat} {x : Nat → F} {s : LspSearch F}
    (h : Progress α order nb delta freq j x s) {xl xr : F} (hle : xr ≤ xl) (hxl : xl ≤ s.xl)
    (hxr : xr < -1) : Progress α order nb delta freq (j + 1) x { s with xl, xr } where
  roots := h.roots.trans (Nat.le_succ j)
  ended _ := hxr
  top := hxl.trans h.top
  le := hle
  length := h.length
  found := h.found
  bounds i hi := ⟨hxl.trans (h.bounds i hi).1, (h.bounds i hi).2⟩
  bracket := h.bracket
  descends := h.descends
  rest := h.rest

omit [IsStrictOrderedRing F] in
theorem Progress.zero {j : Nat} {x : Nat → F} {s : LspSearch F}
    (h : Progress α order nb delta freq j x s) (hj : s.roots = j) (hfreq : j < freq.length)
    {xm xr : F} (hle : xr ≤ xm) (hlt : xm < s.xl) (hgt : -1 - delta < xm)
    (hbracket : Bracket (lspValue α order j) (delta / 2 ^ (nb + 1)) xm) :
    Progress α order nb delta freq (j + 1) (fun i => if i = j then xm else x i)
      { roots := s.roots + 1, freq := s.freq.set j xm, xl := xm, xr } := by
  have hlength := h.length
  have hold (i : Nat) (hi : i < j) : (if i = j then xm else x i) = x i := if_neg (by omega)
  refine ⟨by dsimp only; omega, fun he => ?_, hlt.le.trans h.top, hle, by simp [h.length], ?_,
    fun i hi => ?_, fun i hi => ?_, fun i hi => ?_, fun i hi => ?_⟩
  · dsimp only at he
    omega
  · have hbefore : Starts j (fun i => if i = j then xm else x i) s.freq := by
      intro i hi
      dsimp only
      rw [hold i hi]
      exact h.found i (by omega)
    have hset := hbefore.set (by omega)
    rw [if_pos rfl] at hset
    dsimp only
    rw [hj]
    exact hset
  · dsimp only at hi ⊢
    by_cases he : i = j
    · rw [if_pos he]
      exact ⟨le_rfl, hlt.trans_le h.top, hgt⟩
    · rw [if_neg he]
      obtain ⟨hxl, hrest⟩ := h.bounds i (by omega)
      exact ⟨hlt.le.trans hxl, hrest⟩
  · dsimp only at hi ⊢
    by_cases he : i = j
    · rw [if_pos he, he]
      exact hbracket
    · rw [if_neg he]
      exact h.bracket i (by omega)
  · dsimp only at hi ⊢
    rw [hold i (by omega)]
    by_cases he : i + 1 = j
    · rw [if_pos he]
      exact hlt.trans_le (h.bounds i (by omega)).1
    · rw [if_neg he]
      exact h.descends i (by omega)
  · dsimp only at hi ⊢
    rw [List.getElem?_set_ne (by omega)]
    exact h.rest i (by omega)

theorem lspStep_eq (horder : 2 ≤ order) (hmax : order ≤ LPC_ORD) {P Q : List F}
    (hP : Starts (order / 2 + 1) (LineSpectrum.coef 1 α order) P)
    (hQ : Starts (order / 2 + 1) (LineSpectrum.coef (-1) α order) Q) (hdelta : 0 < delta) {n : Nat}
    (hfuel : 2 < (n + 1) * delta) {j : Nat} (hj : j < freq.length) {x : Nat → F} {s : LspSearch F}
    (h : Progress α order nb delta freq j x s) :
    ∃ s', lspStep P Q order nb delta (n + 2) s j = some s' ∧
      ∃ x', Progress α order nb delta freq (j + 1) x' s' := by
  have heval : (chebPolyEva (if j % 2 ≠ 0 then Q else P) · order) =
      fun x => some (lspValue α order j x) := by
    funext x
    unfold lspValue
    split
    · exact chebPolyEva_eq horder hmax hQ x
    · exact chebPolyEva_eq horder hmax hP x
  have hpoint := congrFun heval s.xl
  rw [lspStep]
  dsimp only
  rw [hpoint, heval]
  simp only [Option.bind_eq_bind, Option.bind_some]
  by_cases hended : s.xr < -1
  · rw [searchZero, if_neg (not_le.mpr hended)]
    exact ⟨_, rfl, x, h.none h.le le_rfl hended⟩
  · have hroots : s.roots = j := by
      by_contra hne
      exact hended (h.ended (by have := h.roots; omega))
    obtain ⟨result, hrun, hsearched⟩ :=
      @searchZero_eq F _ _ _ (lspValue α order j) nb delta hdelta n s.xl s.xr h.le
        (by linarith [h.top])
    rw [hrun]
    cases hsearched with
    | none hle hxl hxr => exact ⟨_, rfl, x, h.none hle hxl hxr⟩
    | zero hle hlt hgt hbracket =>
      simp only [Option.bind_some]
      rw [store_eq (by rw [h.length]; exact hj)]
      exact ⟨_, rfl, _, h.zero hroots hj hle hlt hgt hbracket⟩

theorem lpcToLsp_eq [Archimedean F] (math : FloatMath F) (horder : 2 ≤ order)
    (hmax : order ≤ LPC_ORD) {a : List F} (ha : Starts (order + 1) α a)
    (hfreq : order ≤ freq.length) (nb : Nat) (hdelta : 0 < delta) :
    ∃ fuel₀, ∀ fuel ≥ fuel₀, ∃ s x freq', lpcToLsp math fuel a order freq nb delta =
        some (s.roots, freq') ∧
      Progress α order nb delta freq order x s ∧
      Filled 0 order (fun i => math.acos (s.freq.getD i 0)) s.freq freq' := by
  obtain ⟨n₀, hn₀⟩ := exists_nat_gt (2 / delta)
  refine ⟨n₀ + 2, fun fuel hfuel => ?_⟩
  obtain ⟨n, rfl⟩ : ∃ n, fuel = n + 2 := ⟨fuel - 2, by omega⟩
  have hlong : 2 < (n + 1) * delta := by
    have hn : (n₀ : F) ≤ n := by exact_mod_cast (by omega : n₀ ≤ n)
    rw [div_lt_iff₀ hdelta] at hn₀
    nlinarith only [hn₀, hn, hdelta]
  obtain ⟨P, Q, hpolys, hP, hQ⟩ := lspPolys_eq hmax ha
  have hstart : ∃ x, Progress α order nb delta freq 0 x { roots := 0, freq, xl := 1, xr := 0 } :=
    ⟨fun _ => 0, Nat.le_refl 0, nofun, le_rfl, zero_le_one, rfl, nofun, nofun, nofun, nofun,
      fun i _ => rfl⟩
  obtain ⟨s, hrun, x, hprogress⟩ := foldlM_range' (n := order)
    (fun j s => ∃ x, Progress α order nb delta freq j x s) hstart
    fun j s _ hj ⟨x, h⟩ => lspStep_eq horder hmax hP hQ hdelta hlong (by omega) h
  rw [Nat.zero_add] at hprogress
  have hacos : ∀ i l, i < order →
      Filled 0 i (fun i => math.acos (s.freq.getD i 0)) s.freq l →
      copyAt math.acos l l (0 + i) = some (l.set (0 + i) (math.acos (s.freq.getD (0 + i) 0))) := by
    intro i l hi hl
    have hlength := hl.length
    have hprogressed := hprogress.length
    rw [copyAt, Nat.zero_add, hl.get_out (by omega), List.getD_eq_getElem?_getD,
      List.getElem?_eq_getElem (by omega)]
    exact store_eq (by omega) _
  have hroom : 0 + order ≤ s.freq.length := by
    rw [hprogress.length]
    omega
  obtain ⟨freq', hrun', hfilled⟩ :=
    @foldlM_filled F 0 order _ _ (fun freq => copyAt math.acos freq freq) hroom hacos
  refine ⟨s, x, freq', ?_, hprogress, hfilled⟩
  rw [lpcToLsp, hpolys]
  simp only [Option.bind_eq_bind, Option.bind_some, List.range_eq_range']
  rw [hrun]
  simp only [Option.bind_some]
  rw [hrun']
  rfl

end

/-! ## Over the reals -/

theorem exists_zero_of_bracket {f : ℝ → ℝ} (hf : Continuous f) {width x : ℝ}
    (h : Bracket f width x) (hwidth : 0 ≤ width) : ∃ t, f t = 0 ∧ |x - t| ≤ width := by
  obtain ⟨xl, xr, hlength, hsign, hx⟩ := h
  have hmem : (0 : ℝ) ∈ Set.uIcc (f xr) (f xl) := by
    rw [Set.mem_uIcc]
    obtain ⟨hl, hr⟩ | ⟨hl, hr⟩ := mul_nonpos_iff.mp hsign
    · exact .inl ⟨hr, hl⟩
    · exact .inr ⟨hl, hr⟩
  obtain ⟨t, ht, hzero⟩ := intermediate_value_uIcc hf.continuousOn hmem
  rw [Set.uIcc_of_le (by linarith), Set.mem_Icc] at ht
  refine ⟨t, hzero, ?_⟩
  rw [abs_le]
  obtain rfl | rfl := hx
  · exact ⟨by linarith, by linarith⟩
  · exact ⟨by linarith, by linarith⟩

theorem continuous_lspValue (α : Nat → ℝ) (order j : Nat) : Continuous (lspValue α order j) := by
  have heq : lspValue α order j =
      fun x => (poly (if j % 2 ≠ 0 then -1 else 1) α order).eval x := by
    funext x
    rw [eval_poly_eq]
    rfl
  rw [heq]
  exact Polynomial.continuous _

theorem starts_getD {F : Type} [Zero F] {n : Nat} {l : List F} (h : n < l.length) :
    Starts (n + 1) (fun i => l.getD i 0) l := by
  intro i hi
  dsimp only
  rw [List.getD_eq_getElem?_getD, List.getElem?_eq_getElem (by omega)]
  rfl

/-- **The search for line spectral pairs.** `lpc_to_lsp` ends; the angles it returns are those of
points that descend from one, and each point is a zero, of `P'` and `Q'` in turn, up to
`delta / 2^(nb + 1)`. -/
theorem lpc_to_lsp_zeros (math : FloatMath ℝ) {a freq : List ℝ} {order : Nat} (horder : 2 ≤ order)
    (hmax : order ≤ LPC_ORD) (ha : order < a.length) (hfreq : order ≤ freq.length) (nb : Nat)
    {delta : ℝ} (hdelta : 0 < delta) :
    ∃ P Q fuel₀, lspPolys a order = some (P, Q) ∧ ∀ fuel ≥ fuel₀, ∃ roots freq', ∃ x : Nat → ℝ,
      lpcToLsp math fuel a order freq nb delta = some (roots, freq') ∧ roots ≤ order ∧
      ∀ i < roots, freq'[i]? = some (math.acos (x i)) ∧ -1 - delta < x i ∧ x i < 1 ∧
        (i + 1 < roots → x (i + 1) < x i) ∧
        ∃ t, chebPolyEva (if i % 2 ≠ 0 then Q else P) t order = some 0 ∧
          |x i - t| ≤ delta / 2 ^ (nb + 1) := by
  have hstarts := starts_getD ha
  obtain ⟨P, Q, hpolys, hP, hQ⟩ := lspPolys_eq hmax hstarts
  obtain ⟨fuel₀, hrun⟩ := lpcToLsp_eq math horder hmax hstarts hfreq nb hdelta
  refine ⟨P, Q, fuel₀, hpolys, fun fuel hfuel => ?_⟩
  obtain ⟨s, x, freq', hresult, hprogress, hfilled⟩ := hrun fuel hfuel
  refine ⟨s.roots, freq', x, hresult, hprogress.roots, fun i hi => ?_⟩
  have hroots := hprogress.roots
  obtain ⟨-, hlt, hgt⟩ := hprogress.bounds i hi
  obtain ⟨t, hzero, hclose⟩ := exists_zero_of_bracket
    (continuous_lspValue (fun i => a.getD i 0) order i) (hprogress.bracket i hi) (by positivity)
  refine ⟨?_, hgt, hlt, hprogress.descends i, t, ?_, hclose⟩
  · rw [hfilled.get_in (by omega) (by omega), List.getD_eq_getElem?_getD, hprogress.found i hi]
    rfl
  · rw [← hzero]
    unfold lspValue
    split
    · exact chebPolyEva_eq horder hmax hQ t
    · exact chebPolyEva_eq horder hmax hP t

/-- A predictor of order two that predicts nothing. -/
theorem lpc_to_lsp_zeros_flat :
    let math : FloatMath ℝ := { pi := Real.pi, acos := Real.arccos, cos := Real.cos }
    let a : List ℝ := [1, 0, 0]
    let freq : List ℝ := [0, 0]
    ∃ P Q fuel₀, lspPolys a 2 = some (P, Q) ∧ ∀ fuel ≥ fuel₀, ∃ roots freq', ∃ x : Nat → ℝ,
      lpcToLsp math fuel a 2 freq 5 LSP_DELTA1 = some (roots, freq') ∧ roots ≤ 2 ∧
      ∀ i < roots, freq'[i]? = some (math.acos (x i)) ∧ -1 - LSP_DELTA1 < x i ∧ x i < 1 ∧
        (i + 1 < roots → x (i + 1) < x i) ∧
        ∃ t, chebPolyEva (if i % 2 ≠ 0 then Q else P) t 2 = some 0 ∧
          |x i - t| ≤ LSP_DELTA1 / 2 ^ (5 + 1) :=
  lpc_to_lsp_zeros _ (by decide) (by decide) (by simp) (by simp) 5 (by simp [LSP_DELTA1])

end Lxst.Codec2
