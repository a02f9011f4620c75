import Mathlib.Algebra.BigOperators.Group.Finset.Basic
import Mathlib.Data.List.GetD
import RsLxst.Codec2.Lsp
import RsLxst.Codec2.Proof.Lpc

/-!
# Scalar codebooks

The codebooks of both modes are scalar, with a power of two of entries (`Scalar`), so a decoder
finds every index of their width (`decodeLspsScalar_eq`, `decodeLspdsScalar_eq`) and an encoder
chooses the index of a nearest entry (`encodeLspsScalar_eq`, `encodeLspdsScalar_eq`).
-/

set_option autoImplicit false

namespace Lxst.Codec2

open Fill

def codebookAt (codebooks : List LspCodebook) (i : Nat) : LspCodebook :=
  codebooks.getD i { k := 0, log2m := 0, m := 0, cb := [] }

/-- The codebooks of a frame hold one dimension. -/
structure Scalar (codebooks : List LspCodebook) : Prop where
  length : LPC_ORD ≤ codebooks.length
  k : ∀ i < LPC_ORD, (codebookAt codebooks i).k = 1
  size : ∀ i < LPC_ORD, (codebookAt codebooks i).cb.length = 2 ^ (codebookAt codebooks i).log2m

theorem scalar_lspCb : Scalar lspCb := ⟨by decide, by decide, by decide⟩

theorem scalar_lspCbd : Scalar lspCbd := ⟨by decide, by decide, by decide⟩

/-- An index for each codebook of a frame. -/
structure Indexes (codebooks : List LspCodebook) (indexes : List Nat) : Prop where
  length : LPC_ORD ≤ indexes.length
  lt : ∀ i < LPC_ORD, indexes.getD i 0 < (codebookAt codebooks i).cb.length

/-- The entry that an index stands for. -/
def codeAt (codebooks : List LspCodebook) (indexes : List Nat) (i : Nat) : Nat :=
  (codebookAt codebooks i).cb.getD (indexes.getD i 0) 0

section
variable {codebooks : List LspCodebook} {i : Nat} {indexes : List Nat}

theorem Scalar.getElem? (h : Scalar codebooks) (hi : i < LPC_ORD) :
    codebooks[i]? = some (codebookAt codebooks i) := by
  have hlength := h.length
  rw [codebookAt, List.getD_eq_getElem _ _ (by omega), List.getElem?_eq_getElem]

theorem Indexes.getElem? (h : Indexes codebooks indexes) (hi : i < LPC_ORD) :
    indexes[i]? = some (indexes.getD i 0) := by
  have hlength := h.length
  rw [List.getD_eq_getElem _ _ (by omega), List.getElem?_eq_getElem]

theorem Indexes.code (h : Indexes codebooks indexes) (hs : Scalar codebooks) (hi : i < LPC_ORD) :
    (codebookAt codebooks i).cb[indexes.getD i 0 * (codebookAt codebooks i).k]? =
      some (codeAt codebooks indexes i) := by
  rw [hs.k i hi, Nat.mul_one, codeAt, List.getElem?_eq_getElem (h.lt i hi),
    List.getD_eq_getElem _ _ (h.lt i hi)]

theorem Indexes.code_mem (h : Indexes codebooks indexes) (hi : i < LPC_ORD) :
    codeAt codebooks indexes i ∈ (codebookAt codebooks i).cb := by
  rw [codeAt, List.getD_eq_getElem _ _ (h.lt i hi)]
  exact List.getElem_mem _

end

variable {F : Type} [Field F] (math : FloatMath F) {indexes : List Nat} {lsp : List F}

/-! ## Decoding -/

theorem decodeLspsScalar_eq (h : Indexes lspCb indexes) (hlsp : LPC_ORD ≤ lsp.length) :
    ∃ lsp', decodeLspsScalar math lsp indexes LPC_ORD = some lsp' ∧
      Filled 0 LPC_ORD (fun i => math.pi / (4000 : Nat) * codeAt lspCb indexes i) lsp lsp' := by
  have hcode : ∀ i l, i < LPC_ORD → Filled 0 i (fun i => (codeAt lspCb indexes i : F))
      (List.replicate LPC_ORD 0) l →
      decodeLspStep indexes l (0 + i) = some (l.set (0 + i) (codeAt lspCb indexes (0 + i) : F)) := by
    intro i l hi hl
    rw [Nat.zero_add, decodeLspStep, scalar_lspCb.getElem? hi, h.getElem? hi]
    simp only [Option.bind_eq_bind, Option.bind_some]
    rw [h.code scalar_lspCb hi]
    exact store_eq (by rw [hl.length]; simpa using hi) _
  obtain ⟨lspHz, hrun, hhz⟩ := foldlM_filled (by simp) hcode
  have hradians : ∀ i l, i < LPC_ORD →
      Filled 0 i (fun i => math.pi / (4000 : Nat) * codeAt lspCb indexes i) lsp l →
      copyAt (fun hz => math.pi / (4000 : Nat) * hz) lspHz l (0 + i) =
        some (l.set (0 + i) (math.pi / (4000 : Nat) * codeAt lspCb indexes (0 + i))) := by
    intro i l hi hl
    rw [Nat.zero_add, copyAt, hhz.get_in (by omega) (by omega)]
    exact store_eq (by rw [hl.length]; omega) _
  obtain ⟨lsp', hrun', hlsp'⟩ := foldlM_filled (by omega) hradians
  refine ⟨lsp', ?_, hlsp'⟩
  rw [decodeLspsScalar, filled_eq (Nat.le_refl _)]
  simp only [Option.bind_eq_bind, Option.bind_some, List.range_eq_range']
  rw [hrun]
  exact hrun'

/-- The frequency of the entry `i`: the differences up to it. -/
def differenceSum (indexes : List Nat) (i : Nat) : Nat :=
  ∑ j ∈ Finset.range (i + 1), codeAt lspCbd indexes j

/-- The buffers before the step `i`. -/
structure Differences (indexes : List Nat) (lsp : List F) (i : Nat) (s : LspdDecoder F) : Prop where
  dlsp_ : s.dlsp_.length = LPC_ORD
  lspHz_ : Filled 0 i (fun i => (differenceSum indexes i : F)) (List.replicate LPC_ORD 0) s.lspHz_
  lsp_ : Filled 0 i (fun i => math.pi / (4000 : Nat) * differenceSum indexes i) lsp s.lsp_

theorem decodeLspdStep_eq (h : Indexes lspCbd indexes) (hlsp : LPC_ORD ≤ lsp.length) {i : Nat}
    (hi : i < LPC_ORD) {s : LspdDecoder F} (hs : Differences math indexes lsp i s) :
    ∃ s', decodeLspdStep math indexes s i = some s' ∧ Differences math indexes lsp (i + 1) s' := by
  have hlength := hs.lspHz_.length
  have hlength' := hs.lsp_.length
  have hd := hs.dlsp_
  rw [List.length_replicate] at hlength
  have hHz := hs.lspHz_.set (by simpa using hi)
  have hLsp := hs.lsp_.set (by omega)
  rw [Nat.zero_add] at hHz hLsp
  have hbefore : hzBefore s.lspHz_ i =
      some (if i ≠ 0 then (differenceSum indexes (i - 1) : F) else 0) := by
    unfold hzBefore
    split
    · exact hs.lspHz_.get_in (by omega) (by omega)
    · rfl
  have hsum : (if i ≠ 0 then
        (if i ≠ 0 then (differenceSum indexes (i - 1) : F) else 0) + codeAt lspCbd indexes i
      else (codeAt lspCbd indexes i : F)) = differenceSum indexes i := by
    cases i with
    | zero => simp [differenceSum]
    | succ i => simp [differenceSum, Finset.sum_range_succ]
  refine ⟨⟨s.dlsp_.set i (codeAt lspCbd indexes i), _, _⟩, ?_, by simpa using hd, hHz, hLsp⟩
  rw [decodeLspdStep, scalar_lspCbd.getElem? hi, h.getElem? hi]
  simp only [Option.bind_eq_bind, Option.bind_some]
  rw [h.code scalar_lspCbd hi]
  simp only [Option.bind_some]
  rw [store_eq (by omega), hbefore]
  simp only [Option.bind_some]
  rw [hsum, store_eq (by omega)]
  simp only [Option.bind_some]
  rw [store_eq (by omega)]
  rfl

theorem decodeLspdsScalar_eq (h : Indexes lspCbd indexes) (hlsp : LPC_ORD ≤ lsp.length) :
    ∃ lsp', decodeLspdsScalar math lsp indexes LPC_ORD = some lsp' ∧
      Filled 0 LPC_ORD (fun i => math.pi / (4000 : Nat) * differenceSum indexes i) lsp lsp' := by
  have hstart : Differences math indexes lsp 0
      { dlsp_ := List.replicate LPC_ORD 0, lspHz_ := List.replicate LPC_ORD 0, lsp_ := lsp } :=
    ⟨by simp, filled_zero 0 _ _, filled_zero 0 _ _⟩
  obtain ⟨s, hrun, hs⟩ := foldlM_range' (n := LPC_ORD) (fun i s => Differences math indexes lsp i s)
    hstart fun i s _ hi hs => decodeLspdStep_eq math h hlsp (by omega) hs
  rw [Nat.zero_add] at hs
  refine ⟨s.lsp_, ?_, hs.lsp_⟩
  rw [decodeLspdsScalar, filled_eq (Nat.le_refl _)]
  simp only [Option.bind_eq_bind, Option.bind_some, List.range_eq_range']
  rw [hrun]
  rfl

/-! ## The nearest entry -/

variable [LinearOrder F]

/-- `quantise` before the vector `j`: an entry of the least error, if any was below `1e32`. -/
structure Best (errors : Nat → F) (j : Nat) (best : Nat × F) : Prop where
  index : best.1 < j ∨ best = noVector
  least : best.2 = (noVector : Nat × F).2 ∨ best.2 = errors best.1
  le : ∀ i < j, best.2 ≤ errors i

theorem quantise_eq [IsStrictOrderedRing F] {cb vec w : List F} {x : F} (hcb : 0 < cb.length)
    (hvec : vec[0]? = some x) (hw : w[0]? = some 1) (se : F) :
    ∃ index se', quantise cb vec w 1 se = some (index, se') ∧ index < cb.length ∧
      ((∃ c ∈ cb, (c - x) ^ 2 < (10 ^ 32 : Nat)) →
        ∀ c ∈ cb, |cb.getD index 0 - x| ≤ |c - x|) := by
  let errors (j : Nat) : F := (cb.getD j 0 - x) ^ 2
  have herror {j : Nat} (hj : j < cb.length) : vectorError cb vec w 1 j = some (errors j) := by
    simp [vectorError, List.range, List.range.loop, hvec, hw, List.getElem?_eq_getElem hj, errors,
      pow_two]
  have hstep : ∀ j (best : Nat × F), 0 ≤ j → j < 0 + cb.length → Best errors j best →
      ∃ best', (vectorError cb vec w 1 j >>= fun e =>
          pure (if e < best.2 then (j, e) else best)) = some best' ∧ Best errors (j + 1) best' := by
    intro j best _ hj h
    rw [herror (by omega)]
    refine ⟨_, rfl, ?_⟩
    split
    · rename_i hlt
      refine ⟨.inl (Nat.lt_succ_self j), .inr rfl, fun i hi => ?_⟩
      obtain hi | rfl := Nat.lt_succ_iff_lt_or_eq.mp hi
      · exact hlt.le.trans (h.le i hi)
      · exact le_rfl
    · rename_i hnot
      refine ⟨h.index.imp_left Nat.lt_succ_of_lt, h.least, fun i hi => ?_⟩
      obtain hi | rfl := Nat.lt_succ_iff_lt_or_eq.mp hi
      · exact h.le i hi
      · exact not_lt.mp hnot
  obtain ⟨best, hrun, hbest⟩ := foldlM_range' (Best errors)
    (⟨.inr rfl, .inl rfl, fun i hi => absurd hi (Nat.not_lt_zero i)⟩ : Best errors 0 noVector) hstep
  rw [Nat.zero_add] at hbest
  refine ⟨best.1, se + best.2, ?_, ?_, fun ⟨c, hc, hlt⟩ c' hc' => ?_⟩
  · rw [quantise, List.range_eq_range']
    simp only [Option.bind_eq_bind] at hrun ⊢
    rw [hrun]
    rfl
  · obtain hlt | hnone := hbest.index
    · exact hlt
    · rw [hnone]
      exact hcb
  · have hentry {c : F} (hc : c ∈ cb) : best.2 ≤ (c - x) ^ 2 := by
      obtain ⟨i, hi, rfl⟩ := List.mem_iff_getElem.mp hc
      have := hbest.le i hi
      simp only [errors, List.getD_eq_getElem _ _ hi] at this
      exact this
    obtain hnone | hleast := hbest.least
    · rw [hnone] at hentry
      exact absurd (hentry hc) (not_le.mpr hlt)
    · rw [← sq_le_sq]
      have := hentry hc'
      rwa [hleast] at this

/-- `code` is an entry nearest to `x`. -/
def Nearest (codebook : LspCodebook) (x : F) (code : Nat) : Prop :=
  code ∈ codebook.cb ∧ ∀ c ∈ codebook.cb, |(code : F) - x| ≤ |(c : F) - x|

/-- An error that the search does not take for none. -/
def Near (codebook : LspCodebook) (x : F) : Prop :=
  ∃ c ∈ codebook.cb, ((c : F) - x) ^ 2 < (10 ^ 32 : Nat)

/-- `quantise` with one of the codebooks. -/
theorem quantise_nearest [IsStrictOrderedRing F] {codebooks : List LspCodebook}
    (hs : Scalar codebooks) {i : Nat} (hi : i < LPC_ORD) {vec w : List F} {x : F}
    (hvec : vec[0]? = some x) (hw : w[0]? = some 1) (se : F) :
    ∃ index se', quantise ((codebookAt codebooks i).cb.map Nat.cast) vec w
        (codebookAt codebooks i).k se = some (index, se') ∧
      index < (codebookAt codebooks i).cb.length ∧
      (Near (codebookAt codebooks i) x →
        Nearest (codebookAt codebooks i) x ((codebookAt codebooks i).cb.getD index 0)) := by
  have hsize : 0 < ((codebookAt codebooks i).cb.map (Nat.cast (R := F))).length := by
    rw [List.length_map, hs.size i hi]
    exact Nat.two_pow_pos _
  obtain ⟨index, se', hrun, hindex, hnearest⟩ := quantise_eq hsize hvec hw se
  rw [List.length_map] at hindex
  have hcode : (codebookAt codebooks i).cb.getD index 0 ∈ (codebookAt codebooks i).cb := by
    rw [List.getD_eq_getElem _ 0 hindex]
    exact List.getElem_mem hindex
  refine ⟨index, se', by rw [hs.k i hi]; exact hrun, hindex, fun ⟨c, hc, hlt⟩ =>
    ⟨hcode, fun c' hc' => ?_⟩⟩
  have hle := hnearest ⟨c, List.mem_map_of_mem hc, hlt⟩ c' (List.mem_map_of_mem hc')
  rw [List.getD_eq_getElem _ _ (by simpa using hindex), List.getElem_map,
    ← List.getD_eq_getElem _ 0 hindex] at hle
  exact hle

omit [LinearOrder F] in
theorem toHz_eq (hlsp : LPC_ORD ≤ lsp.length) :
    ∃ lspHz, toHz math lsp LPC_ORD = some lspHz ∧
      Filled 0 LPC_ORD (fun i => (4000 : Nat) / math.pi * lsp.getD i 0)
        (List.replicate LPC_ORD 0) lspHz := by
  have hstep : ∀ i l, i < LPC_ORD →
      Filled 0 i (fun i => (4000 : Nat) / math.pi * lsp.getD i 0) (List.replicate LPC_ORD 0) l →
      copyAt (fun x => (4000 : Nat) / math.pi * x) lsp l (0 + i) =
        some (l.set (0 + i) ((4000 : Nat) / math.pi * lsp.getD (0 + i) 0)) := by
    intro i l hi hl
    rw [Nat.zero_add, copyAt, List.getElem?_eq_getElem (by omega),
      List.getD_eq_getElem _ _ (by omega)]
    exact store_eq (by rw [hl.length]; simpa using hi) _
  obtain ⟨lspHz, hrun, hfilled⟩ := foldlM_filled (by simp) hstep
  refine ⟨lspHz, ?_, hfilled⟩
  rw [toHz, filled_eq (Nat.le_refl _)]
  simp only [Option.bind_eq_bind, Option.bind_some, List.range_eq_range']
  exact hrun

/-- What the encoders have found for the codebooks before `i`; `targets` are the values that they
look for. -/
structure Encoded (codebooks : List LspCodebook) (targets : List Nat → Nat → F) (i : Nat)
    (indexes : List Nat) : Prop where
  length : indexes.length = LPC_ORD
  lt : ∀ j < i, indexes.getD j 0 < (codebookAt codebooks j).cb.length
  nearest : ∀ j < i, Near (codebookAt codebooks j) (targets indexes j) →
    Nearest (codebookAt codebooks j) (targets indexes j) (codeAt codebooks indexes j)

theorem Encoded.set {codebooks : List LspCodebook} {targets : List Nat → Nat → F} {i : Nat}
    (h : Encoded codebooks targets i indexes) (hi : i < LPC_ORD) {index : Nat}
    (hindex : index < (codebookAt codebooks i).cb.length)
    (hbefore : ∀ j ≤ i, targets (indexes.set i index) j = targets indexes j)
    (hnearest : Near (codebookAt codebooks i) (targets indexes i) →
      Nearest (codebookAt codebooks i) (targets indexes i)
        ((codebookAt codebooks i).cb.getD index 0)) :
    Encoded codebooks targets (i + 1) (indexes.set i index) := by
  have hlength := h.length
  have hsame {j : Nat} (hj : j < i) : (indexes.set i index).getD j 0 = indexes.getD j 0 := by
    rw [List.getD_eq_getElem?_getD, List.getElem?_set_ne (by omega), List.getD_eq_getElem?_getD]
  have hnew : (indexes.set i index).getD i 0 = index := by
    rw [List.getD_eq_getElem?_getD, List.getElem?_set_self (by omega), Option.getD_some]
  refine ⟨by simpa using hlength, fun j hj => ?_, fun j hj => ?_⟩
  · obtain hj | rfl := Nat.lt_succ_iff_lt_or_eq.mp hj
    · rw [hsame hj]
      exact h.lt j hj
    · rw [hnew]
      exact hindex
  · rw [hbefore j (by omega), codeAt]
    obtain hj | rfl := Nat.lt_succ_iff_lt_or_eq.mp hj
    · rw [hsame hj]
      exact h.nearest j hj
    · rw [hnew]
      exact hnearest

/-! ## Encoding -/

/-- The entry `i` in Hz. -/
def hzAt (lsp : List F) (i : Nat) : F := (4000 : Nat) / math.pi * lsp.getD i 0

theorem encodeLspsScalar_eq [IsStrictOrderedRing F] (hlsp : LPC_ORD ≤ lsp.length) :
    ∃ indexes, encodeLspsScalar math (List.replicate LPC_ORD 0) lsp LPC_ORD = some indexes ∧
      Encoded lspCb (fun _ => hzAt math lsp) LPC_ORD indexes := by
  obtain ⟨lspHz, hrunHz, hHz⟩ := @toHz_eq F _ math lsp hlsp
  have hstart : Encoded lspCb (fun _ => hzAt math lsp) 0 (List.replicate LPC_ORD 0) :=
    ⟨by simp, fun j hj => absurd hj (Nat.not_lt_zero j), fun j hj => absurd hj (Nat.not_lt_zero j)⟩
  have hstep : ∀ i (state : List Nat × F), 0 ≤ i → i < 0 + LPC_ORD →
      Encoded lspCb (fun _ => hzAt math lsp) i state.1 →
      ∃ state', encodeLspStep lspHz state i = some state' ∧
        Encoded lspCb (fun _ => hzAt math lsp) (i + 1) state'.1 := by
    intro i state _ hi h
    have hvec : (lspHz.drop i)[0]? = some (hzAt math lsp i) := by
      rw [List.getElem?_drop, Nat.add_zero]
      exact hHz.get_in (Nat.zero_le i) hi
    obtain ⟨index, se', hrun, hindex, hnearest⟩ :=
      quantise_nearest scalar_lspCb (i := i) (by omega) hvec (rfl : ([1] : List F)[0]? = some 1) state.2
    refine ⟨(state.1.set i index, se'), ?_, h.set (by omega) hindex (fun _ _ => rfl) hnearest⟩
    rw [encodeLspStep, scalar_lspCb.getElem? (by omega)]
    simp only [Option.bind_eq_bind, Option.bind_some]
    rw [hrun]
    simp only [Option.bind_some]
    rw [store_eq (by rw [h.length]; omega)]
    rfl
  obtain ⟨⟨indexes, se⟩, hrun, h⟩ := @foldlM_range' (List Nat × F) _ 0 LPC_ORD
    (fun i state => Encoded lspCb (fun _ => hzAt math lsp) i state.1) (List.replicate LPC_ORD 0, 0)
    hstart hstep
  rw [Nat.zero_add] at h
  refine ⟨indexes, ?_, h⟩
  rw [encodeLspsScalar, hrunHz]
  simp only [Option.bind_eq_bind, Option.bind_some, List.range_eq_range']
  rw [hrun]
  rfl

/-- What the entry `i` adds to the decoded one before it. -/
def differenceAt (lsp : List F) (indexes : List Nat) (i : Nat) : F :=
  if i ≠ 0 then hzAt math lsp i - differenceSum indexes (i - 1) else hzAt math lsp i

theorem codeAt_set {codebooks : List LspCodebook} {i j : Nat} (hj : j < i) (index : Nat) :
    codeAt codebooks (indexes.set i index) j = codeAt codebooks indexes j := by
  have hsame : (indexes.set i index).getD j 0 = indexes.getD j 0 := by
    rw [List.getD_eq_getElem?_getD, List.getElem?_set_ne (by omega), List.getD_eq_getElem?_getD]
  rw [codeAt, codeAt, hsame]

theorem differenceSum_set {i j : Nat} (hj : j < i) (index : Nat) :
    differenceSum (indexes.set i index) j = differenceSum indexes j := by
  apply Finset.sum_congr rfl
  intro k hk
  simp only [Finset.mem_range] at hk
  exact codeAt_set (by omega) index

/-- The encoder before the step `i`. -/
structure Tracking (lsp : List F) (i : Nat) (s : LspdEncoder F) : Prop where
  encoded : Encoded lspCbd (differenceAt math lsp) i s.indexes
  dlsp : s.dlsp.length = LPC_ORD
  dlsp_ : s.dlsp_.length = LPC_ORD
  length : s.lspHz_.length = LPC_ORD
  /-- The encoder keeps the frequencies that the decoder will have. -/
  lspHz_ : ∀ j < i, s.lspHz_[j]? = some (differenceSum s.indexes j : F)

theorem encodeLspdStep_eq [IsStrictOrderedRing F] {lspHz wt : List F} {i : Nat} (hi : i < LPC_ORD)
    (hHz : lspHz[i]? = some (hzAt math lsp i)) (hwt : wt[0]? = some 1) {s : LspdEncoder F}
    (h : Tracking math lsp i s) :
    ∃ s', encodeLspdStep lspHz wt s i = some s' ∧ Tracking math lsp (i + 1) s' := by
  have hindexes := h.encoded.length
  have hdlsp := h.dlsp
  have hdlsp_ := h.dlsp_
  have hlength := h.length
  have hbefore : hzBefore s.lspHz_ i =
      some (if i ≠ 0 then (differenceSum s.indexes (i - 1) : F) else 0) := by
    unfold hzBefore
    split
    · exact h.lspHz_ (i - 1) (by omega)
    · rfl
  have htarget : (if i ≠ 0 then
        hzAt math lsp i - (if i ≠ 0 then (differenceSum s.indexes (i - 1) : F) else 0)
      else hzAt math lsp i) = differenceAt math lsp s.indexes i := by
    unfold differenceAt
    split <;> rfl
  have hvec : ((s.dlsp.set i (differenceAt math lsp s.indexes i)).drop i)[0]? =
      some (differenceAt math lsp s.indexes i) := by
    rw [List.getElem?_drop, Nat.add_zero, List.getElem?_set_self (by omega)]
  obtain ⟨index, se, hrun, hindex, hnearest⟩ := quantise_nearest scalar_lspCbd hi hvec hwt 0
  have hcode : ((codebookAt lspCbd i).cb.map (Nat.cast (R := F)))[index *
      (codebookAt lspCbd i).k]? = some ((codeAt lspCbd (s.indexes.set i index) i : Nat) : F) := by
    rw [scalar_lspCbd.k i hi, Nat.mul_one, List.getElem?_map, codeAt, List.getD_eq_getElem?_getD
      (l := s.indexes.set i index), List.getElem?_set_self (by omega), Option.getD_some,
      List.getElem?_eq_getElem hindex, List.getD_eq_getElem _ _ hindex]
    rfl
  have hsum : (if i ≠ 0 then (if i ≠ 0 then (differenceSum s.indexes (i - 1) : F) else 0) +
        (codeAt lspCbd (s.indexes.set i index) i : Nat)
      else ((codeAt lspCbd (s.indexes.set i index) i : Nat) : F)) =
      differenceSum (s.indexes.set i index) i := by
    cases i with
    | zero => simp [differenceSum]
    | succ i =>
      rw [Nat.add_sub_cancel, ← differenceSum_set (Nat.lt_succ_self i) index]
      simp [differenceSum, Finset.sum_range_succ]
  have hencoded : Encoded lspCbd (differenceAt math lsp) (i + 1) (s.indexes.set i index) := by
    apply h.encoded.set hi hindex _ hnearest
    intro j hj
    unfold differenceAt
    split
    · rw [differenceSum_set (by omega)]
    · rfl
  refine ⟨⟨s.indexes.set i index, s.dlsp.set i (differenceAt math lsp s.indexes i),
    s.dlsp_.set i (codeAt lspCbd (s.indexes.set i index) i : Nat),
    s.lspHz_.set i (differenceSum (s.indexes.set i index) i)⟩, ?_, ⟨hencoded,
    by simpa using hdlsp, by simpa using hdlsp_, by simpa using hlength, fun j hj => ?_⟩⟩
  · rw [encodeLspdStep, hHz, hbefore]
    simp only [Option.bind_eq_bind, Option.bind_some]
    rw [htarget, store_eq (by omega), scalar_lspCbd.getElem? hi]
    simp only [Option.bind_some]
    rw [hrun]
    simp only [Option.bind_some]
    rw [store_eq (by omega), hcode]
    simp only [Option.bind_some]
    rw [store_eq (by omega)]
    simp only [Option.bind_some]
    rw [hsum, store_eq (by omega)]
    rfl
  · obtain hj | rfl := Nat.lt_succ_iff_lt_or_eq.mp hj
    · simp only [List.getElem?_set_ne (Nat.ne_of_gt hj), differenceSum_set hj]
      exact h.lspHz_ j hj
    · exact List.getElem?_set_self (by omega)

theorem encodeLspdsScalar_eq [IsStrictOrderedRing F] (hlsp : LPC_ORD ≤ lsp.length) :
    ∃ indexes, encodeLspdsScalar math (List.replicate LPC_ORD 0) lsp LPC_ORD = some indexes ∧
      Encoded lspCbd (differenceAt math lsp) LPC_ORD indexes := by
  obtain ⟨lspHz, hrunHz, hHz⟩ := @toHz_eq F _ math lsp hlsp
  -- named, so that nothing computes with the buffers
  obtain ⟨zeros, hzeros, hlength⟩ : ∃ zeros : List F, filled LPC_ORD LPC_ORD = some zeros ∧
      zeros.length = LPC_ORD := ⟨_, filled_eq (Nat.le_refl _), List.length_replicate⟩
  obtain ⟨wt, hstore, hwt⟩ : ∃ wt, store (List.replicate LPC_ORD (1 : F)) 0 1 = some wt ∧
      wt[0]? = some 1 := ⟨_, store_eq (by simp [LPC_ORD]) _, by simp [LPC_ORD]⟩
  have hstart : Tracking math lsp 0 ⟨List.replicate LPC_ORD 0, zeros, zeros, zeros⟩ :=
    ⟨⟨by simp, fun j hj => absurd hj (Nat.not_lt_zero j), fun j hj => absurd hj (Nat.not_lt_zero j)⟩,
      hlength, hlength, hlength, fun j hj => absurd hj (Nat.not_lt_zero j)⟩
  have hstep : ∀ i (s : LspdEncoder F), 0 ≤ i → i < 0 + LPC_ORD → Tracking math lsp i s →
      ∃ s', encodeLspdStep lspHz wt s i = some s' ∧ Tracking math lsp (i + 1) s' := by
    intro i s _ hi h
    rw [Nat.zero_add] at hi
    exact encodeLspdStep_eq math hi (hHz.get_in (Nat.zero_le i) (by omega)) hwt h
  obtain ⟨s, hrun, h⟩ := foldlM_range' (Tracking math lsp) hstart hstep
  rw [Nat.zero_add] at h
  refine ⟨s.indexes, ?_, h.encoded⟩
  rw [encodeLspdsScalar, hrunHz, hzeros, hstore]
  simp only [Option.bind_eq_bind, Option.bind_some, List.range_eq_range']
  rw [hrun]
  rfl

end Lxst.Codec2
