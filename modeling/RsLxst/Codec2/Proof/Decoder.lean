import RsLxst.Codec2.Proof.Codebooks
import RsLxst.Codec2.Proof.FrameBits
import RsLxst.Codec2.Proof.LspStable
import RsLxst.Codec2.Proof.Lsp
import RsLxst.Codec2.Proof.Pitch

/-!
# Decoders

What the decoders of both modes have in common: `Sound`, of a frame of 10 ms, and `Remembered`, of
the memories between two byte strings. Both hold for line spectral pairs that keep a distance
(`Spaced`), which interpolation keeps (`Spaced.interpolated`). `decodeStream_keeps` is the rule for
a stream of byte strings.
-/

set_option autoImplicit false

namespace Lxst.Codec2

open Fill

/-! ## Line spectral pairs -/

variable {separation : Nat → ℝ}

/-- Line spectral pairs that keep their distance. -/
structure Spaced (separation : Nat → ℝ) (lsp : List ℝ) : Prop where
  length : lsp.length = LPC_ORD
  first : 0 ≤ lsp.getD 0 0
  apart : ∀ i, 1 ≤ i → i < LPC_ORD → lsp.getD (i - 1) 0 + separation i ≤ lsp.getD i 0

theorem Spaced.lt {lsp : List ℝ} (h : Spaced separation lsp) (hpos : ∀ i, 0 < separation i)
    {i j : Nat} (hij : i < j) (hj : j < LPC_ORD) : lsp.getD i 0 < lsp.getD j 0 := by
  induction j with
  | zero => omega
  | succ j ih =>
    have hstep := h.apart (j + 1) (by omega) hj
    have hsep := hpos (j + 1)
    rw [Nat.add_sub_cancel] at hstep
    obtain hlt | rfl := Nat.lt_succ_iff_lt_or_eq.mp hij
    · have := ih hlt (by omega)
      linarith
    · linarith

theorem Spaced.le {lsp : List ℝ} (h : Spaced separation lsp) (hpos : ∀ i, 0 < separation i)
    {i j : Nat} (hij : i ≤ j) (hj : j < LPC_ORD) : lsp.getD i 0 ≤ lsp.getD j 0 := by
  obtain hlt | rfl := Nat.lt_or_eq_of_le hij
  · exact (h.lt hpos hlt hj).le
  · exact le_rfl

theorem Spaced.ascending {lsp : List ℝ} (h : Spaced separation lsp) (hpos : ∀ i, 0 < separation i)
    (hfirst : 0 < lsp.getD 0 0) (hlast : lsp.getD (LPC_ORD - 1) 0 < Real.pi) :
    Ascending lsp LPC_ORD := by
  have hlength := h.length
  refine ⟨by omega, fun i hi => ?_, fun i j hij hj => h.lt hpos hij hj, fun i hi => ?_⟩
  · exact hfirst.trans_le (h.le hpos (Nat.zero_le i) hi)
  · exact (h.le hpos (by omega : i ≤ LPC_ORD - 1) (by decide)).trans_lt hlast

/-- A frame in between. -/
theorem Spaced.interpolated {prev next lsp : List ℝ} (hprev : Spaced separation prev)
    (hnext : Spaced separation next) (hfirst : 0 < next.getD 0 0) {weight : ℝ} (hpos : 0 < weight)
    (hle : weight ≤ 1)
    (hlsp : Filled 0 LPC_ORD (fun i => (1 - weight) * prev.getD i 0 + weight * next.getD i 0) lsps₀
      lsp) :
    Spaced separation lsp ∧ 0 < lsp.getD 0 0 ∧
      ∀ top, prev.getD (LPC_ORD - 1) 0 ≤ top → next.getD (LPC_ORD - 1) 0 ≤ top →
        lsp.getD (LPC_ORD - 1) 0 ≤ top := by
  have hget (i : Nat) (hi : i < LPC_ORD) :
      lsp.getD i 0 = (1 - weight) * prev.getD i 0 + weight * next.getD i 0 := by
    exact hlsp.getD_in (Nat.zero_le i) (by omega) 0
  have hrest : 0 ≤ 1 - weight := sub_nonneg.mpr hle
  have hzero : 0 < lsp.getD 0 0 := by
    rw [hget 0 (by decide)]
    have h1 := mul_nonneg hrest hprev.first
    have h2 := mul_pos hpos hfirst
    linarith
  refine ⟨⟨by simpa [lsps₀] using hlsp.length, hzero.le, fun i hi hlt => ?_⟩, hzero,
    fun top hp hn => ?_⟩
  · rw [hget i hlt, hget (i - 1) (by omega)]
    have h1 := mul_le_mul_of_nonneg_left (hprev.apart i hi hlt) hrest
    have h2 := mul_le_mul_of_nonneg_left (hnext.apart i hi hlt) hpos.le
    linarith
  · rw [hget (LPC_ORD - 1) (by decide)]
    have h1 := mul_le_mul_of_nonneg_left hp hrest
    have h2 := mul_le_mul_of_nonneg_left hn hpos.le
    linarith

/-! ## Frames -/

/-- What a frame of 10 ms has, whatever was received. -/
structure Sound (separation : Nat → ℝ) (frame : Synthesis ℝ) : Prop where
  wo : Real.pi / 80 ≤ frame.model.Wo ∧ frame.model.Wo ≤ Real.pi / 10
  harmonics : 10 ≤ frame.model.L ∧ frame.model.L ≤ 80
  energy : 1 / 10 ≤ frame.e ∧ frame.e ≤ 10 ^ 4
  spaced : Spaced separation frame.lsps
  first : 0 < frame.lsps.getD 0 0
  stable : frame.lsps.getD (LPC_ORD - 1) 0 < Real.pi →
    frame.ak[0]? = some 1 ∧ Stable frame.ak LPC_ORD

/-- What a decoder remembers. -/
structure Remembered (separation : Nat → ℝ) (memory : Codec2Internal ℝ) : Prop where
  model : Pitch memory.prevModelDec
  e : Energy memory.prevEDec
  lsps : Spaced separation memory.prevLspsDec

theorem synthesis_eq {F : Type} [Field F] (math : ParamMath F) (model : Model F) (e : F)
    {lsps : List F} (hlsps : lsps.length = LPC_ORD) :
    ∃ frame, synthesis math model e lsps = some frame ∧ frame.model = model ∧ frame.e = e ∧
      frame.lsps = lsps := by
  have hget (i : Nat) (hi : i < LPC_ORD) :
      (lsps[i]?).map math.cos = some (math.cos (lsps.getD i 0)) := by
    rw [List.getD_eq_getElem?_getD, List.getElem?_eq_getElem (by omega)]
    rfl
  obtain ⟨ak, hrun, -⟩ := @lspToLpc_eq F _ (fun i => math.cos (lsps.getD (2 * i) 0))
    (fun i => math.cos (lsps.getD (2 * i + 1) 0)) LPC_ORD math.toFloatMath lsps
    (List.replicate (LPC_ORD + 1) 0) (by decide) (Nat.le_refl _) (by simp)
    (fun i hi => hget (2 * i) (by omega)) (fun i hi => hget (2 * i + 1) (by omega)) hlsps.ge
  refine ⟨⟨model, e, lsps, ak⟩, ?_, rfl, rfl, rfl⟩
  rw [synthesis, hrun]
  rfl

theorem synthesis_sound {model : Model ℝ} {e : ℝ} {lsps : List ℝ} (hmodel : Pitch model)
    (he : Energy e) (hlsps : Spaced separation lsps) (hpos : ∀ i, 0 < separation i)
    (hfirst : 0 < lsps.getD 0 0) :
    ∃ frame, synthesis realMath model e lsps = some frame ∧ frame.lsps = lsps ∧
      Sound separation frame := by
  obtain ⟨frame, hrun, rfl, rfl, rfl⟩ := synthesis_eq realMath model e hlsps.length
  refine ⟨frame, hrun, rfl, ⟨hmodel.ge, hmodel.le⟩, hmodel.count, ⟨he.ge, he.le⟩, hlsps, hfirst,
    fun hlast => ?_⟩
  obtain ⟨ak, hak, -, hmonic, hstable⟩ := @lspToLpc_stable realMath.toFloatMath rfl frame.lsps
    (List.replicate (LPC_ORD + 1) 0) LPC_ORD (by decide) (by decide) (Nat.le_refl _) (by simp)
    (hlsps.ascending hpos hfirst hlast)
  have hsame : frame.ak = ak := by
    rw [synthesis, hak] at hrun
    have hframe : (⟨frame.model, frame.e, frame.lsps, ak⟩ : Synthesis ℝ) = frame :=
      Option.some.inj hrun
    rw [← hframe]
  rw [hsame]
  exact ⟨hmonic, hstable⟩

/-- One step of a computation that does not fail. -/
theorem bind_of_some {α β : Type} {x : Option α} {a : α} (h : x = some a) (f : α → Option β) :
    (x >>= f) = f a := by
  rw [h]
  rfl

theorem indexes_of_fit {codebooks : List LspCodebook} (hs : Scalar codebooks)
    {values : List (BitVec 32)}
    (hfit : FitWidths values ((codebooks.take LPC_ORD).map LspCodebook.log2m)) :
    Indexes codebooks (values.map BitVec.toNat) := by
  have hcodebooks := hs.length
  have hlength : values.length = LPC_ORD := by
    rw [hfit.length_eq, List.length_map, List.length_take]
    omega
  refine ⟨by simp [hlength], fun i hi => ?_⟩
  have hget := hfit.get (i := i) (by omega) (by simp; omega)
  have hwidth : ((codebooks.take LPC_ORD).map LspCodebook.log2m)[i]? =
      some (codebookAt codebooks i).log2m := by
    rw [List.getElem?_map, List.getElem?_take_of_lt hi, hs.getElem? hi]
    rfl
  obtain ⟨_, hwidth⟩ := List.getElem?_eq_some_iff.mp hwidth
  rw [List.get_eq_getElem, List.get_eq_getElem, hwidth] at hget
  rw [hs.size i hi, List.getD_eq_getElem _ _ (by simp; omega), List.getElem_map]
  exact hget

/-! ## Runs -/

/-- What one byte string keeps, a stream keeps. -/
theorem decodeStream_keeps {F : Type}
    {decode : Codec2Internal F → List UInt8 → Option (List (Synthesis F) × Codec2Internal F)}
    {Memory : Codec2Internal F → Prop} {Frame : Synthesis F → Prop} {n : Nat}
    (hdecode : ∀ memory bits, Memory memory → frameBytes ≤ bits.length →
      ∃ frames memory', decode memory bits = some (frames, memory') ∧ frames.length = n ∧
        (∀ frame ∈ frames, Frame frame) ∧ Memory memory')
    {stream : List (List UInt8)} (hstream : ∀ bits ∈ stream, frameBytes ≤ bits.length)
    {memory : Codec2Internal F} (hmemory : Memory memory) :
    ∃ frames memory', decodeStream decode memory stream = some (frames, memory') ∧
      frames.length = n * stream.length ∧ ∀ frame ∈ frames, Frame frame := by
  induction stream generalizing memory with
  | nil => exact ⟨[], memory, rfl, rfl, by simp⟩
  | cons bits stream ih =>
    obtain ⟨hbits, hrest⟩ := List.forall_mem_cons.mp hstream
    obtain ⟨frames, memory₁, hrun, hlength, hframes, hmemory₁⟩ := hdecode memory bits hmemory hbits
    obtain ⟨later, memory₂, hlater, hlength', hframes'⟩ := ih hrest hmemory₁
    refine ⟨frames ++ later, memory₂, ?_, ?_, ?_⟩
    · rw [decodeStream, bind_of_some hrun]
      simp only
      rw [bind_of_some hlater]
      rfl
    · rw [List.length_append, hlength, hlength', List.length_cons, Nat.mul_succ, Nat.add_comm]
    · intro frame hframe
      obtain hframe | hframe := List.mem_append.mp hframe
      · exact hframes frame hframe
      · exact hframes' frame hframe

theorem remembered_initialise (hle : ∀ i, separation i ≤ Real.pi / 11) :
    Remembered separation (.initialise realMath) := by
  have hget (i : Nat) (hi : i < LPC_ORD) :
      (Codec2Internal.initialise realMath).prevLspsDec.getD i 0 = i * Real.pi / 11 := by
    rw [List.getD_eq_getElem _ _ (by simpa [Codec2Internal.initialise] using hi)]
    simp [Codec2Internal.initialise, realMath, LPC_ORD]
    norm_num
  refine ⟨pitch_new, ⟨?_, ?_⟩, ⟨by simp [Codec2Internal.initialise], ?_, fun i hi hlt => ?_⟩⟩
  · norm_num [Codec2Internal.initialise]
  · norm_num [Codec2Internal.initialise]
  · rw [hget 0 (by decide)]
    simp
  · obtain ⟨k, rfl⟩ : ∃ k, i = k + 1 := ⟨i - 1, by omega⟩
    have hstep := hle (k + 1)
    rw [Nat.add_sub_cancel, hget (k + 1) hlt, hget k (by omega)]
    push_cast
    linarith

end Lxst.Codec2
