import RsLxst.Codec2.Proof.LpcToLsp

/-!
# The energy and the predictor of a frame

`speech_to_uq_lsps` does not fail, and what it returns is the least energy that the prediction errors
of the windowed frame can have (`speech_to_uq_lsps_energy`). The predictor it leaves in `ak` is the
one with that energy, its bandwidth expanded: all the zeros of its polynomial are within the circle
of radius 0.994 (`speech_to_uq_lsps_stable`).
-/

set_option autoImplicit false

namespace Lxst.Codec2

open Toeplitz Fill

variable {F : Type} [Field F]

/-- The windowed frame, zero outside of it. -/
def frame (Sn w : List F) (mPitch i : Nat) : F :=
  if i < mPitch then Sn.getD i 0 * w.getD i 0 else 0

theorem frame_of_le (Sn w : List F) {mPitch i : Nat} (hi : mPitch ≤ i) :
    frame Sn w mPitch i = 0 := if_neg (by omega)

/-- The energy of the errors of the predictor `b`, over the frame and what rings after it. -/
def predictionEnergy (s : Nat → F) (mPitch order : Nat) (b : Nat → F) : F :=
  ∑ m ∈ Finset.range (mPitch + order), Toeplitz.residual s order b m ^ 2

/-! ## The parts -/

theorem windowed_eq {Sn w : List F} {mPitch : Nat} (hpitch : mPitch ≤ PMAX_M)
    (hSn : mPitch ≤ Sn.length) (hw : mPitch ≤ w.length) :
    ∃ Wn, windowed Sn w mPitch =
        some (Wn, ∑ i ∈ Finset.range mPitch, frame Sn w mPitch i ^ 2) ∧
      Wn.length = mPitch ∧ ∀ i, signal Wn mPitch i = frame Sn w mPitch i := by
  have hstep : ∀ i (state : List F × F), 0 ≤ i → i < 0 + mPitch →
      (Filled 0 i (frame Sn w mPitch) (List.replicate mPitch 0) state.1 ∧
        state.2 = ∑ j ∈ Finset.range i, frame Sn w mPitch j ^ 2) →
      ∃ state', windowStep Sn w state i = some state' ∧
        Filled 0 (i + 1) (frame Sn w mPitch) (List.replicate mPitch 0) state'.1 ∧
        state'.2 = ∑ j ∈ Finset.range (i + 1), frame Sn w mPitch j ^ 2 := by
    rintro i ⟨Wn, e⟩ - hi ⟨hWn, he⟩
    dsimp only at hWn he
    have hvalue : Sn.getD i 0 * w.getD i 0 = frame Sn w mPitch i := (if_pos (by omega)).symm
    have hset := hWn.set (by simp; omega)
    rw [Nat.zero_add] at hset
    refine ⟨(Wn.set i (frame Sn w mPitch i), e + frame Sn w mPitch i ^ 2), ?_, hset, ?_⟩
    · rw [← hvalue, List.getD_eq_getElem?_getD, List.getD_eq_getElem?_getD, windowStep,
        List.getElem?_eq_getElem (by omega), List.getElem?_eq_getElem (by omega)]
      simp only [Option.bind_eq_bind, Option.bind_some, Option.getD_some]
      rw [store_eq (by rw [hWn.length]; simp; omega), pow_two]
      rfl
    · dsimp only
      rw [Finset.sum_range_succ, he]
  have hstart : Filled 0 0 (frame Sn w mPitch) (List.replicate mPitch (0 : F))
      (List.replicate mPitch 0) ∧ (0 : F) = ∑ j ∈ Finset.range 0, frame Sn w mPitch j ^ 2 :=
    ⟨filled_zero 0 _ _, by simp⟩
  obtain ⟨⟨Wn, e⟩, hrun, hWn, he⟩ := foldlM_range' (s := (List.replicate mPitch (0 : F), (0 : F)))
    _ hstart hstep
  dsimp only at hWn he
  rw [Nat.zero_add] at hWn he
  refine ⟨Wn, ?_, by simp [hWn.length], fun i => ?_⟩
  · rw [windowed, filled_eq hpitch, List.range_eq_range']
    simp only [Option.bind_eq_bind, Option.bind_some]
    rw [hrun, he]
  · by_cases hi : i < mPitch
    · rw [signal, if_pos hi, List.getD_eq_getElem?_getD, hWn.get_in (by omega) (by omega)]
      rfl
    · rw [signal_of_le Wn (by omega), frame_of_le Sn w (by omega)]

/-- `E` is row 0 of the normal equations. -/
theorem energy_eq {ak R : List F} {a r : Nat → F} {order : Nat}
    (hak : ∀ i ≤ order, ak[i]? = some (a i)) (hR : ∀ i ≤ order, R[i]? = some (r i)) :
    (List.range (order + 1)).foldlM (energyTerm ak R) 0 = some (row r order a 0) := by
  have hterm : ∀ i E, 0 ≤ i → i < 0 + (order + 1) →
      energyTerm ak R E i = some (E + a i * r i) := by
    intro i E _ hi
    rw [energyTerm, hak i (by omega), hR i (by omega)]
    rfl
  have hsum := foldlM_sum hterm 0
  rw [zero_add, zero_add, ← Finset.range_eq_Ico, ← List.range_eq_range'] at hsum
  rw [hsum, row]
  congr 1
  apply Finset.sum_congr rfl
  intro i _
  simp [Nat.dist]

theorem expandBandwidth_eq {ak : List F} {a : Nat → F} {order : Nat}
    (hak : ∀ i ≤ order, ak[i]? = some (a i)) (hlength : order < ak.length) :
    ∃ ak', (List.range (order + 1)).foldlM bandwidthStep ak = some ak' ∧
      Filled 0 (order + 1) (fun i => a i * BW_EXPANSION ^ i) ak ak' := by
  rw [List.range_eq_range']
  apply foldlM_filled (by omega)
  intro i l hi hl
  rw [Nat.zero_add, bandwidthStep, hl.get_out (by omega), hak i (by omega)]
  exact store_eq (by rw [hl.length]; omega) _

theorem benignLsps_eq (math : FloatMath F) {lsp : List F} {order : Nat}
    (hlsp : order ≤ lsp.length) : ∃ lsp', benignLsps math order lsp = some lsp' := by
  have hstep : ∀ i l, i < order → Filled 0 i (benignLsp math order) lsp l →
      store l (0 + i) (benignLsp math order (0 + i)) =
        some (l.set (0 + i) (benignLsp math order (0 + i))) := by
    intro i l hi hl
    exact store_eq (by rw [hl.length]; omega) _
  have hroom : 0 + order ≤ lsp.length := by omega
  obtain ⟨lsp', hrun, -⟩ := @foldlM_filled F 0 order (benignLsp math order) lsp
    (fun lsp i => store lsp i (benignLsp math order i)) hroom hstep
  rw [benignLsps, List.range_eq_range']
  exact ⟨lsp', hrun⟩

/-! ## The frame -/

/-- What the callers of `speech_to_uq_lsps` keep to. -/
structure Sized {F : Type} (lsp ak Sn w : List F) (mPitch order : Nat) : Prop where
  pitch : mPitch ≤ PMAX_M
  two_le : 2 ≤ order
  le_max : order ≤ LPC_ORD
  le_pitch : order ≤ mPitch
  room_Sn : mPitch ≤ Sn.length
  room_w : mPitch ≤ w.length
  room_lsp : order ≤ lsp.length
  room_ak : order < ak.length

section
variable [LinearOrder F] [IsStrictOrderedRing F] [Archimedean F] {lsp ak Sn w : List F}
  {mPitch order : Nat}

omit [IsStrictOrderedRing F] [Archimedean F] in
theorem speechToUqLsps_zero (math : FloatMath F) (hsized : Sized lsp ak Sn w mPitch order)
    (hzero : ∀ i, frame Sn w mPitch i = 0) (fuel : Nat) :
    ∃ lsp', speechToUqLsps math fuel lsp ak Sn w mPitch order = some (0, lsp', ak) := by
  obtain ⟨Wn, hwindowed, -, -⟩ := windowed_eq hsized.pitch hsized.room_Sn hsized.room_w
  obtain ⟨lsp', hbenign⟩ := benignLsps_eq math hsized.room_lsp
  have henergy : ∑ i ∈ Finset.range mPitch, frame Sn w mPitch i ^ 2 = 0 := by
    apply Finset.sum_eq_zero
    intro i _
    rw [hzero i, pow_two, mul_zero]
  refine ⟨lsp', ?_⟩
  rw [speechToUqLsps, filled_eq (by have := hsized.le_max; omega), hwindowed]
  simp only [Option.bind_eq_bind, Option.bind_some, henergy, if_true]
  rw [hbenign]
  rfl

theorem speechToUqLsps_solves (math : FloatMath F) (hsized : Sized lsp ak Sn w mPitch order)
    {i : Nat} (hne : frame Sn w mPitch i ≠ 0) :
    ∃ E a, Solves (autocorrelation (frame Sn w mPitch) mPitch) order a E ∧
      ∃ fuel₀, ∀ fuel ≥ fuel₀, ∃ lsp' ak',
        speechToUqLsps math fuel lsp ak Sn w mPitch order = some (E, lsp', ak') ∧
        ∀ j ≤ order, ak'[j]? = some (a j * BW_EXPANSION ^ j) := by
  obtain ⟨hpitch, horder, hmax, hlong, hSn, hw, hlsp, hak⟩ := hsized
  have hin : i < mPitch := by
    by_contra hge
    exact hne (frame_of_le Sn w (by omega))
  have hpos := posDef_autocorrelation (N := mPitch) (fun j hj => frame_of_le Sn w hj) ⟨i, hne⟩
  obtain ⟨Wn, hwindowed, hWn, hsignal⟩ := windowed_eq hpitch hSn hw
  rw [← funext hsignal] at hpos ⊢
  obtain ⟨R, hR, hRfilled⟩ := @autocorrelate_eq F _ Wn (List.replicate (order + 1) 0) mPitch order
    (by omega) hlong (by simp)
  have hRget (j : Nat) (hj : j ≤ order) :
      R[j]? = some (autocorrelation (signal Wn mPitch) mPitch j) :=
    hRfilled.get_in (by omega) (by omega)
  obtain ⟨ak₁, a, E, hlevinson, hsolves, hak₁⟩ := levinsonDurbin_eq hpos hRget hmax hak
  have hak₁get (j : Nat) (hj : j ≤ order) : ak₁[j]? = some (a j) :=
    hak₁.get_in (by omega) (by omega)
  have hE := energy_eq hak₁get hRget
  rw [hsolves.first] at hE
  obtain ⟨ak', hexpand, hak'⟩ := expandBandwidth_eq hak₁get (by rw [hak₁.length]; exact hak)
  have hak'get (j : Nat) (hj : j ≤ order) : ak'[j]? = some (a j * BW_EXPANSION ^ j) :=
    hak'.get_in (by omega) (by omega)
  have hdelta : (0 : F) < LSP_DELTA1 := by simp [LSP_DELTA1]
  obtain ⟨fuel₀, hsearch⟩ := lpcToLsp_eq math horder hmax
    (fun j hj => hak'get j (by omega)) hlsp 5 hdelta
  refine ⟨E, a, hsolves, fuel₀, fun fuel hfuel => ?_⟩
  obtain ⟨s, x, lsp₁, hlpc, hprogress, hlsp₁⟩ := hsearch fuel hfuel
  obtain ⟨lsp₂, hbenign⟩ := @benignLsps_eq F _ math lsp₁ order (by
    rw [hlsp₁.length, hprogress.length]
    exact hlsp)
  have henergy : ∑ j ∈ Finset.range mPitch, frame Sn w mPitch j ^ 2 ≠ 0 := by
    apply ne_of_gt
    apply Finset.sum_pos' (fun j _ => sq_nonneg _)
    exact ⟨i, by simpa using hin, sq_pos_of_ne_zero hne⟩
  refine ⟨if s.roots ≠ order then lsp₂ else lsp₁, ak', ?_, hak'get⟩
  rw [speechToUqLsps, filled_eq (by omega), hwindowed]
  simp only [Option.bind_eq_bind, Option.bind_some, if_neg henergy]
  rw [hR]
  simp only [Option.bind_some]
  rw [hlevinson]
  simp only [Option.bind_some]
  rw [hE]
  simp only [Option.bind_some]
  rw [hexpand]
  simp only [Option.bind_some]
  rw [hlpc]
  simp only [Option.bind_some]
  split
  · rw [hbenign]
    rfl
  · rfl

/-- **The energy of a frame** is the least that the errors of a predictor of that order can have. -/
theorem speech_to_uq_lsps_energy (math : FloatMath F) (hsized : Sized lsp ak Sn w mPitch order) :
    ∃ E fuel₀, IsLeast {e | ∃ b : Nat → F, b 0 = 1 ∧
        e = predictionEnergy (frame Sn w mPitch) mPitch order b} E ∧
      ∀ fuel ≥ fuel₀, ∃ lsp' ak',
        speechToUqLsps math fuel lsp ak Sn w mPitch order = some (E, lsp', ak') ∧
        (E ≠ 0 → ∀ b : Nat → F, b 0 = 1 →
          predictionEnergy (frame Sn w mPitch) mPitch order b = E →
            ∀ j ≤ order, ak'[j]? = some (b j * BW_EXPANSION ^ j)) := by
  by_cases hzero : ∀ i, frame Sn w mPitch i = 0
  · have hnone (b : Nat → F) : predictionEnergy (frame Sn w mPitch) mPitch order b = 0 := by
      apply Finset.sum_eq_zero
      intro m _
      simp [Toeplitz.residual, delayed, hzero]
    refine ⟨0, 0, ⟨⟨fun _ => 1, rfl, (hnone _).symm⟩, ?_⟩, fun fuel _ => ?_⟩
    · rintro e ⟨b, -, rfl⟩
      exact (hnone b).ge
    · obtain ⟨lsp', hrun⟩ := speechToUqLsps_zero math hsized hzero fuel
      exact ⟨lsp', ak, hrun, fun hne => absurd rfl hne⟩
  · push Not at hzero
    obtain ⟨i, hne⟩ := hzero
    have hlate (j : Nat) (hj : mPitch ≤ j) : frame Sn w mPitch j = 0 := frame_of_le Sn w hj
    have hpos := posDef_autocorrelation hlate ⟨i, hne⟩
    obtain ⟨E, a, hsolves, fuel₀, hrun⟩ := speechToUqLsps_solves math hsized hne
    have henergy (b : Nat → F) : predictionEnergy (frame Sn w mPitch) mPitch order b =
        quad (autocorrelation (frame Sn w mPitch) mPitch) order b :=
      (quad_autocorrelation hlate order b).symm
    refine ⟨E, fuel₀, ⟨⟨a, hsolves.one, ?_⟩, ?_⟩, fun fuel hfuel => ?_⟩
    · rw [henergy, hsolves.quad_eq]
    · rintro e ⟨b, hb, rfl⟩
      rw [henergy]
      exact hsolves.le_quad hpos hb
    · obtain ⟨lsp', ak', hresult, hak'⟩ := hrun fuel hfuel
      refine ⟨lsp', ak', hresult, fun _ b hb he j hj => ?_⟩
      rw [henergy] at he
      rw [hsolves.eq_of_quad_le hpos hb he.le j hj]
      exact hak' j hj

end

/-- Two samples with a rectangular window, and a predictor of order two. -/
theorem speech_to_uq_lsps_energy_two :
    let math : FloatMath ℝ := { pi := Real.pi, acos := Real.arccos, cos := Real.cos }
    ∃ E fuel₀, IsLeast {e | ∃ b : Nat → ℝ, b 0 = 1 ∧
        e = predictionEnergy (frame [1, 1] [1, 1] 2) 2 2 b} E ∧
      ∀ fuel ≥ fuel₀, ∃ lsp' ak',
        speechToUqLsps math fuel [0, 0] [0, 0, 0] [1, 1] [1, 1] 2 2 = some (E, lsp', ak') ∧
        (E ≠ 0 → ∀ b : Nat → ℝ, b 0 = 1 →
          predictionEnergy (frame [1, 1] [1, 1] 2) 2 2 b = E →
            ∀ j ≤ 2, ak'[j]? = some (b j * BW_EXPANSION ^ j)) :=
  speech_to_uq_lsps_energy _ ⟨by decide, by decide, by decide, by decide, by simp, by simp, by simp,
    by simp⟩

/-! ## Stability -/

/-- **The synthesis filter is stable**: the zeros of the polynomial of `ak` are within the circle of
radius 0.994. -/
theorem speech_to_uq_lsps_stable (math : FloatMath ℝ) {lsp ak Sn w : List ℝ} {mPitch order : Nat}
    (hsized : Sized lsp ak Sn w mPitch order) (hne : ∃ i, frame Sn w mPitch i ≠ 0) :
    ∃ E fuel₀, 0 < E ∧ ∀ fuel ≥ fuel₀, ∃ lsp' ak',
      speechToUqLsps math fuel lsp ak Sn w mPitch order = some (E, lsp', ak') ∧
      ∀ z : ℂ, ∑ i ∈ Finset.range (order + 1), ((ak'.getD i 0 : ℝ) : ℂ) * z ^ (order - i) = 0 →
        ‖z‖ < BW_EXPANSION := by
  obtain ⟨i, hne⟩ := hne
  have hpos := posDef_autocorrelation (N := mPitch) (fun j hj => frame_of_le Sn w hj) ⟨i, hne⟩
  obtain ⟨E, a, hsolves, fuel₀, hrun⟩ := speechToUqLsps_solves math hsized hne
  refine ⟨E, fuel₀, hsolves.pos hpos, fun fuel hfuel => ?_⟩
  obtain ⟨lsp', ak', hresult, hak'⟩ := hrun fuel hfuel
  refine ⟨lsp', ak', hresult, fun z hz => ?_⟩
  have hγ : (0 : ℝ) < BW_EXPANSION := by simp [BW_EXPANSION]
  generalize (BW_EXPANSION : ℝ) = γ at hγ hak' ⊢
  have hγ' : (γ : ℂ) ≠ 0 := by exact_mod_cast hγ.ne'
  have hscaled : ∑ j ∈ Finset.range (order + 1), (a j : ℂ) * (z / γ) ^ (order - j) = 0 := by
    have hsum : (γ : ℂ) ^ order *
        ∑ j ∈ Finset.range (order + 1), (a j : ℂ) * (z / γ) ^ (order - j) = 0 := by
      rw [← hz, Finset.mul_sum]
      apply Finset.sum_congr rfl
      intro j hj
      simp only [Finset.mem_range] at hj
      have hsplit : (γ : ℂ) ^ order = γ ^ j * γ ^ (order - j) := by
        rw [← pow_add]
        congr 1
        omega
      rw [List.getD_eq_getElem?_getD, hak' j (by omega), Option.getD_some, hsplit, div_pow]
      push_cast
      field_simp
    exact (mul_eq_zero.mp hsum).resolve_left (pow_ne_zero _ hγ')
  have hinside := hsolves.norm_lt_one hpos hscaled
  rwa [norm_div, Complex.norm_real, Real.norm_of_nonneg hγ.le, div_lt_one hγ] at hinside

/-- Two samples with a rectangular window, and a predictor of order two. -/
theorem speech_to_uq_lsps_stable_two :
    let math : FloatMath ℝ := { pi := Real.pi, acos := Real.arccos, cos := Real.cos }
    ∃ E fuel₀, 0 < E ∧ ∀ fuel ≥ fuel₀, ∃ lsp' ak',
      speechToUqLsps math fuel [0, 0] [0, 0, 0] [1, 1] [1, 1] 2 2 = some (E, lsp', ak') ∧
      ∀ z : ℂ, ∑ i ∈ Finset.range (2 + 1), ((ak'.getD i 0 : ℝ) : ℂ) * z ^ (2 - i) = 0 →
        ‖z‖ < BW_EXPANSION :=
  speech_to_uq_lsps_stable _ ⟨by decide, by decide, by decide, by decide, by simp, by simp, by simp,
    by simp⟩ ⟨0, by simp [frame]⟩

end Lxst.Codec2
