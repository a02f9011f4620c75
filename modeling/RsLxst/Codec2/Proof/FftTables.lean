import RsLxst.Codec2.Proof.RealFft

/-!
# The transforms with the tables of the codec

The coefficients of `fft_coefficients.rs` are the values of `kf_cexp` at the phases of
`flash_tables_match_native_initialisation`, rounded. With those values, in exact arithmetic, every
state that `initialise` builds computes the discrete Fourier transform of its length and direction
(`kissFft_dft`, `kissFftr_dft`), and the inverse of the real transform gives the samples back,
times the length (`kissFftri_kissFftr`).
-/

set_option autoImplicit false

namespace Lxst.Codec2

open Finset Fourier KissFftCpx

/-! ## The roots of the tables -/

theorem kfCexp_add (a b : ℝ) : kfCexp (a + b) = kfCexp a * kfCexp b := by
  ext
  · simp [kfCexp, Real.cos_add]
  · simp [kfCexp, Real.sin_add]
    ring

theorem kfCexp_nat_mul (n : ℕ) (a : ℝ) : kfCexp (n * a) = kfCexp a ^ n := by
  induction n with
  | zero =>
    ext
    · simp [kfCexp]
    · simp [kfCexp]
  | succ n ih => rw [Nat.cast_succ, add_mul, one_mul, kfCexp_add, ih, pow_succ]

theorem directed_eq (inverse : Int) (phase : ℝ) :
    directed (inverse ≠ 0) phase = sign inverse * -phase := by
  by_cases h : inverse ≠ 0
  · simp [directed, sign, h]
  · simp [directed, sign, h]

theorem kfCexp_quarter (inverse : Int) :
    kfCexp (sign inverse * (Real.pi / 2)) = quarterTurn inverse := by
  unfold sign quarterTurn
  split
  · ext
    · simp [kfCexp]
    · simp [kfCexp]
  · ext
    · simp [kfCexp, Real.cos_neg]
    · simp [kfCexp, Real.sin_neg]

theorem root_pow (nfft : ℕ) (inverse : Int) (j : ℕ) :
    root nfft inverse ^ j = kfCexp (sign inverse * (2 * Real.pi * j / nfft)) := by
  rw [root, ← kfCexp_nat_mul]
  congr 1
  ring

theorem root_pow_quarter {t : ℕ} (inverse : Int) :
    root (2 ^ (t + 2)) inverse ^ 2 ^ t = quarterTurn inverse := by
  have hpos : (2 : ℝ) ^ t ≠ 0 := by positivity
  rw [root_pow, ← kfCexp_quarter]
  congr 2
  push_cast
  rw [pow_add]
  field_simp

theorem root_sq {n : ℕ} (hn : n ≠ 0) (inverse : Int) :
    root (2 * n) inverse ^ 2 = root n inverse := by
  have hpos : (n : ℝ) ≠ 0 := Nat.cast_ne_zero.mpr hn
  rw [root_pow, root]
  congr 2
  push_cast
  field_simp

theorem exactTable_complexTable {t : ℕ} (inverse : Int) :
    ExactTable (complexTable (2 ^ (t + 2)) (inverse ≠ 0)) (root (2 ^ (t + 2)) inverse)
      (2 ^ (t + 2)) inverse := by
  refine ⟨?_, ?_⟩
  · rw [complexTable]
    apply List.map_congr_left
    intro i _
    rw [root_pow, directed_eq]
    congr 1
    ring
  · have hquarter : 2 ^ (t + 2) / 4 = 2 ^ t := by
      rw [pow_add]
      exact Nat.mul_div_cancel (2 ^ t) (by decide)
    rw [hquarter, root_pow_quarter]

theorem realTable_eq {n : ℕ} (hn : n ≠ 0) (inverse : Int) :
    realTable n (inverse ≠ 0) = (List.range (n / 2)).map
      fun k => quarterTurn inverse * root (2 * n) inverse ^ (k + 1) := by
  have hpos : (n : ℝ) ≠ 0 := Nat.cast_ne_zero.mpr hn
  rw [realTable]
  apply List.map_congr_left
  intro k _
  rw [root_pow, ← kfCexp_quarter, ← kfCexp_add, directed_eq]
  congr 1
  push_cast
  field_simp
  ring

theorem exact_of_initialise {N nfft : ℕ} (hsize : nfft = 128 ∨ nfft = 256 ∨ nfft = 512)
    (hN : nfft ≤ N) (inverse : Int) :
    ∃ st, KissFftState.initialise complexTable N nfft inverse = some st ∧ st.nfft = nfft ∧
      st.inverse = inverse ∧ Factored st.factors nfft ∧ Exact st (root nfft inverse) := by
  obtain ⟨st, hrun, rfl, rfl, htwiddles, hfactors, t, ht⟩ :=
    initialise_spec hsize hN complexTable inverse
  refine ⟨st, hrun, rfl, rfl, hfactors, ?_⟩
  apply exact_of_table ht
  rw [htwiddles, ht]
  exact exactTable_complexTable st.inverse

theorem recombine_eq_generic_128 :
    ∃ st, KissFftState.initialise complexTable 128 128 0 = some st ∧
      ∀ Fout, recombine Fout 32 st 1 4 = kfBflyGeneric Fout 32 st 1 4 := by
  obtain ⟨st, hrun, hn, -, -, hexact⟩ := exact_of_initialise (.inl rfl) (Nat.le_refl 128) 0
  refine ⟨st, hrun, ?_⟩
  intro Fout
  exact recombine_eq_generic hexact ⟨by rw [hn], by decide, by decide, by decide⟩ (by decide)
    (by decide) Fout

/-! ## The transforms -/

/-- **The FFT.** A state of any length and direction that `initialise` accepts transforms every
input of at least that many values, and leaves the rest of the output as it was. -/
theorem kissFft_dft {N nfft : ℕ} (hsize : nfft = 128 ∨ nfft = 256 ∨ nfft = 512) (hN : nfft ≤ N)
    (inverse : Int) :
    ∃ st, KissFftState.initialise complexTable N nfft inverse = some st ∧
      ∀ fin fout : List (KissFftCpx ℝ), nfft ≤ fin.length → nfft ≤ fout.length →
        kissFft st fin fout =
          some ((List.range nfft).map (fun k => ∑ j ∈ range nfft,
            fin.getD j 0 * kfCexp (sign inverse * (2 * Real.pi * (j * k : ℕ) / nfft))) ++
              fout.drop nfft) := by
  obtain ⟨st, hrun, rfl, -, hfactors, hexact⟩ := exact_of_initialise hsize hN inverse
  refine ⟨st, hrun, ?_⟩
  intro fin fout hin hout
  rw [kissFft_eq hexact hfactors hin hout]
  unfold dft
  simp only [root_pow]

theorem kissFft_dft_512 :
    ∃ st, KissFftState.initialise complexTable 512 512 1 = some st ∧
      ∀ fin fout : List (KissFftCpx ℝ), 512 ≤ fin.length → 512 ≤ fout.length →
        kissFft st fin fout =
          some ((List.range 512).map (fun k => ∑ j ∈ range 512,
            fin.getD j 0 * kfCexp (sign 1 * (2 * Real.pi * (j * k : ℕ) / (512 : ℕ)))) ++
              fout.drop 512) :=
  kissFft_dft (.inr (.inr rfl)) (Nat.le_refl 512) 1

theorem exactReal_of_initialise {nfft : ℕ} (hsize : nfft / 2 = 128 ∨ nfft / 2 = 256)
    (inverse : Int) :
    ∃ st, KissFftrState.initialise complexTable realTable nfft inverse = some st ∧
      st.substate.nfft = nfft / 2 ∧ st.substate.inverse = inverse ∧
      ExactReal st (root (2 * (nfft / 2)) inverse) := by
  obtain ⟨substate, hrun, hn, rfl, hfactors, hexact⟩ :=
    exact_of_initialise (N := 256) (hsize.imp_right .inl) (by omega) inverse
  have hpos : nfft / 2 ≠ 0 := by omega
  have hroot := root_sq hpos substate.inverse
  have hhalf : root (2 * (nfft / 2)) substate.inverse ^ (nfft / 2) = -1 := by
    obtain ⟨t, ht⟩ : ∃ t, nfft / 2 = 2 ^ (t + 2) := hsize.elim (⟨5, ·⟩) (⟨6, ·⟩)
    have hquarter : nfft / 2 = 2 ^ (t + 1) * 2 := by rw [ht, pow_succ 2 (t + 1)]
    have hlong : 2 * (nfft / 2) = 2 ^ (t + 1 + 2) := by
      rw [ht]
      ring
    rw [hlong, hquarter, pow_mul, root_pow_quarter, sq, quarterTurn_mul_self]
  have hone : root (2 * (nfft / 2)) substate.inverse ^ (2 * (nfft / 2)) = 1 := by
    rw [mul_comm 2, pow_mul, mul_comm _ 2, hhalf, neg_one_sq]
  refine ⟨{ substate, tmpbuf := List.replicate (nfft / 2) new,
            superTwiddles := realTable (nfft / 2) (substate.inverse ≠ 0) }, ?_, hn, rfl, ?_⟩
  · unfold KissFftrState.initialise
    simp only [hrun, Option.bind_eq_bind, Option.bind_some]
    rw [if_pos hsize]
    rfl
  · refine ⟨by rwa [hroot], by rwa [hn], by rwa [hn],
      star_mul_self_of_root (by omega) hone, by simp [hn], hn.trans_le (by omega), ?_⟩
    rw [hn]
    exact realTable_eq hpos substate.inverse

/-- **The real FFT.** A forward state gets the frequencies of every real input up to the half of
its length. -/
theorem kissFftr_dft {nfft : ℕ} (hsize : nfft / 2 = 128 ∨ nfft / 2 = 256) :
    ∃ st, KissFftrState.initialise complexTable realTable nfft 0 = some st ∧
      ∀ (timedata : List ℝ) (freqdata : List (KissFftCpx ℝ)),
        2 * (nfft / 2) ≤ timedata.length → timedata.length / 2 ≤ 256 →
        nfft / 2 < freqdata.length →
        ∃ st', kissFftr st timedata freqdata =
          some (st', (List.range (nfft / 2 + 1)).map (fun k => ∑ j ∈ range (2 * (nfft / 2)),
            real (timedata.getD j 0) *
              kfCexp (-(2 * Real.pi * (j * k : ℕ) / (2 * (nfft / 2) : ℕ)))) ++
                freqdata.drop (nfft / 2 + 1)) := by
  obtain ⟨st, hrun, hn, hinverse, hexact⟩ := exactReal_of_initialise hsize 0
  refine ⟨st, hrun, ?_⟩
  intro timedata freqdata hin hroom hout
  obtain ⟨st', hfft, -⟩ :=
    kissFftr_eq hexact hinverse (by rwa [hn]) hroom (by rwa [hn])
  refine ⟨st', ?_⟩
  rw [hfft, hn]
  unfold dft samples
  simp only [root_pow, sign, ne_eq, not_true_eq_false, if_false, neg_one_mul]

theorem kissFftr_dft_512 :
    ∃ st, KissFftrState.initialise complexTable realTable 512 0 = some st ∧
      ∀ (timedata : List ℝ) (freqdata : List (KissFftCpx ℝ)),
        2 * (512 / 2) ≤ timedata.length → timedata.length / 2 ≤ 256 →
        512 / 2 < freqdata.length →
        ∃ st', kissFftr st timedata freqdata =
          some (st', (List.range (512 / 2 + 1)).map (fun k => ∑ j ∈ range (2 * (512 / 2)),
            real (timedata.getD j 0) *
              kfCexp (-(2 * Real.pi * (j * k : ℕ) / (2 * (512 / 2) : ℕ)))) ++
                freqdata.drop (512 / 2 + 1)) :=
  kissFftr_dft (.inr (by decide))

/-- The frequencies that the forward transform writes are those of the samples. -/
theorem spectrum_eq {n : ℕ} {v : KissFftCpx ℝ} (hv : v ^ n = -1) (hs : star v * v = 1)
    (timedata : List ℝ) (rest : List (KissFftCpx ℝ)) {k : ℕ} (hk : k < 2 * n) :
    spectrum n ((List.range (n + 1)).map (dft v (2 * n) (samples timedata)) ++ rest) k =
      dft v (2 * n) (samples timedata) k := by
  have hone : v ^ (2 * n) = 1 := by rw [mul_comm, pow_mul, hv, neg_one_sq]
  have hmirror {k : ℕ} (hk : k ≤ 2 * n) :=
    star_dft_sub hone hs (fun j _ => star_real (timedata.getD j 0)) hk
  have hget (i : ℕ) (hi : i ≤ n) :
      ((List.range (n + 1)).map (dft v (2 * n) (samples timedata)) ++ rest).getD i 0 =
        dft v (2 * n) (samples timedata) i := by
    rw [List.getD_eq_getElem?_getD, List.getElem?_append_left (by simpa using by omega),
      List.getElem?_map, List.getElem?_range (by omega)]
    rfl
  have hreal {a : KissFftCpx ℝ} (ha : star a = a) : real a.r = a := by
    have hi := congrArg KissFftCpx.i ha
    rw [star_i] at hi
    ext
    · rfl
    · rw [real_i]
      linarith
  unfold spectrum
  split
  · rename_i hend
    rw [hget k (by omega)]
    apply hreal
    obtain rfl | rfl := hend
    · have hzero := hmirror (Nat.zero_le (2 * n))
      have hperiod := dft_add_mul hone (samples timedata) 0 1
      rw [Nat.zero_add, Nat.one_mul] at hperiod
      rw [Nat.sub_zero] at hzero
      rw [← hperiod]
      exact hzero.trans hperiod.symm
    · have hhalf := hmirror (k := k) (by omega)
      have hsub : 2 * k - k = k := by omega
      rwa [hsub] at hhalf
  · rename_i hend
    split
    · exact hget k (by omega)
    · rw [hget _ (by omega)]
      exact hmirror (by omega)

theorem isPrimitiveRoot_root (t : ℕ) (inverse : Int) :
    IsPrimitiveRoot (root (2 ^ (t + 2)) inverse) (2 ^ (t + 2)) :=
  isPrimitiveRoot_of_quarter (root_pow_quarter inverse)

/-- The two directions have inverse roots. -/
theorem root_mul_root (n : ℕ) {inverse : Int} (h : inverse ≠ 0) :
    root n 0 * root n inverse = 1 := by
  rw [root, root, ← kfCexp_add]
  have hzero : sign 0 * (2 * Real.pi / n) + sign inverse * (2 * Real.pi / n) = 0 := by
    simp [sign, h]
  rw [hzero]
  ext
  · simp [kfCexp]
  · simp [kfCexp]

/-- **The real round trip.** The inverse transform of the frequencies of any samples gives them
back, each times the length. -/
theorem kissFftri_kissFftr {nfft : ℕ} (hsize : nfft / 2 = 128 ∨ nfft / 2 = 256) {inverse : Int}
    (hinverse : inverse ≠ 0) :
    ∃ forward backward,
      KissFftrState.initialise complexTable realTable nfft 0 = some forward ∧
      KissFftrState.initialise complexTable realTable nfft inverse = some backward ∧
      ∀ (timedata out : List ℝ) (freqdata : List (KissFftCpx ℝ)),
        timedata.length = 2 * (nfft / 2) → out.length = 2 * (nfft / 2) →
        nfft / 2 < freqdata.length →
        ∃ forward' freqdata' backward',
          kissFftr forward timedata freqdata = some (forward', freqdata') ∧
          kissFftri backward freqdata' out =
            some (backward', timedata.map (((2 * (nfft / 2) : ℕ) : ℝ) * ·)) := by
  obtain ⟨forward, hforward, hn, hdirection, hexact⟩ := exactReal_of_initialise hsize 0
  obtain ⟨backward, hbackward, hn', rfl, hexact'⟩ := exactReal_of_initialise hsize inverse
  refine ⟨forward, backward, hforward, hbackward, ?_⟩
  intro timedata out freqdata htime hout hfreq
  have hroot : Principal (root (2 * (nfft / 2)) 0) (2 * (nfft / 2)) := by
    apply principal_of_isPrimitiveRoot
    obtain h | h := hsize
    · rw [h]
      exact isPrimitiveRoot_root 6 0
    · rw [h]
      exact isPrimitiveRoot_root 7 0
  generalize nfft / 2 = n at *
  obtain ⟨forward', hfft, -⟩ := @kissFftr_eq ℝ _ _ _ _ _ hexact hdirection timedata freqdata
    (by omega) (by omega) (by omega)
  rw [hn] at hfft
  obtain ⟨backward', hinv, -⟩ := @kissFftri_eq ℝ _ _ _ _ _ hexact' hinverse
    ((List.range (n + 1)).map (dft (root (2 * n) 0) (2 * n) (samples timedata)) ++
      freqdata.drop (n + 1)) out
    (by rw [hn', List.length_append, List.length_map, List.length_range]; omega) (by omega)
    (by rw [hn']; omega)
  refine ⟨forward', _, backward', hfft, ?_⟩
  rw [hn', @List.drop_of_length_le _ (2 * n) out (by omega), List.append_nil] at hinv
  rw [hinv]
  congr 2
  have hhalf : root (2 * n) 0 ^ n = -1 := by simpa only [hn] using hexact.half
  apply List.ext_getElem?
  intro i
  rw [List.getElem?_map, List.getElem?_map]
  by_cases hi : i < 2 * n
  · have hsample : timedata[i]? = some (timedata.getD i 0) := by
      rw [List.getD_eq_getElem?_getD, List.getElem?_eq_getElem (by omega)]
      rfl
    have hback : dft (root (2 * n) backward.substate.inverse) (2 * n) (spectrum n
        ((List.range (n + 1)).map (dft (root (2 * n) 0) (2 * n) (samples timedata)) ++
          freqdata.drop (n + 1))) i = (2 * n : ℕ) * samples timedata i := by
      rw [← dft_dft hroot (root_mul_root _ hinverse) _ hi]
      apply dft_congr
      intro k hk
      exact spectrum_eq hhalf hexact.norm timedata _ hk
    rw [List.getElem?_range hi, hsample, Option.map_some, Option.map_some, hback]
    simp [samples]
  · rw [List.getElem?_eq_none (by rw [List.length_range]; omega),
      List.getElem?_eq_none (by omega)]
    rfl

theorem kissFftri_kissFftr_512 :
    ∃ forward backward,
      KissFftrState.initialise complexTable realTable 512 0 = some forward ∧
      KissFftrState.initialise complexTable realTable 512 1 = some backward ∧
      ∀ (timedata out : List ℝ) (freqdata : List (KissFftCpx ℝ)),
        timedata.length = 2 * (512 / 2) → out.length = 2 * (512 / 2) →
        512 / 2 < freqdata.length →
        ∃ forward' freqdata' backward',
          kissFftr forward timedata freqdata = some (forward', freqdata') ∧
          kissFftri backward freqdata' out =
            some (backward', timedata.map (((2 * (512 / 2) : ℕ) : ℝ) * ·)) :=
  kissFftri_kissFftr (.inr (by decide)) (by decide)

end Lxst.Codec2
