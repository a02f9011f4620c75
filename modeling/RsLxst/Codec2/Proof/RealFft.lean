import RsLxst.Codec2.Proof.KissFft

/-!
# The real FFT and its inverse
-/

set_option autoImplicit false

namespace Lxst.Codec2

open Finset Fourier KissFftCpx

/-! ## Loops that write an entry and its mirror image -/

theorem mapM_some {α β : Type} {f : α → Option β} {g : α → β} {l : List α}
    (h : ∀ a ∈ l, f a = some (g a)) : l.mapM f = some (l.map g) := by
  induction l with
  | nil => rfl
  | cons a l ih =>
    obtain ⟨ha, hl⟩ := List.forall_mem_cons.mp h
    rw [List.mapM_cons, ha, ih hl]
    rfl

/-- After `c` steps of a loop that writes `T k` at `k` and `T (n - k)` at `n - k`. -/
theorem foldlM_mirrored {α : Type} {n : Nat} {T : Nat → α} {l : List α}
    {step : List α → Nat → Option (List α)}
    (hstep : ∀ k, 1 ≤ k → k ≤ n / 2 → ∀ l', l'.length = l.length →
      step l' k = some ((l'.set k (T k)).set (n - k) (T (n - k)))) (hn : n ≤ l.length) {c : Nat}
    (hc : c ≤ n / 2) :
    ∃ l', (List.range' 1 c).foldlM step l = some l' ∧ l'.length = l.length ∧
      ∀ i, l'[i]? = if 1 ≤ i ∧ i ≤ c ∨ n - c ≤ i ∧ i < n then some (T i) else l[i]? := by
  induction c with
  | zero =>
    refine ⟨l, rfl, rfl, fun i => ?_⟩
    rw [if_neg (by omega)]
  | succ c ih =>
    obtain ⟨l', hrun, hlength, hentries⟩ := ih (by omega)
    refine ⟨(l'.set (c + 1) (T (c + 1))).set (n - (c + 1)) (T (n - (c + 1))), ?_, by simpa, ?_⟩
    · rw [List.range'_concat, List.foldlM_append, hrun]
      show (List.foldlM step l' [1 + 1 * c]) = _
      rw [List.foldlM_cons, Nat.one_mul, Nat.add_comm 1 c,
        hstep (c + 1) (by omega) hc l' hlength]
      rfl
    · intro i
      rw [List.getElem?_set, List.getElem?_set, hentries, List.length_set, hlength]
      by_cases h1 : n - (c + 1) = i
      · subst h1
        rw [if_pos rfl, if_pos (by omega), if_pos (by omega)]
      · rw [if_neg h1]
        by_cases h2 : c + 1 = i
        · subst h2
          rw [if_pos rfl, if_pos (by omega), if_pos (by omega)]
        · rw [if_neg h2]
          have hsame : (1 ≤ i ∧ i ≤ c ∨ n - c ≤ i ∧ i < n) ↔
              (1 ≤ i ∧ i ≤ c + 1 ∨ n - (c + 1) ≤ i ∧ i < n) := by omega
          simp only [hsame]

/-- A list by its entries up to `n`. -/
theorem eq_map_append_drop {α : Type} {n : Nat} {T : Nat → α} {l l' : List α}
    (hlt : ∀ i < n, l'[i]? = some (T i))
    (hle : ∀ i, n ≤ i → l'[i]? = l[i]?) : l' = (List.range n).map T ++ l.drop n := by
  apply List.ext_getElem?
  intro i
  by_cases hi : i < n
  · rw [hlt i hi, List.getElem?_append_left (by simpa using hi), List.getElem?_map,
      List.getElem?_range hi]
    rfl
  · rw [hle i (by omega), List.getElem?_append_right (by simpa using hi), List.length_map,
      List.length_range, List.getElem?_drop, Nat.add_sub_cancel' (by omega)]

variable {F : Type}

theorem unpackPairs_append (z : List (KissFftCpx F)) {done : List F} {a : Nat} {rest : List F}
    (hdone : done.length = a * 2) (hrest : 2 * z.length ≤ rest.length) :
    (z.zipIdx a).foldlM unpackPair (done ++ rest) =
      some (done ++ z.flatMap (fun c => [c.r, c.i]) ++ rest.drop (2 * z.length)) := by
  induction z generalizing done rest a with
  | nil => simp
  | cons c z ih =>
    rw [List.length_cons, Nat.mul_succ] at hrest
    obtain ⟨x, y, rest, rfl⟩ : ∃ x y tail, rest = x :: y :: tail := by
      match rest, hrest with
      | x :: y :: tail, _ => exact ⟨x, y, tail, rfl⟩
    have hfirst : store (done ++ x :: y :: rest) (a * 2) c.r =
        some (done ++ c.r :: y :: rest) := by
      rw [store_eq (by rw [List.length_append, hdone, List.length_cons]; omega), ← hdone]
      simp
    have hnext : store (done ++ c.r :: y :: rest) (a * 2 + 1) c.i =
        some (done ++ [c.r, c.i] ++ rest) := by
      rw [store_eq (by simp [hdone]), ← hdone]
      simp
    have hstep : unpackPair (done ++ x :: y :: rest) (c, a) =
        some (done ++ [c.r, c.i] ++ rest) := by
      rw [unpackPair, hfirst]
      exact hnext
    rw [List.length_cons, List.length_cons] at hrest
    rw [List.zipIdx_cons, List.foldlM_cons, hstep, Option.bind_eq_bind, Option.bind_some,
      ih (by rw [List.length_append, hdone, List.length_cons, List.length_singleton]; omega)
        (by omega)]
    simp [Nat.mul_succ]

theorem unpackPairs_eq {z : List (KissFftCpx F)} {timedata : List F}
    (h : 2 * z.length ≤ timedata.length) :
    unpackPairs z timedata =
      some (z.flatMap (fun c => [c.r, c.i]) ++ timedata.drop (2 * z.length)) := by
  have hrun := @unpackPairs_append F z [] 0 timedata rfl h
  rwa [List.nil_append, List.nil_append] at hrun

section
variable [Field F]

/-- A state of the real FFT, for a root `v` of twice the length. -/
structure ExactReal (st : KissFftrState F) (v : KissFftCpx F) : Prop where
  substate : Exact st.substate (v ^ 2)
  factors : Factored st.substate.factors st.substate.nfft
  half : v ^ st.substate.nfft = -1
  norm : star v * v = 1
  tmpbuf : st.tmpbuf.length = st.substate.nfft
  room : st.substate.nfft ≤ 256
  superTwiddles : st.superTwiddles = (List.range (st.substate.nfft / 2)).map
    fun k => quarterTurn st.substate.inverse * v ^ (k + 1)

/-- The super twiddle of the pair `k`. -/
theorem ExactReal.superTwiddle {st : KissFftrState F} {v : KissFftCpx F} (h : ExactReal st v)
    {k : Nat} (h1 : 1 ≤ k) (hk : k ≤ st.substate.nfft / 2) :
    st.superTwiddles[k - 1]? = some (quarterTurn st.substate.inverse * v ^ k) := by
  rw [h.superTwiddles, List.getElem?_map, List.getElem?_range (by omega), Option.map_some,
    Nat.sub_add_cancel h1]

/-- The state after a call: only the scratch is another. -/
theorem ExactReal.withTmpbuf {st : KissFftrState F} {v : KissFftCpx F} (h : ExactReal st v)
    {tmpbuf : List (KissFftCpx F)} (hlength : tmpbuf.length = st.substate.nfft) :
    ExactReal { st with tmpbuf } v :=
  ⟨h.substate, h.factors, h.half, h.norm, hlength, h.room, h.superTwiddles⟩

theorem negatedPart_eq (a : KissFftCpx F) : negatedPart a = star a := by
  ext <;> simp [negatedPart]

/-- The samples as complex values. -/
def samples (timedata : List F) (j : Nat) : KissFftCpx F := real (timedata.getD j 0)

theorem packPairs_eq {timedata : List F} (h : timedata.length / 2 ≤ 256) :
    packPairs timedata =
      some ((List.range (timedata.length / 2)).map (packed unit (samples timedata))) := by
  rw [packPairs, if_pos h]
  apply mapM_some
  intro i hi
  have hi := List.mem_range.mp hi
  have hfirst : timedata[i * 2]? = some (timedata.getD (2 * i) 0) := by
    rw [Nat.mul_comm i 2, List.getD_eq_getElem?_getD, List.getElem?_eq_getElem (by omega)]
    rfl
  have hnext : timedata[i * 2 + 1]? = some (timedata.getD (2 * i + 1) 0) := by
    rw [Nat.mul_comm i 2, List.getD_eq_getElem?_getD, List.getElem?_eq_getElem (by omega)]
    rfl
  rw [hfirst, hnext, packed, samples, samples]
  simp only [Option.bind_eq_bind, Option.bind_some, Option.pure_def, Option.some.injEq]
  ext <;> simp

/-- The frequencies of a real sequence of length `2 * n`, from the first `n + 1`. -/
def spectrum (n : Nat) (freqdata : List (KissFftCpx F)) (k : Nat) : KissFftCpx F :=
  if k = 0 ∨ k = n then real (freqdata.getD k 0).r
  else if k < n then freqdata.getD k 0
  else star (freqdata.getD (2 * n - k) 0)

theorem star_spectrum (freqdata : List (KissFftCpx F)) {n k : Nat} (h1 : 0 < k)
    (hk : k < 2 * n) : star (spectrum n freqdata k) = spectrum n freqdata (2 * n - k) := by
  unfold spectrum
  by_cases hmid : k = n
  · have hsub : 2 * n - k = n := by omega
    rw [hsub, if_pos (.inr hmid), if_pos (.inr rfl), star_real, hmid]
  · have hne : ¬ (k = 0 ∨ k = n) := by omega
    have hne' : ¬ (2 * n - k = 0 ∨ 2 * n - k = n) := by omega
    rw [if_neg hne, if_neg hne']
    by_cases hlt : k < n
    · rw [if_pos hlt, if_neg (by omega), Nat.sub_sub_self (by omega)]
    · rw [if_neg hlt, if_pos (by omega), star_star]

/-- What the folding loop leaves in the scratch at `k`. -/
def folded (v : KissFftCpx F) (n : Nat) (y : Nat → KissFftCpx F) (k : Nat) : KissFftCpx F :=
  y k + y (n + k) + (y k - y (n + k)) * (unit * v ^ k)

theorem fftriPair_eq {st : KissFftrState F} {v : KissFftCpx F} (h : ExactReal st v)
    (hinverse : st.substate.inverse ≠ 0)
    {freqdata tmpbuf : List (KissFftCpx F)} {k : Nat} (h1 : 1 ≤ k)
    (hk : k ≤ st.substate.nfft / 2) (hin : st.substate.nfft < freqdata.length)
    (hout : tmpbuf.length = st.substate.nfft) :
    fftriPair st.substate.nfft freqdata st.superTwiddles tmpbuf k =
      some ((tmpbuf.set k (folded v st.substate.nfft (spectrum st.substate.nfft freqdata) k)).set
        (st.substate.nfft - k)
        (folded v st.substate.nfft (spectrum st.substate.nfft freqdata) (st.substate.nfft - k))) := by
  generalize hn : st.substate.nfft = n at *
  have hturn : quarterTurn st.substate.inverse = (unit : KissFftCpx F) := if_pos hinverse
  have hget (i : Nat) (h0 : i ≠ 0) (hi : i < n) :
      freqdata[i]? = some (spectrum n freqdata i) := by
    rw [spectrum, if_neg (by omega), if_pos hi, List.getD_eq_getElem?_getD,
      List.getElem?_eq_getElem (by omega)]
    rfl
  have hmirror : star (spectrum n freqdata (n - k)) = spectrum n freqdata (n + k) := by
    rw [star_spectrum freqdata (by omega) (by omega)]
    congr 1
    omega
  have hmirror' : star (spectrum n freqdata k) = spectrum n freqdata (n + (n - k)) := by
    rw [star_spectrum freqdata (by omega) (by omega)]
    congr 1
    omega
  have hpow : v ^ (n - k) = -star (v ^ k) := by
    have hneg : v ^ (n - k) * v ^ k = -1 := by
      rw [← pow_add, Nat.sub_add_cancel (by omega), ← hn, h.half]
    calc v ^ (n - k) = v ^ (n - k) * (star (v ^ k) * v ^ k) := by
          rw [star_pow_mul h.norm, mul_one]
      _ = star (v ^ k) * (v ^ (n - k) * v ^ k) := by ring
      _ = -star (v ^ k) := by rw [hneg, mul_neg_one]
  rw [fftriPair, hget k (by omega) (by omega), hget (n - k) (by omega) (by omega),
    h.superTwiddle h1 (by omega), hturn]
  simp only [Option.bind_eq_bind, Option.bind_some, negatedPart_eq, cAdd_eq, cSub_eq, cMul_eq,
    hmirror]
  rw [store_eq (by omega)]
  simp only [Option.bind_some]
  rw [store_eq (by rw [List.length_set]; omega)]
  have hlast : folded v n (spectrum n freqdata) (n - k) =
      star (folded v n (spectrum n freqdata) k - 2 * ((spectrum n freqdata k -
        spectrum n freqdata (n + k)) * (unit * v ^ k))) := by
    unfold folded
    rw [← hmirror', ← hmirror, hpow]
    simp only [star_sub, star_add, star_mul', star_star, star_unit, star_ofNat]
    ring
  rw [hlast]
  congr 2
  ext
  · simp [folded, -star_pow]
    ring
  · simp [folded, -star_pow]
    ring

/-- The entry of the folded scratch at zero, from the real parts of the ends. -/
theorem folded_zero (v : KissFftCpx F) (n : Nat) (freqdata : List (KissFftCpx F)) :
    folded v n (spectrum n freqdata) 0 =
      { r := (freqdata.getD 0 0).r + (freqdata.getD n 0).r,
        i := (freqdata.getD 0 0).r - (freqdata.getD n 0).r } := by
  rw [folded, Nat.add_zero, pow_zero, mul_one, spectrum, if_pos (.inl rfl), spectrum,
    if_pos (.inr rfl)]
  ext
  · simp
  · simp

/-- The scratch after the folding loop. -/
theorem fftri_folded {st : KissFftrState F} {v : KissFftCpx F} (h : ExactReal st v)
    (hinverse : st.substate.inverse ≠ 0)
    {freqdata : List (KissFftCpx F)} (hin : st.substate.nfft < freqdata.length) :
    (List.range' 1 (st.substate.nfft / 2)).foldlM
        (fftriPair st.substate.nfft freqdata st.superTwiddles)
        (st.tmpbuf.set 0 (folded v st.substate.nfft (spectrum st.substate.nfft freqdata) 0)) =
      some ((List.range st.substate.nfft).map
        (folded v st.substate.nfft (spectrum st.substate.nfft freqdata))) := by
  have htwo := h.factors.two_le
  have hstep : ∀ k, 1 ≤ k → k ≤ st.substate.nfft / 2 → ∀ l : List (KissFftCpx F),
      l.length = (st.tmpbuf.set 0
        (folded v st.substate.nfft (spectrum st.substate.nfft freqdata) 0)).length →
      fftriPair st.substate.nfft freqdata st.superTwiddles l k =
      some ((l.set k (folded v st.substate.nfft (spectrum st.substate.nfft freqdata) k)).set
        (st.substate.nfft - k) (folded v st.substate.nfft
          (spectrum st.substate.nfft freqdata) (st.substate.nfft - k))) := by
    intro k h1 hk l hl
    rw [List.length_set, h.tmpbuf] at hl
    exact fftriPair_eq h hinverse h1 hk hin hl
  obtain ⟨out, hrun, hlength, hentries⟩ :=
    foldlM_mirrored hstep (by rw [List.length_set, h.tmpbuf]) (Nat.le_refl _)
  rw [List.length_set, h.tmpbuf] at hlength
  have hout : out = (List.range st.substate.nfft).map
      (folded v st.substate.nfft (spectrum st.substate.nfft freqdata)) ++
        st.tmpbuf.drop st.substate.nfft := by
    apply eq_map_append_drop
    · intro i hi
      rw [hentries]
      by_cases hmid : 1 ≤ i
      · rw [if_pos (by omega)]
      · obtain rfl : i = 0 := by omega
        rw [if_neg (by omega), List.getElem?_set, if_pos rfl, if_pos (by rw [h.tmpbuf]; omega)]
    · intro i hi
      rw [hentries, if_neg (by omega), List.getElem?_set_ne (by omega)]
  rw [List.drop_of_length_le (Nat.le_of_eq h.tmpbuf), List.append_nil] at hout
  rw [hrun, hout]

end

section
variable [Field F] [LinearOrder F] [IsStrictOrderedRing F] {st : KissFftrState F}
  {v : KissFftCpx F}

/-! ## The forward transform -/

/-- The scratch holds the transform of the packed samples. -/
theorem kissFft_packed (h : ExactReal st v) {timedata : List F}
    (hin : 2 * st.substate.nfft ≤ timedata.length) :
    kissFft st.substate ((List.range (timedata.length / 2)).map (packed unit (samples timedata)))
        st.tmpbuf =
      some ((List.range st.substate.nfft).map
        (dft (v ^ 2) st.substate.nfft (packed unit (samples timedata)))) := by
  rw [kissFft_eq h.substate h.factors (by rw [List.length_map, List.length_range]; omega)
    (Nat.le_of_eq h.tmpbuf.symm), List.drop_of_length_le (Nat.le_of_eq h.tmpbuf), List.append_nil]
  congr 1
  apply List.map_congr_left
  intro k _
  apply dft_congr
  intro j hj
  rw [List.getD_eq_getElem?_getD, List.getElem?_map, List.getElem?_range (by omega)]
  rfl

/-- A value from twice it, as the code halves it. -/
theorem eq_halfOf {a b : KissFftCpx F} (h : 2 * a = b) :
    a = { r := halfOf b.r, i := halfOf b.i } := by
  subst h
  ext <;> simp [halfOf]

theorem fftrPair_eq (h : ExactReal st v) (hinverse : st.substate.inverse = 0)
    {timedata : List F} {freqdata : List (KissFftCpx F)} {k : Nat} (h1 : 1 ≤ k)
    (hk : k ≤ st.substate.nfft / 2) (hout : st.substate.nfft < freqdata.length) :
    fftrPair st.substate.nfft ((List.range st.substate.nfft).map
        (dft (v ^ 2) st.substate.nfft (packed unit (samples timedata)))) st.superTwiddles
        freqdata k =
      some ((freqdata.set k (dft v (2 * st.substate.nfft) (samples timedata) k)).set
        (st.substate.nfft - k)
        (dft v (2 * st.substate.nfft) (samples timedata) (st.substate.nfft - k))) := by
  have hreal : ∀ j < 2 * st.substate.nfft, star (samples timedata j) = samples timedata j :=
    fun j _ => star_real _
  have hle : k ≤ st.substate.nfft := by omega
  have hfirst := two_mul_dft_real h.half h.norm unit_mul_unit star_unit hreal hle
  have hnext := two_mul_dft_real_sub h.half h.norm unit_mul_unit star_unit hreal hle
  have hturn : quarterTurn st.substate.inverse = (-unit : KissFftCpx F) := by
    simp [quarterTurn, hinverse]
  rw [eq_halfOf hfirst, eq_halfOf hnext, fftrPair, h.superTwiddle h1 hk, hturn]
  generalize hz : dft (v ^ 2) st.substate.nfft (packed unit (samples timedata)) = Z
  rw [List.getElem?_map, List.getElem?_map, List.getElem?_range (by omega),
    List.getElem?_range (by omega)]
  simp only [Option.map_some, Option.bind_eq_bind, Option.bind_some, negatedPart_eq, cAdd_eq,
    cSub_eq, cMul_eq]
  rw [store_eq (by omega)]
  simp only [Option.bind_some]
  rw [store_eq (by rw [List.length_set]; omega)]
  congr 2
  ext
  · simp only [star_r, sub_r]
  · simp only [star_i, sub_i]
    congr 1
    ring

/-- The first and the last frequency, from the first value of the scratch. -/
theorem dft_ends (h : ExactReal st v) (timedata : List F) :
    let first := dft (v ^ 2) st.substate.nfft (packed unit (samples timedata)) 0
    dft v (2 * st.substate.nfft) (samples timedata) 0 =
        { r := first.r + first.i, i := 0 } ∧
      dft v (2 * st.substate.nfft) (samples timedata) st.substate.nfft =
        { r := first.r - first.i, i := 0 } := by
  intro first
  have hreal : ∀ j < 2 * st.substate.nfft, star (samples timedata j) = samples timedata j :=
    fun j _ => star_real _
  have hperiod : dft (v ^ 2) st.substate.nfft (packed unit (samples timedata))
      st.substate.nfft = first := by
    have := dft_add_mul h.substate.root.pow_eq_one (packed unit (samples timedata)) 0 1
    rwa [Nat.zero_add, Nat.one_mul] at this
  have hlow := two_mul_dft_real h.half h.norm unit_mul_unit star_unit hreal (Nat.zero_le _)
  have hhigh := two_mul_dft_real h.half h.norm unit_mul_unit star_unit hreal (Nat.le_refl _)
  rw [Nat.sub_zero, hperiod, pow_zero, mul_one] at hlow
  rw [Nat.sub_self, hperiod, h.half] at hhigh
  rw [eq_halfOf hlow, eq_halfOf hhigh]
  refine ⟨?_, ?_⟩
  · ext
    · simp [halfOf]
      ring
    · simp [halfOf, first]
  · ext
    · simp [halfOf]
      ring
    · simp [halfOf, first]

theorem kissFftr_eq (h : ExactReal st v) (hinverse : st.substate.inverse = 0) {timedata : List F}
    {freqdata : List (KissFftCpx F)} (hin : 2 * st.substate.nfft ≤ timedata.length)
    (hroom : timedata.length / 2 ≤ 256) (hout : st.substate.nfft < freqdata.length) :
    ∃ st', kissFftr st timedata freqdata =
        some (st', (List.range (st.substate.nfft + 1)).map
          (dft v (2 * st.substate.nfft) (samples timedata)) ++
            freqdata.drop (st.substate.nfft + 1)) ∧ st'.substate = st.substate ∧ ExactReal st' v := by
  have hpos : 0 < st.substate.nfft := by
    have := h.factors.two_le
    omega
  obtain ⟨hzero, hlast⟩ := dft_ends h timedata
  have hstep : ∀ k, 1 ≤ k → k ≤ st.substate.nfft / 2 → ∀ l : List (KissFftCpx F),
      l.length = ((freqdata.set 0 (dft v (2 * st.substate.nfft) (samples timedata) 0)).set
        st.substate.nfft
        (dft v (2 * st.substate.nfft) (samples timedata) st.substate.nfft)).length →
      fftrPair st.substate.nfft ((List.range st.substate.nfft).map
        (dft (v ^ 2) st.substate.nfft (packed unit (samples timedata)))) st.superTwiddles l k =
      some ((l.set k (dft v (2 * st.substate.nfft) (samples timedata) k)).set
        (st.substate.nfft - k)
        (dft v (2 * st.substate.nfft) (samples timedata) (st.substate.nfft - k))) := by
    intro k h1 hk l hl
    rw [List.length_set, List.length_set] at hl
    exact fftrPair_eq h hinverse h1 hk (by omega)
  obtain ⟨out, hrun, hlength, hentries⟩ :=
    foldlM_mirrored hstep (by rw [List.length_set, List.length_set]; omega) (Nat.le_refl _)
  rw [List.length_set, List.length_set] at hlength
  have hout' : out = (List.range (st.substate.nfft + 1)).map
      (dft v (2 * st.substate.nfft) (samples timedata)) ++
        freqdata.drop (st.substate.nfft + 1) := by
    apply eq_map_append_drop
    · intro i hi
      rw [hentries]
      by_cases hmid : 1 ≤ i ∧ i < st.substate.nfft
      · rw [if_pos (by omega)]
      · rw [if_neg (by omega), List.getElem?_set, List.getElem?_set, List.length_set]
        by_cases hzero : i = 0
        · subst hzero
          rw [if_neg (by omega), if_pos rfl, if_pos (by omega)]
        · obtain rfl : i = st.substate.nfft := by omega
          rw [if_pos rfl, if_pos hout]
    · intro i hi
      rw [hentries, if_neg (by omega), List.getElem?_set_ne (by omega),
        List.getElem?_set_ne (by omega)]
  refine ⟨{ st with
    tmpbuf := (List.range st.substate.nfft).map
      (dft (v ^ 2) st.substate.nfft (packed unit (samples timedata))) }, ?_, rfl,
    h.withTmpbuf (by rw [List.length_map, List.length_range])⟩
  rw [kissFftr, packPairs_eq hroom]
  simp only [Option.bind_eq_bind, Option.bind_some, kissFft_packed h hin]
  rw [List.getElem?_map, List.getElem?_range hpos, Option.map_some]
  simp only [Option.bind_some]
  rw [← hzero, ← hlast, store_eq (by omega)]
  simp only [Option.bind_some]
  rw [store_eq (by rw [List.length_set]; omega)]
  simp only [Option.bind_some, hrun, Option.pure_def, hout']

/-! ## The inverse transform -/

/-- A sample pair: the fold of the frequencies transforms to two real values. -/
theorem dft_folded (h : ExactReal st v) (freqdata : List (KissFftCpx F)) (j : Nat) :
    dft (v ^ 2) st.substate.nfft (folded v st.substate.nfft (spectrum st.substate.nfft freqdata))
        j =
      { r := (dft v (2 * st.substate.nfft) (spectrum st.substate.nfft freqdata) (2 * j)).r,
        i := (dft v (2 * st.substate.nfft) (spectrum st.substate.nfft freqdata)
          (2 * j + 1)).r } := by
  have hone : v ^ (2 * st.substate.nfft) = 1 := by rw [mul_comm, pow_mul, h.half, neg_one_sq]
  have hzero : star (spectrum st.substate.nfft freqdata 0) =
      spectrum st.substate.nfft freqdata 0 := by
    rw [spectrum, if_pos (.inl rfl), star_real]
  have himag (k : Nat) :
      (dft v (2 * st.substate.nfft) (spectrum st.substate.nfft freqdata) k).i = 0 := by
    have hstar := star_dft_of_symmetric hone h.norm hzero
      (fun k h1 hk => star_spectrum freqdata h1 hk) k
    have hneg := congrArg KissFftCpx.i hstar
    rw [star_i] at hneg
    linarith
  have hfold := dft_fold (i := unit) h.half (spectrum st.substate.nfft freqdata) j
  unfold folded
  rw [hfold]
  ext
  · simp [himag]
  · simp [himag]

theorem kissFftri_eq (h : ExactReal st v) (hinverse : st.substate.inverse ≠ 0)
    {freqdata : List (KissFftCpx F)} {timedata : List F}
    (hin : st.substate.nfft < freqdata.length) (hroom : timedata.length / 2 ≤ 256)
    (hout : timedata.length / 2 = st.substate.nfft) :
    ∃ st', kissFftri st freqdata timedata =
        some (st', (List.range (2 * st.substate.nfft)).map (fun j =>
          (dft v (2 * st.substate.nfft) (spectrum st.substate.nfft freqdata) j).r) ++
            timedata.drop (2 * st.substate.nfft)) ∧
      st'.substate = st.substate ∧ ExactReal st' v := by
  have htwo := h.factors.two_le
  have hpairs : ∀ n, (List.range n).flatMap (fun j =>
      [(dft v (2 * st.substate.nfft) (spectrum st.substate.nfft freqdata) (2 * j)).r,
        (dft v (2 * st.substate.nfft) (spectrum st.substate.nfft freqdata) (2 * j + 1)).r]) =
      (List.range (2 * n)).map fun j =>
        (dft v (2 * st.substate.nfft) (spectrum st.substate.nfft freqdata) j).r := by
    intro n
    induction n with
    | zero => rfl
    | succ n ih =>
      rw [List.range_succ, List.flatMap_append, ih, Nat.mul_succ, List.range_succ, List.range_succ,
        List.map_append, List.map_append, List.append_assoc]
      rfl
  have hwork : kissFft st.substate ((List.range st.substate.nfft).map
      (folded v st.substate.nfft (spectrum st.substate.nfft freqdata)))
      (List.replicate (timedata.length / 2) new) = some ((List.range st.substate.nfft).map fun j =>
        { r := (dft v (2 * st.substate.nfft) (spectrum st.substate.nfft freqdata) (2 * j)).r,
          i := (dft v (2 * st.substate.nfft) (spectrum st.substate.nfft freqdata)
            (2 * j + 1)).r }) := by
    rw [kissFft_eq h.substate h.factors (by simp) (by simp [hout]),
      List.drop_of_length_le (by simp [hout]), List.append_nil]
    congr 1
    apply List.map_congr_left
    intro j _
    rw [← dft_folded h]
    apply dft_congr
    intro k hk
    rw [List.getD_eq_getElem?_getD, List.getElem?_map, List.getElem?_range hk]
    rfl
  refine ⟨{ st with
    tmpbuf := (List.range st.substate.nfft).map
      (folded v st.substate.nfft (spectrum st.substate.nfft freqdata)) }, ?_, rfl,
    h.withTmpbuf (by rw [List.length_map, List.length_range])⟩
  have hget (i : Nat) (hi : i < freqdata.length) : freqdata[i]? = some (freqdata.getD i 0) := by
    rw [List.getD_eq_getElem?_getD, List.getElem?_eq_getElem hi]
    rfl
  rw [kissFftri, hget 0 (by omega), hget _ hin]
  simp only [Option.bind_eq_bind, Option.bind_some]
  rw [← folded_zero v, store_eq (by rw [h.tmpbuf]; omega)]
  simp only [Option.bind_some, fftri_folded h hinverse hin, if_pos hroom, hwork]
  rw [unpackPairs_eq (by rw [List.length_map, List.length_range]; omega), List.flatMap_map,
    List.length_map, List.length_range]
  simp only [Option.bind_some, Option.pure_def, hpairs]

end

end Lxst.Codec2
