import RsLxst.Codec2.Proof.Butterfly

/-!
# The FFT computes the discrete Fourier transform

`kf_work` transforms the interleaved parts of its input one after another (`transforms_eq`) and
mixes the columns of the results (`recombine_dft`). By induction on the factors it writes the
transform of its length and leaves the rest of the buffer as it was (`kfWork_eq`). A state that
`initialise` builds on an exact table is `Exact` (`initialise_spec`, `exact_of_table`), which
`kissFft_eq` asks for.
-/

set_option autoImplicit false

namespace Lxst.Codec2

open Columns Finset Fourier KissFftCpx

variable {F : Type}

/-! ## The loops of `kf_work` -/

theorem getElem?_advance {α : Type} (f : List α) (step j : Nat) :
    (advance f step)[j]? = f[step + j]? := by
  rw [advance, List.getElem?_drop]
  by_cases h : step ≤ f.length
  · rw [Nat.min_eq_left h]
  · rw [List.getElem?_eq_none (by omega), List.getElem?_eq_none (by omega)]

theorem copyIn_eq (pre : List (KissFftCpx F)) {step n : Nat} {post f : List (KissFftCpx F)}
    {x : Nat → KissFftCpx F} (hn : n ≤ post.length) (hf : ∀ j < n, f[j * step]? = some (x j)) :
    copyIn step (List.range' pre.length n) (pre ++ post) f =
      some (pre ++ (List.range n).map x ++ post.drop n) := by
  induction n generalizing pre post f x with
  | zero => simp [copyIn]
  | succ n ih =>
    obtain ⟨a, post, rfl⟩ : ∃ a rest, post = a :: rest := List.exists_cons_of_length_pos (by omega)
    have hfirst : f[0]? = some (x 0) := by simpa using hf 0 (by omega)
    have hstore : store (pre ++ a :: post) pre.length (x 0) = some (pre ++ [x 0] ++ post) := by
      rw [store, if_pos (by simp)]
      simp
    have hnext := @ih (pre ++ [x 0]) post (advance f step) (fun j => x (j + 1))
      (by simpa using hn) (fun j hj => by
        rw [getElem?_advance, ← hf (j + 1) (by omega)]
        congr 1
        ring)
    rw [List.length_append, List.length_singleton] at hnext
    rw [List.range'_succ, copyIn, hfirst]
    simp only [Option.bind_eq_bind, Option.bind_some, hstore, hnext]
    simp [List.range_succ_eq_map, Function.comp_def]

theorem transforms_eq {step m n : Nat}
    {work : List (KissFftCpx F) → List (KissFftCpx F) → Option (List (KissFftCpx F))}
    {block : Nat → List (KissFftCpx F)} (hblock : ∀ q < n, (block q).length = m)
    {pre : List (KissFftCpx F)} {a : Nat} (hpre : pre.length = a * m)
    {post f : List (KissFftCpx F)} (hpost : n * m ≤ post.length)
    (hwork : ∀ q < n, ∀ g, (∀ j, g[j]? = f[q * step + j]?) → ∀ rest, m ≤ rest.length →
      work rest g = some (block q ++ rest.drop m)) :
    transforms work step ((List.range' a n).map (· * m)) (pre ++ post) f =
      some (pre ++ (List.range n).flatMap block ++ post.drop (n * m)) := by
  induction n generalizing pre post a f block with
  | zero => simp [transforms]
  | succ n ih =>
    have hle : m ≤ post.length := by
      rw [Nat.add_mul, Nat.one_mul] at hpost
      omega
    have hfirst := hwork 0 (by omega) f (fun j => by simp) post hle
    have hnext := @ih (fun q => block (q + 1)) (fun q hq => hblock (q + 1) (by omega))
      (pre ++ block 0) (a + 1) (by rw [List.length_append, hpre, hblock 0 (by omega)]; ring)
      (post.drop m) (advance f step)
      (by rw [List.length_drop, Nat.le_sub_iff_add_le hle]; rwa [Nat.add_mul, Nat.one_mul] at hpost)
      (fun q hq g hg => hwork (q + 1) (by omega) g fun j => by
        rw [hg, getElem?_advance]
        congr 1
        ring)
    rw [List.range'_succ, List.map_cons, transforms, if_pos (by simp [hpre])]
    simp only [← hpre, List.drop_left, List.take_left, hfirst, Option.bind_eq_bind,
      Option.bind_some]
    rw [← List.append_assoc, hnext]
    simp [List.range_succ_eq_map, List.flatMap_map, Nat.add_mul, Nat.add_comm]

theorem flatMap_range_map {α : Type} (g : Nat → Nat → α) (n m : Nat) :
    (List.range n).flatMap (fun q => (List.range m).map (g q)) =
      (List.range (n * m)).map fun i => g (i / m) (i % m) := by
  induction n with
  | zero => simp
  | succ n ih =>
    rw [List.range_succ, List.flatMap_append, ih, Nat.add_mul, Nat.one_mul, List.range_add,
      List.map_append, List.flatMap_singleton, List.map_map]
    congr 1
    apply List.map_congr_left
    intro u hu
    have hu := List.mem_range.mp hu
    rw [Function.comp_apply, Nat.add_comm, entry_div hu, entry_mod hu]

/-! ## The transform -/

/-- The radices and lengths of a transform of length `n`, down to a length of one. -/
inductive Factored : List Nat → Nat → Prop
  | last {p : Nat} {rest : List Nat} : 2 ≤ p → p ≤ 5 → Factored (p :: 1 :: rest) (p * 1)
  | stage {p m : Nat} {rest : List Nat} : 2 ≤ p → p ≤ 5 → Factored rest m →
      Factored (p :: m :: rest) (p * m)

theorem Factored.two_le {factors : List Nat} {n : Nat} (h : Factored factors n) : 2 ≤ n := by
  induction h with
  | last hp _ => omega
  | stage hp _ _ ih => exact Nat.le_trans hp (Nat.le_mul_of_pos_right _ (by omega))

theorem factorise_spec {nfft : Nat} (hsize : nfft = 128 ∨ nfft = 256 ∨ nfft = 512) :
    ∃ factors, factorise nfft.sqrt nfft nfft 4 = some factors ∧
      (∀ unused, Factored (factors ++ unused) nfft) ∧ ∃ t, nfft = 2 ^ (t + 2) := by
  have h128 : Nat.sqrt 128 = 11 := (Nat.eq_sqrt.mpr (by decide)).symm
  have h256 : Nat.sqrt 256 = 16 := (Nat.eq_sqrt.mpr (by decide)).symm
  have h512 : Nat.sqrt 512 = 22 := (Nat.eq_sqrt.mpr (by decide)).symm
  have htail {p : Nat} {rest : List Nat} (hp : 2 ≤ p) (hp5 : p ≤ 5) :
      Factored (p :: 1 :: rest) p := by
    simpa using @Factored.last p rest hp hp5
  have hstage {m : Nat} {rest : List Nat} (h : Factored rest m) :
      Factored (4 :: m :: rest) (4 * m) :=
    .stage (by omega) (by omega) h
  obtain rfl | rfl | rfl := hsize
  · refine ⟨[4, 32, 4, 8, 4, 2, 2, 1], by rw [h128]; decide, fun unused => ?_, 5, rfl⟩
    exact hstage (hstage (hstage (htail (by omega) (by omega))))
  · refine ⟨[4, 64, 4, 16, 4, 4, 4, 1], by rw [h256]; decide, fun unused => ?_, 6, rfl⟩
    exact hstage (hstage (hstage (htail (by omega) (by omega))))
  · refine ⟨[4, 128, 4, 32, 4, 8, 4, 2, 2, 1], by rw [h512]; decide, fun unused => ?_, 7, rfl⟩
    exact hstage (hstage (hstage (hstage (htail (by omega) (by omega)))))

/-- The state of each length that `initialise` accepts. -/
theorem initialise_spec {N nfft : Nat} (hsize : nfft = 128 ∨ nfft = 256 ∨ nfft = 512)
    (hN : nfft ≤ N) (complexTable : Tables F) (inverse : Int) :
    ∃ st, KissFftState.initialise complexTable N nfft inverse = some st ∧ st.nfft = nfft ∧
      st.inverse = inverse ∧ st.twiddles = complexTable nfft (inverse ≠ 0) ∧
      Factored st.factors nfft ∧ ∃ t, nfft = 2 ^ (t + 2) := by
  obtain ⟨factors, hrun, hfactored, ht⟩ := factorise_spec hsize
  unfold KissFftState.initialise
  rw [if_pos ⟨hsize, hN⟩, hrun]
  exact ⟨_, rfl, rfl, rfl, rfl, hfactored _, ht⟩

section
variable [Field F] [LinearOrder F] [IsStrictOrderedRing F] {st : KissFftState F}
  {w : KissFftCpx F}

/-- The last step of a stage, on the smaller transforms. -/
theorem recombine_dft (h : Exact st w) {fstride p m : Nat} (hs : Stage st.nfft fstride p m)
    (hp : 2 ≤ p) (hp5 : p ≤ 5) (x : Nat → KissFftCpx F) (rest : List (KissFftCpx F)) :
    recombine ((List.range (p * m)).map (fun i =>
        dft (w ^ (fstride * p)) m (fun j => x (i / m + j * p)) (i % m)) ++ rest) fstride st m p =
      some ((List.range (p * m)).map (dft (w ^ fstride) (p * m) x) ++ rest) := by
  have hone : (w ^ fstride) ^ (p * m) = 1 := by
    rw [← pow_mul, hs.length, h.root.pow_eq_one]
  rw [recombine_eq h hs hp hp5 (by simp)]
  congr 1
  apply List.ext_getElem?
  intro i
  by_cases hi : i < p * m
  · obtain ⟨u, q, hu, hq, rfl⟩ : ∃ u q, u < m ∧ q < p ∧ i = u + q * m :=
      ⟨i % m, i / m, Nat.mod_lt _ hs.columns, (Nat.div_lt_iff_lt_mul hs.columns).mpr hi,
        (Nat.mod_add_div' i m).symm⟩
    have hget := getElem?_mapColumns (h := fun u x => columnMix w fstride m u x)
      (l := (List.range (p * m)).map (fun i =>
        dft (w ^ (fstride * p)) m (fun j => x (i / m + j * p)) (i % m)) ++ rest)
      (by simp) hu ⟨q, hq⟩ 0
    rw [hget, List.getElem?_append_left (by simpa using hi), List.getElem?_map,
      List.getElem?_range hi, Option.map_some, dft_mul_add hone, mix, sum_range]
    congr 1
    apply sum_congr rfl
    intro r _
    have hr : u + r * m < p * m := entry_lt hu r
    have hentry : ((List.range (p * m)).map (fun i =>
        dft (w ^ (fstride * p)) m (fun j => x (i / m + j * p)) (i % m)) ++ rest).getD
          (u + r * m) 0 = dft ((w ^ fstride) ^ p) m (fun j => x (r + j * p)) u := by
      rw [List.getD_eq_getElem?_getD, List.getElem?_append_left (by simpa using hr),
        List.getElem?_map, List.getElem?_range hr, Option.map_some, Option.getD_some, entry_div hu,
        entry_mod hu, ← pow_mul]
    refine congrArg₂ (· * ·) hentry ?_
    rw [← pow_mul, mul_left_comm]
  · rw [getElem?_mapColumns_of_le hs.columns (by omega), List.getElem?_append_right (by simpa using hi),
      List.getElem?_append_right (by simpa using hi)]
    simp

theorem kfWork_eq (h : Exact st w) (inStride : Nat) {factors : List Nat} {n : Nat}
    (hfactors : Factored factors n) {fstride : Nat} (hpos : 0 < fstride)
    (hlength : fstride * n = st.nfft) {Fout f : List (KissFftCpx F)} {x : Nat → KissFftCpx F}
    (hout : n ≤ Fout.length) (hf : ∀ j < n, f[j * (fstride * inStride)]? = some (x j)) :
    kfWork st inStride factors fstride Fout f =
      some ((List.range n).map (dft (w ^ fstride) n x) ++ Fout.drop n) := by
  induction hfactors generalizing fstride Fout f x with
  | @last p rest hp hp5 =>
    have hs : Stage st.nfft fstride p 1 := ⟨hlength, hpos, by omega, by omega⟩
    have hcopy := copyIn_eq [] hout hf
    have hmix := recombine_dft h hs hp hp5 x (Fout.drop (p * 1))
    simp only [dft_one, Nat.div_one, Nat.zero_mul, Nat.add_zero] at hmix
    rw [List.length_nil, List.nil_append, List.nil_append, ← List.range_eq_range'] at hcopy
    rw [kfWork, if_pos rfl, hcopy]
    exact hmix
  | @stage p m rest hp hp5 hrest ih =>
    have htwo := hrest.two_le
    have hs : Stage st.nfft fstride p m := ⟨hlength, hpos, by omega, by omega⟩
    have hparts := @transforms_eq F (fstride * inStride) m p
      (kfWork st inStride rest (fstride * p))
      (fun q => (List.range m).map (dft (w ^ (fstride * p)) m fun j => x (q + j * p)))
      (fun q _ => by simp) [] 0 (by simp) Fout f hout (fun q hq g hg tail htail => by
        apply ih (by positivity) (by rw [← hlength]; ring) htail
        intro j hj
        have hlt : q + j * p < p * m := by
          rw [mul_comm p m]
          exact entry_lt hq ⟨j, hj⟩
        rw [hg, ← hf (q + j * p) hlt]
        congr 1
        ring)
    rw [List.nil_append, List.nil_append, flatMap_range_map, ← List.range_eq_range'] at hparts
    rw [kfWork, if_neg (by omega), if_neg (by omega), hparts]
    exact recombine_dft h hs hp hp5 x (Fout.drop (p * m))

/-! ## The states of `initialise` -/

/-- The norm of a root of one. -/
theorem star_mul_self_of_root {w : KissFftCpx F} {n : Nat} (hn : n ≠ 0) (hw : w ^ n = 1) :
    star w * w = 1 := by
  have hreal : star w * w = real (w.r * w.r + w.i * w.i) := by
    ext
    · simp
    · simp
      ring
  have hpow (k : Nat) : real (w.r * w.r + w.i * w.i) ^ k =
      real ((w.r * w.r + w.i * w.i) ^ k) := by
    induction k with
    | zero =>
      rw [pow_zero, pow_zero]
      rfl
    | succ k ih =>
      rw [pow_succ, ih, pow_succ]
      ext <;> simp
  have hone : (star w * w) ^ n = 1 := by rw [mul_pow, ← star_pow, hw, star_one, one_mul]
  rw [hreal, hpow] at hone
  have hnorm : (w.r * w.r + w.i * w.i) ^ n = 1 := congrArg KissFftCpx.r hone
  have hpos : 0 ≤ w.r * w.r + w.i * w.i :=
    add_nonneg (mul_self_nonneg _) (mul_self_nonneg _)
  rw [hreal, (pow_eq_one_iff_of_nonneg hpos hn).mp hnorm]
  rfl

/-- A quarter turn after a quarter of a power of two makes the root primitive. -/
theorem isPrimitiveRoot_of_quarter {w : KissFftCpx F} {t : Nat} {inverse : Int}
    (hw : w ^ 2 ^ t = quarterTurn inverse) : IsPrimitiveRoot w (2 ^ (t + 2)) := by
  have hhalf : w ^ 2 ^ (t + 1) = -1 := by
    rw [pow_succ 2 t, pow_mul, hw, sq, quarterTurn_mul_self]
  have hne : ¬ w ^ 2 ^ (t + 1) = 1 := by
    rw [hhalf]
    intro h
    have : (-1 : F) = 1 := congrArg KissFftCpx.r h
    linarith
  have hone : w ^ 2 ^ (t + 2) = 1 := by
    rw [pow_succ 2 (t + 1), pow_mul, hhalf, neg_one_sq]
  rw [← orderOf_eq_prime_pow hne hone]
  exact IsPrimitiveRoot.orderOf w

/-- A table of the length: the powers of a root that takes the quarter turn of its direction. -/
structure ExactTable (table : List (KissFftCpx F)) (w : KissFftCpx F) (nfft : Nat)
    (inverse : Int) : Prop where
  powers : table = (List.range nfft).map (w ^ ·)
  quarter : w ^ (nfft / 4) = quarterTurn inverse

theorem exact_of_table {st : KissFftState F} {w : KissFftCpx F} {t : Nat}
    (ht : st.nfft = 2 ^ (t + 2))
    (htable : ExactTable st.twiddles w st.nfft st.inverse) : Exact st w := by
  have hquarter : st.nfft / 4 = 2 ^ t := by
    rw [ht, pow_add]
    exact Nat.mul_div_cancel (2 ^ t) (by decide)
  have hroot : IsPrimitiveRoot w st.nfft := by
    rw [ht]
    apply isPrimitiveRoot_of_quarter
    rw [← hquarter]
    exact htable.quarter
  have hpos : st.nfft ≠ 0 := by
    rw [ht]
    positivity
  exact ⟨htable.powers, hroot, star_mul_self_of_root hpos hroot.pow_eq_one,
    fun _ => htable.quarter⟩

theorem kissFft_eq {st : KissFftState F} {w : KissFftCpx F} (h : Exact st w)
    (hfactors : Factored st.factors st.nfft) {fin fout : List (KissFftCpx F)}
    (hin : st.nfft ≤ fin.length) (hout : st.nfft ≤ fout.length) :
    kissFft st fin fout =
      some ((List.range st.nfft).map (dft w st.nfft (fin.getD · 0)) ++ fout.drop st.nfft) := by
  have := kfWork_eq h 1 hfactors Nat.one_pos (Nat.one_mul _) hout (f := fin)
    (x := (fin.getD · 0)) (fun j hj => by
      have hj : j < fin.length := Nat.lt_of_lt_of_le hj hin
      rw [Nat.mul_one, List.getD_eq_getElem?_getD, List.getElem?_eq_getElem hj]
      rfl)
  rwa [pow_one] at this

end

end Lxst.Codec2
