import Mathlib.Analysis.SpecialFunctions.Trigonometric.Basic
import Mathlib.Data.Fin.VecNotation
import RsLxst.Codec2.Complex
import RsLxst.Lib.Columns

/-!
# The mixed-radix FFT

`lxst-codec2/src/native/kiss_fft.rs`, the two states and their `initialise` of `native/mod.rs`, and
the assertions of `fft_tables.rs`. A slice is a list; an index or a slice out of range, and an
assertion that fails, is `none`. Taking `&mut Fout[1..]` after each step of a butterfly is stepping
the column `u`, and a butterfly reads and writes the entries at `u`, `u + m`, … of `Fout`. The
tables of `fft_coefficients.rs` are parameters.
-/

set_option autoImplicit false

namespace Lxst.Codec2

open Columns KissFftCpx

variable {F : Type} [Field F]

/-! ## States -/

def MAXFACTORS : Nat := 32

structure KissFftState (F : Type) where
  nfft : Nat
  inverse : Int
  factors : List Nat
  twiddles : List (KissFftCpx F)

structure KissFftrState (F : Type) where
  substate : KissFftState F
  tmpbuf : List (KissFftCpx F)
  superTwiddles : List (KissFftCpx F)

/-- `while n % p != 0`: the next radix that divides `n`. -/
def nextRadix (floorSqrt n : Nat) : Nat → Nat → Option Nat
  | 0, _ => none
  | fuel + 1, p =>
    if n % p = 0 then some p
    else
      let p := match p with
        | 4 => 2
        | 2 => 3
        | p => p + 2
      nextRadix floorSqrt n fuel (if p > floorSqrt then n else p)

/-- The loop of `initialise`: each radix, and the length that is left. -/
def factorise (floorSqrt : Nat) : Nat → Nat → Nat → Option (List Nat)
  | 0, _, _ => none
  | fuel + 1, n, p => do
    let p ← nextRadix floorSqrt n (n + 2) p
    let n := n / p
    if n ≤ 1 then pure [p, n]
    else
      let factors ← factorise floorSqrt fuel n p
      pure (p :: n :: factors)

/-- The tables at a length, forward and inverse: `COMPLEX_128_FORWARD` and so on. -/
abbrev Tables (F : Type) := Nat → Bool → List (KissFftCpx F)

/-- `initialise`, of a state with room for `N`. -/
def KissFftState.initialise (complexTable : Tables F) (N nfft : Nat) (inverse : Int) :
    Option (KissFftState F) :=
  if (nfft = 128 ∨ nfft = 256 ∨ nfft = 512) ∧ nfft ≤ N then do
    let factors ← factorise nfft.sqrt nfft nfft 4
    let unused := List.replicate (2 * MAXFACTORS - factors.length) 0
    pure { nfft, inverse, factors := factors ++ unused,
           twiddles := complexTable nfft (inverse ≠ 0) }
  else none

def KissFftrState.initialise (complexTable realTable : Tables F) (nfft : Nat) (inverse : Int) :
    Option (KissFftrState F) := do
  let nfft := nfft / 2
  let substate ← KissFftState.initialise complexTable 256 nfft inverse
  if nfft = 128 ∨ nfft = 256 then
    pure { substate, tmpbuf := List.replicate nfft new,
           superTwiddles := realTable nfft (inverse ≠ 0) }
  else none

/-! ## Butterflies -/

def bfly2 (twiddles : List (KissFftCpx F)) (fstride u : Nat) (x : Fin 2 → KissFftCpx F) :
    Option (Fin 2 → KissFftCpx F) := do
  let tw1 ← twiddles[u * fstride]?
  let t := cMul (x 1) tw1
  if (u + 1) * fstride ≤ twiddles.length then pure ![cAdd (x 0) t, cSub (x 0) t] else none

def kfBfly2 (Fout : List (KissFftCpx F)) (fstride : Nat) (st : KissFftState F) (m : Nat) :
    Option (List (KissFftCpx F)) :=
  eachColumn 2 m (bfly2 st.twiddles fstride) Fout

/-- The twiddle slices move on by `fstride`, twice and three times it: the last one is the
shortest. -/
def bfly4 (inverse : Int) (twiddles : List (KissFftCpx F)) (fstride u : Nat)
    (x : Fin 4 → KissFftCpx F) : Option (Fin 4 → KissFftCpx F) := do
  let tw1 ← twiddles[u * fstride]?
  let tw2 ← twiddles[u * (fstride * 2)]?
  let tw3 ← twiddles[u * (fstride * 3)]?
  let s0 := cMul (x 1) tw1
  let s1 := cMul (x 2) tw2
  let s2 := cMul (x 3) tw3
  let s5 := cSub (x 0) s1
  let f0 := cAdd (x 0) s1
  let s3 := cAdd s0 s2
  let s4 := cSub s0 s2
  let plus : KissFftCpx F := { r := s5.r + s4.i, i := s5.i - s4.r }
  let minus : KissFftCpx F := { r := s5.r - s4.i, i := s5.i + s4.r }
  if (u + 1) * (fstride * 3) ≤ twiddles.length then
    if inverse ≠ 0 then pure ![cAdd f0 s3, minus, cSub f0 s3, plus]
    else pure ![cAdd f0 s3, plus, cSub f0 s3, minus]
  else none

/-- The loop counts `m` down from its first step, so an `m` of zero is out of range. -/
def kfBfly4 (Fout : List (KissFftCpx F)) (fstride : Nat) (st : KissFftState F) (m : Nat) :
    Option (List (KissFftCpx F)) :=
  if m = 0 then none else eachColumn 4 m (bfly4 st.inverse st.twiddles fstride) Fout

def bfly3 (epi3 : KissFftCpx F) (twiddles : List (KissFftCpx F)) (fstride u : Nat)
    (x : Fin 3 → KissFftCpx F) : Option (Fin 3 → KissFftCpx F) := do
  let tw1 ← twiddles[u * fstride]?
  let tw2 ← twiddles[u * (fstride * 2)]?
  let s1 := cMul (x 1) tw1
  let s2 := cMul (x 2) tw2
  let s3 := cAdd s1 s2
  let s0 := cSub s1 s2
  let fm : KissFftCpx F := { r := (x 0).r - s3.r / 2, i := (x 0).i - s3.i / 2 }
  let s0 := cMulByScalar s0 epi3.i
  let f0 := cAdd (x 0) s3
  let fm2 : KissFftCpx F := { r := fm.r + s0.i, i := fm.i - s0.r }
  let fm : KissFftCpx F := { r := fm.r - s0.i, i := fm.i + s0.r }
  pure ![f0, fm, fm2]

def kfBfly3 (Fout : List (KissFftCpx F)) (fstride : Nat) (st : KissFftState F) (m : Nat) :
    Option (List (KissFftCpx F)) := do
  let epi3 ← st.twiddles[fstride * m]?
  eachColumn 3 m (bfly3 epi3 st.twiddles fstride) Fout

def bfly5 (ya yb : KissFftCpx F) (tw : List (KissFftCpx F)) (fstride u : Nat)
    (x : Fin 5 → KissFftCpx F) : Option (Fin 5 → KissFftCpx F) := do
  let tw1 ← tw[u * fstride]?
  let tw2 ← tw[2 * u * fstride]?
  let tw3 ← tw[3 * u * fstride]?
  let tw4 ← tw[4 * u * fstride]?
  let s0 := x 0
  let s1 := cMul (x 1) tw1
  let s2 := cMul (x 2) tw2
  let s3 := cMul (x 3) tw3
  let s4 := cMul (x 4) tw4
  let s7 := cAdd s1 s4
  let s10 := cSub s1 s4
  let s8 := cAdd s2 s3
  let s9 := cSub s2 s3
  let f0 : KissFftCpx F := { r := s0.r + (s7.r + s8.r), i := s0.i + (s7.i + s8.i) }
  let s5 : KissFftCpx F :=
    { r := s0.r + s7.r * ya.r + s8.r * yb.r, i := s0.i + s7.i * ya.r + s8.i * yb.r }
  let s6 : KissFftCpx F :=
    { r := s10.i * ya.i + s9.i * yb.i, i := -(s10.r * ya.i) - s9.r * yb.i }
  let s11 : KissFftCpx F :=
    { r := s0.r + s7.r * yb.r + s8.r * ya.r, i := s0.i + s7.i * yb.r + s8.i * ya.r }
  let s12 : KissFftCpx F :=
    { r := -(s10.i * yb.i) + s9.i * ya.i, i := s10.r * yb.i - s9.r * ya.i }
  pure ![f0, cSub s5 s6, cAdd s11 s12, cSub s11 s12, cAdd s5 s6]

def kfBfly5 (Fout : List (KissFftCpx F)) (fstride : Nat) (st : KissFftState F) (m : Nat) :
    Option (List (KissFftCpx F)) := do
  let ya ← st.twiddles[fstride * m]?
  let yb ← st.twiddles[fstride * 2 * m]?
  eachColumn 5 m (bfly5 ya yb st.twiddles fstride) Fout

/-- A step of the inner loop of the generic butterfly: `twidx` and `Fout[k]`. -/
def genericTerm {p : Nat} (st : KissFftState F) (fstride k : Nat)
    (scratch : Fin (p + 1) → KissFftCpx F) (state : Nat × KissFftCpx F) (q : Fin p) :
    Option (Nat × KissFftCpx F) := do
  let twidx := state.1 + fstride * k
  let twidx := if twidx ≥ st.nfft then twidx - st.nfft else twidx
  let tw ← st.twiddles[twidx]?
  pure (twidx, cAdd state.2 (cMul (scratch q.succ) tw))

/-- `Fout[k]` after the inner loop. -/
def genericSum {p : Nat} (st : KissFftState F) (fstride k : Nat)
    (scratch : Fin (p + 1) → KissFftCpx F) : Option (KissFftCpx F) := do
  let state ← (List.finRange p).foldlM (genericTerm st fstride k scratch) (0, scratch 0)
  pure state.2

/-- The scratch buffer holds five values. -/
def kfBflyGeneric (Fout : List (KissFftCpx F)) (fstride : Nat) (st : KissFftState F) (m : Nat) :
    Nat → Option (List (KissFftCpx F))
  | 0 => some Fout
  | p + 1 =>
    if p + 1 ≤ 5 then
      eachColumn (p + 1) m
        (fun u scratch => gather fun q1 => genericSum st fstride (u + q1 * m) scratch) Fout
    else none

/-! ## The transform -/

/-- `l[i] = a` -/
def store {α : Type} (l : List α) (i : Nat) (a : α) : Option (List α) :=
  if i < l.length then some (l.set i a) else none

theorem store_eq {α : Type} {l : List α} {i : Nat} (hi : i < l.length) (a : α) :
    store l i a = some (l.set i a) := if_pos hi

/-- `&f[step.min(f.len())..]` -/
def advance {α : Type} (f : List α) (step : Nat) : List α := f.drop (min step f.length)

/-- The loop of `kf_work` at a length of one: `Fout[fout_idx] = f[0]`. -/
def copyIn (step : Nat) : List Nat → List (KissFftCpx F) → List (KissFftCpx F) →
    Option (List (KissFftCpx F))
  | [], Fout, _ => some Fout
  | foutIdx :: rest, Fout, f => do
    let first ← f[0]?
    let Fout ← store Fout foutIdx first
    copyIn step rest Fout (advance f step)

/-- The loop of `kf_work` over the smaller transforms, each with a decimated version of the
input. -/
def transforms (work : List (KissFftCpx F) → List (KissFftCpx F) → Option (List (KissFftCpx F)))
    (step : Nat) : List Nat → List (KissFftCpx F) → List (KissFftCpx F) →
      Option (List (KissFftCpx F))
  | [], Fout, _ => some Fout
  | foutIdx :: rest, Fout, f => do
    let part ← if foutIdx ≤ Fout.length then work (Fout.drop foutIdx) f else none
    transforms work step rest (Fout.take foutIdx ++ part) (advance f step)

/-- Recombine the `p` smaller transforms. -/
def recombine (Fout : List (KissFftCpx F)) (fstride : Nat) (st : KissFftState F) (m : Nat) :
    Nat → Option (List (KissFftCpx F))
  | 2 => kfBfly2 Fout fstride st m
  | 3 => kfBfly3 Fout fstride st m
  | 4 => kfBfly4 Fout fstride st m
  | 5 => kfBfly5 Fout fstride st m
  | p => kfBflyGeneric Fout fstride st m p

def kfWork (st : KissFftState F) (inStride : Nat) :
    List Nat → Nat → List (KissFftCpx F) → List (KissFftCpx F) → Option (List (KissFftCpx F))
  | p :: m :: factors, fstride, Fout, f => do
    let Fout ←
      if m = 1 then copyIn (fstride * inStride) (List.range (p * m)) Fout f
      else if m = 0 then none -- `step_by(0)`
      else
        transforms (kfWork st inStride factors (fstride * p)) (fstride * inStride)
          ((List.range p).map (· * m)) Fout f
    recombine Fout fstride st m p
  | _, _, _, _ => none

def kissFftStride (st : KissFftState F) (fin fout : List (KissFftCpx F)) (inStride : Nat) :
    Option (List (KissFftCpx F)) := kfWork st inStride st.factors 1 fout fin

def kissFft (cfg : KissFftState F) (fin fout : List (KissFftCpx F)) :
    Option (List (KissFftCpx F)) := kissFftStride cfg fin fout 1

/-! ## Real input and output -/

def halfOf (x : F) : F := x / 2

/-- Two samples in one complex value; the buffer holds 256. -/
def packPairs (timedata : List F) : Option (List (KissFftCpx F)) :=
  if timedata.length / 2 ≤ 256 then
    (List.range (timedata.length / 2)).mapM fun i => do
      let r ← timedata[i * 2]?
      let i ← timedata[i * 2 + 1]?
      pure { r, i }
  else none

/-- The conjugate, as the code negates it. -/
def negatedPart (a : KissFftCpx F) : KissFftCpx F := { r := a.r, i := 0 - a.i }

/-- A step of the loop of `kiss_fftr`. -/
def fftrPair (ncfft : Nat) (tmpbuf superTwiddles freqdata : List (KissFftCpx F)) (k : Nat) :
    Option (List (KissFftCpx F)) := do
  let fpk ← tmpbuf[k]?
  let fpnk := negatedPart (← tmpbuf[ncfft - k]?)
  let f1k := cAdd fpk fpnk
  let f2k := cSub fpk fpnk
  let tw := cMul f2k (← superTwiddles[k - 1]?)
  let freqdata ← store freqdata k { r := halfOf (f1k.r + tw.r), i := halfOf (f1k.i + tw.i) }
  store freqdata (ncfft - k) { r := halfOf (f1k.r - tw.r), i := halfOf (tw.i - f1k.i) }

def kissFftr (st : KissFftrState F) (timedata : List F) (freqdata : List (KissFftCpx F)) :
    Option (KissFftrState F × List (KissFftCpx F)) := do
  let ncfft := st.substate.nfft
  let timedatac ← packPairs timedata
  let tmpbuf ← kissFft st.substate timedatac st.tmpbuf
  let tdc ← tmpbuf[0]?
  let freqdata ← store freqdata 0 { r := tdc.r + tdc.i, i := 0 }
  let freqdata ← store freqdata ncfft { r := tdc.r - tdc.i, i := 0 }
  let freqdata ← (List.range' 1 (ncfft / 2)).foldlM (fftrPair ncfft tmpbuf st.superTwiddles)
    freqdata
  pure ({ st with tmpbuf }, freqdata)

/-- A step of the loop of `kiss_fftri`. -/
def fftriPair (ncfft : Nat) (freqdata superTwiddles tmpbuf : List (KissFftCpx F)) (k : Nat) :
    Option (List (KissFftCpx F)) := do
  let fk ← freqdata[k]?
  let fnkc := negatedPart (← freqdata[ncfft - k]?)
  let fek := cAdd fk fnkc
  let tmp := cSub fk fnkc
  let fok := cMul tmp (← superTwiddles[k - 1]?)
  let tmpbuf ← store tmpbuf k (cAdd fek fok)
  let last := cSub fek fok
  store tmpbuf (ncfft - k) { last with i := last.i * -1 }

/-- A step of the loop that writes the samples. -/
def unpackPair (timedata : List F) (entry : KissFftCpx F × Nat) : Option (List F) := do
  let timedata ← store timedata (entry.2 * 2) entry.1.r
  store timedata (entry.2 * 2 + 1) entry.1.i

def unpackPairs (timedatac : List (KissFftCpx F)) (timedata : List F) : Option (List F) :=
  timedatac.zipIdx.foldlM unpackPair timedata

def kissFftri (st : KissFftrState F) (freqdata : List (KissFftCpx F)) (timedata : List F) :
    Option (KissFftrState F × List F) := do
  let ncfft := st.substate.nfft
  let first ← freqdata[0]?
  let last ← freqdata[ncfft]?
  let tmpbuf ← store st.tmpbuf 0 { r := first.r + last.r, i := first.r - last.r }
  let tmpbuf ← (List.range' 1 (ncfft / 2)).foldlM (fftriPair ncfft freqdata st.superTwiddles)
    tmpbuf
  let empty ← if timedata.length / 2 ≤ 256 then some (List.replicate (timedata.length / 2) new)
    else none
  let timedatac ← kissFft st.substate tmpbuf empty
  let timedata ← unpackPairs timedatac timedata
  pure ({ st with tmpbuf }, timedata)

/-! ## The values of the tables

The coefficients of `fft_coefficients.rs` are these, rounded. -/

noncomputable def kfCexp (phase : ℝ) : KissFftCpx ℝ := { r := Real.cos phase, i := Real.sin phase }

/-- `if inverse { phase *= -1.0; }` -/
noncomputable def directed (inverse : Bool) (phase : ℝ) : ℝ :=
  if inverse then phase * -1 else phase

noncomputable def complexTable : Tables ℝ := fun length inverse =>
  (List.range length).map fun i : ℕ => kfCexp (directed inverse (-2 * Real.pi * i / length))

noncomputable def realTable : Tables ℝ := fun nfft inverse =>
  (List.range (nfft / 2)).map fun i : ℕ =>
    kfCexp (directed inverse (-Real.pi * ((i + 1) / nfft + 1 / 2)))

/-- The direction of a transform. -/
def sign (inverse : Int) : ℝ := if inverse ≠ 0 then 1 else -1

/-- The root of the table of a length. -/
noncomputable def root (nfft : ℕ) (inverse : Int) : KissFftCpx ℝ :=
  kfCexp (sign inverse * (2 * Real.pi / nfft))

end Lxst.Codec2
