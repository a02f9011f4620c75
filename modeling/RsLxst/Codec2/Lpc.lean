import RsLxst.Codec2.KissFft

/-!
# Linear prediction and line spectral pairs

From `lxst-codec2/src/native/quantise.rs`: the analysis of a frame (`autocorrelate`,
`levinson_durbin`), the line spectral pairs of a predictor (`lpc_to_lsp`) and back (`lsp_to_lpc`),
over any ordered field `F`: the arithmetic is exact, and the functions of `FloatMath` are a
parameter. A slice or a `Buffer` is a list; an index out of range, an underflow of an index and an
assertion that fails are `none`. So is a search that runs out of its fuel.
-/

set_option autoImplicit false

namespace Lxst.Codec2

def LPC_ORD : Nat := 10

def PMAX_M : Nat := 320

/-- `PI` and the functions of `FloatMath` that are used here. -/
structure FloatMath (F : Type) where
  pi : F
  acos : F → F
  cos : F → F

section
variable {F : Type} [Field F]

/-- `Buffer::<f32, N>::filled(length, 0.0)` -/
def filled (capacity length : Nat) : Option (List F) :=
  if length ≤ capacity then some (List.replicate length 0) else none

/-! ## Autocorrelation -/

/-- `Rn[j] += Sn[i] * Sn[i + j]` -/
def addProduct (Sn : List F) (j : Nat) (Rn : List F) (i : Nat) : Option (List F) := do
  let x ← Sn[i]?
  let y ← Sn[i + j]?
  let sum ← Rn[j]?
  store Rn j (sum + x * y)

def autocorrelateAt (Sn : List F) (Nsam : Nat) (Rn : List F) (j : Nat) : Option (List F) :=
  if j ≤ Nsam then do
    let Rn ← store Rn j 0
    (List.range (Nsam - j)).foldlM (addProduct Sn j) Rn
  else none

def autocorrelate (Sn Rn : List F) (Nsam order : Nat) : Option (List F) :=
  (List.range (order + 1)).foldlM (autocorrelateAt Sn Nsam) Rn

/-! ## The Levinson-Durbin recursion -/

/-- `sum += a[i - 1][j] * R[i - j]`, where `row` is `a[i - 1]`. -/
def levinsonTerm (R row : List F) (i : Nat) (sum : F) (j : Nat) : Option F := do
  let x ← row[j]?
  let r ← R[i - j]?
  pure (sum + x * r)

def levinsonSum (R row : List F) (i : Nat) : Option F :=
  (List.range' 1 (i - 1)).foldlM (levinsonTerm R row i) 0

/-- `a[i][j] = a[i - 1][j] + k * a[i - 1][i - j]`, where `next` is `a[i]`. -/
def nextRowAt (row : List F) (k : F) (i : Nat) (next : List F) (j : Nat) : Option (List F) := do
  let x ← row[j]?
  let y ← row[i - j]?
  store next j (x + k * y)

/-- `a[i]`, from `row`, which is `a[i - 1]`. -/
def nextRow (row : List F) (k : F) (i : Nat) : Option (List F) := do
  let next ← store (List.replicate (LPC_ORD + 1) 0) i k
  (List.range' 1 (i - 1)).foldlM (nextRowAt row k i) next

/-- `target[i] = f(source[i])` -/
def copyAt (f : F → F) (source target : List F) (i : Nat) : Option (List F) := do
  let x ← source[i]?
  store target i (f x)

variable [LinearOrder F] in
def reflection (R row : List F) (e : F) (i : Nat) : Option F := do
  let sum ← levinsonSum R row i
  let r ← R[i]?
  let k := -1 * (r + sum) / e
  pure (if |k| > 1 then 0 else k)

variable [LinearOrder F] in
/-- The rows of `a` are written one after another: the state is the last one, and `e`. -/
def levinsonStep (R : List F) (state : List F × F) (i : Nat) : Option (List F × F) := do
  let k ← reflection R state.1 state.2 i
  let row ← nextRow state.1 k i
  pure (row, state.2 * (1 - k * k))

variable [LinearOrder F] in
def levinsonDurbin (R lpcs : List F) (order : Nat) : Option (List F) :=
  if order ≤ LPC_ORD then do
    let e ← R[0]?
    let (row, _) ← (List.range' 1 order).foldlM (levinsonStep R)
      (List.replicate (LPC_ORD + 1) 0, e)
    let lpcs ← (List.range' 1 order).foldlM (copyAt id row) lpcs
    store lpcs 0 1
  else none

/-! ## From a predictor to its line spectral pairs -/

/-- `T[i] = 2*x*T[i-1] - T[i-2]` -/
def chebStep (x : F) (T : List F) (i : Nat) : Option (List F) := do
  let u ← T[i - 1]?
  let t ← T[i - 2]?
  store T i ((2 : Nat) * x * u - t)

/-- `sum += coef[(order / 2) - i] * T[i]` -/
def chebTerm (coef T : List F) (order : Nat) (sum : F) (i : Nat) : Option F := do
  let c ← coef[order / 2 - i]?
  let t ← T[i]?
  pure (sum + c * t)

def chebPolyEva (coef : List F) (x : F) (order : Nat) : Option F := do
  let T ← filled (LPC_ORD / 2 + 1) (order / 2 + 1)
  let T ← store T 0 1
  let T ← store T 1 x
  let T ← (List.range' 2 (order / 2 - 1)).foldlM (chebStep x) T
  (List.range (order / 2 + 1)).foldlM (chebTerm coef T order) 0

/-- `P[i]` and `Q[i]` -/
def lspPolyStep (a : List F) (order : Nat) (polys : List F × List F) (i : Nat) :
    Option (List F × List F) := do
  let x ← a[i]?
  let y ← a[order + 1 - i]?
  let p ← polys.1[i - 1]?
  let q ← polys.2[i - 1]?
  let P ← store polys.1 i (x + y - p)
  let Q ← store polys.2 i (x - y + q)
  pure (P, Q)

def doubleStep (polys : List F × List F) (i : Nat) : Option (List F × List F) := do
  let p ← polys.1[i]?
  let q ← polys.2[i]?
  let P ← store polys.1 i ((2 : Nat) * p)
  let Q ← store polys.2 i ((2 : Nat) * q)
  pure (P, Q)

/-- `P'(z)` and `Q'(z)`, as `cheb_poly_eva` takes them. -/
def lspPolys (a : List F) (order : Nat) : Option (List F × List F) := do
  let Q ← filled (LPC_ORD + 1) (order + 1)
  let P ← filled (LPC_ORD + 1) (order + 1)
  let P ← store P 0 1
  let Q ← store Q 0 1
  let polys ← (List.range' 1 (order / 2)).foldlM (lspPolyStep a order) (P, Q)
  (List.range (order / 2)).foldlM doubleStep polys

variable [LinearOrder F] in
/-- The interval is bisected: the last `xm`, and `xr`. -/
def bisect (eval : F → Option F) : Nat → F → F → F → F → Option (F × F)
  | 0, xm, _, _, xr => some (xm, xr)
  | k + 1, _, psuml, xl, xr => do
    let xm := (xl + xr) / (2 : Nat)
    let psumm ← eval xm
    if psumm * psuml > 0 then bisect eval k xm psumm xm xr
    else bisect eval k xm psuml xl xm

variable [LinearOrder F] in
/-- The search for the next zero: the zero, if one is found, `xl` and `xr`. -/
def searchZero (eval : F → Option F) (nb : Nat) (delta : F) :
    Nat → F → F → F → Option (Option F × F × F)
  | 0, _, _, _ => none
  | fuel + 1, psuml, xl, xr =>
    if xr ≥ -1 then do
      let xr := xl - delta
      let psumr ← eval xr
      if psumr * psuml < 0 ∨ psumr = 0 then
        let (xm, xr) ← bisect eval (nb + 1) 0 psuml xl xr
        pure (some xm, xm, xr)
      else searchZero eval nb delta fuel psumr xr xr
    else pure (none, xl, xr)

/-- `roots`, `freq`, `xl` and `xr` -/
structure LspSearch (F : Type) where
  roots : Nat
  freq : List F
  xl : F
  xr : F

variable [LinearOrder F] in
def lspStep (P Q : List F) (order nb : Nat) (delta : F) (fuel : Nat) (s : LspSearch F) (j : Nat) :
    Option (LspSearch F) := do
  let pt := if j % 2 ≠ 0 then Q else P
  let psuml ← chebPolyEva pt s.xl order
  let (zero, xl, xr) ← searchZero (chebPolyEva pt · order) nb delta fuel psuml s.xl s.xr
  match zero with
  | none => pure { s with xl, xr }
  | some xm => do
    let freq ← store s.freq j xm
    pure { roots := s.roots + 1, freq, xl, xr }

variable [LinearOrder F] in
/-- `lpc_to_lsp`: the number of roots found, and `freq`. -/
def lpcToLsp (math : FloatMath F) (fuel : Nat) (a : List F) (order : Nat) (freq : List F) (nb : Nat)
    (delta : F) : Option (Nat × List F) := do
  let (P, Q) ← lspPolys a order
  let s ← (List.range order).foldlM (lspStep P Q order nb delta fuel)
    { roots := 0, freq, xl := 1, xr := 0 }
  let freq ← (List.range order).foldlM (fun freq => copyAt math.acos freq freq) s.freq
  pure (s.roots, freq)

/-! ## The analysis of a frame -/

/-- `(PI / order as f32) * (i as f32)` -/
def benignLsp (math : FloatMath F) (order i : Nat) : F := math.pi / (order : F) * (i : F)

def benignLsps (math : FloatMath F) (order : Nat) (lsp : List F) : Option (List F) :=
  (List.range order).foldlM (fun lsp i => store lsp i (benignLsp math order i)) lsp

/-- `Wn[i] = Sn[i] * w[i]` and `e += Wn[i] * Wn[i]` -/
def windowStep (Sn w : List F) (state : List F × F) (i : Nat) : Option (List F × F) := do
  let s ← Sn[i]?
  let x ← w[i]?
  let Wn ← store state.1 i (s * x)
  pure (Wn, state.2 + s * x * (s * x))

/-- `Wn`, the windowed frame, and `e`. -/
def windowed (Sn w : List F) (mPitch : Nat) : Option (List F × F) := do
  let Wn ← filled PMAX_M mPitch
  (List.range mPitch).foldlM (windowStep Sn w) (Wn, 0)

/-- `E += ak[i] * R[i]` -/
def energyTerm (ak R : List F) (E : F) (i : Nat) : Option F := do
  let a ← ak[i]?
  let r ← R[i]?
  pure (E + a * r)

/-- `0.994f32` -/
def BW_EXPANSION : F := (994 : Nat) / (1000 : Nat)

/-- `ak[i] *= 0.994f32.dsp_powf(i as f32)` -/
def bandwidthStep (ak : List F) (i : Nat) : Option (List F) := do
  let a ← ak[i]?
  store ak i (a * BW_EXPANSION ^ i)

def LSP_DELTA1 : F := 1 / (100 : Nat)

variable [LinearOrder F] in
/-- `speech_to_uq_lsps`: the energy, `lsp` and `ak`. -/
def speechToUqLsps (math : FloatMath F) (fuel : Nat) (lsp ak Sn w : List F) (mPitch order : Nat) :
    Option (F × List F × List F) := do
  let R ← filled (LPC_ORD + 1) (order + 1)
  let (Wn, e) ← windowed Sn w mPitch
  if e = 0 then do
    let lsp ← benignLsps math order lsp
    pure (0, lsp, ak)
  else do
    let R ← autocorrelate Wn R mPitch order
    let ak ← levinsonDurbin R ak order
    let E ← (List.range (order + 1)).foldlM (energyTerm ak R) 0
    let ak ← (List.range (order + 1)).foldlM bandwidthStep ak
    let (roots, lsp) ← lpcToLsp math fuel ak order lsp 5 LSP_DELTA1
    if roots ≠ order then do
      let lsp ← benignLsps math order lsp
      pure (E, lsp, ak)
    else pure (E, lsp, ak)

/-! ## And back -/

/-- `Wp`, `xin1` and `xin2` -/
structure LspFilter (F : Type) where
  Wp : List F
  xin1 : F
  xin2 : F

/-- One second order section of `P(z)` and of `Q(z)`, `1 - 2xz^(-1) + z^(-2)`. -/
def lspSection (freq : List F) (s : LspFilter F) (i : Nat) : Option (LspFilter F) := do
  let n1off := i * 4
  let f1 ← freq[2 * i]?
  let f2 ← freq[2 * i + 1]?
  let w1 ← s.Wp[n1off]?
  let w2 ← s.Wp[n1off + 1]?
  let w3 ← s.Wp[n1off + 2]?
  let w4 ← s.Wp[n1off + 3]?
  let xout1 := s.xin1 - (2 : Nat) * f1 * w1 + w2
  let xout2 := s.xin2 - (2 : Nat) * f2 * w3 + w4
  let Wp ← store s.Wp (n1off + 1) w1
  let Wp ← store Wp (n1off + 3) w3
  let Wp ← store Wp n1off s.xin1
  let Wp ← store Wp (n1off + 2) s.xin2
  pure { Wp, xin1 := xout1, xin2 := xout2 }

/-- One coefficient: `ak`, and the filter for the next one. -/
def lspToLpcStep (freq : List F) (order : Nat) (state : List F × LspFilter F) (j : Nat) :
    Option (List F × LspFilter F) := do
  let s ← (List.range (order / 2)).foldlM (lspSection freq) state.2
  let n4off := if order / 2 = 0 then 0 else (order / 2 - 1) * 4 + 3
  let w1 ← s.Wp[n4off + 1]?
  let w2 ← s.Wp[n4off + 2]?
  let xout1 := s.xin1 + w1
  let xout2 := s.xin2 - w2
  let ak ← store state.1 j ((xout1 + xout2) * (1 / (2 : Nat)))
  let Wp ← store s.Wp (n4off + 1) s.xin1
  let Wp ← store Wp (n4off + 2) s.xin2
  pure (ak, { Wp, xin1 := 0, xin2 := 0 })

def lspToLpc (math : FloatMath F) (lsp ak : List F) (order : Nat) : Option (List F) := do
  let freq ← filled LPC_ORD order
  let Wp ← filled (LPC_ORD * 4 + 2) (order * 4 + 2)
  let freq ← (List.range order).foldlM (copyAt math.cos lsp) freq
  let (ak, _) ← (List.range (order + 1)).foldlM (lspToLpcStep freq order)
    (ak, { Wp, xin1 := 1, xin2 := 1 })
  pure ak

end

end Lxst.Codec2
