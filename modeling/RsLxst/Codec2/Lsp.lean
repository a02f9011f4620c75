import RsLxst.Codec2.Lpc

/-!
# The quantizers of modes 3200 and 1600

From `lxst-codec2/src/native/quantise.rs`: the scalar quantizers of line spectral pairs, pitch and
energy, the repairs of decoded line spectral pairs and the interpolation between frames. The
codebooks of `codebook.rs` and `codebookd.rs` hold whole numbers of Hz. The arithmetic is exact and a
failure is `none`, as in `Codec2/Lpc.lean`.
-/

set_option autoImplicit false

namespace Lxst.Codec2

/-! ## Codebooks -/

structure LspCodebook where
  k : Nat
  log2m : Nat
  m : Nat
  cb : List Nat

def lspCb : List LspCodebook := [
  { k := 1, log2m := 4, m := 16, cb :=
      [225, 250, 275, 300, 325, 350, 375, 400, 425, 450, 475, 500, 525, 550, 575, 600] },
  { k := 1, log2m := 4, m := 16, cb :=
      [325, 350, 375, 400, 425, 450, 475, 500, 525, 550, 575, 600, 625, 650, 675, 700] },
  { k := 1, log2m := 4, m := 16, cb :=
      [500, 550, 600, 650, 700, 750, 800, 850, 900, 950, 1000, 1050, 1100, 1150, 1200, 1250] },
  { k := 1, log2m := 4, m := 16, cb :=
      [700, 800, 900, 1000, 1100, 1200, 1300, 1400, 1500, 1600, 1700, 1800, 1900, 2000, 2100, 2200] },
  { k := 1, log2m := 4, m := 16, cb :=
      [950, 1050, 1150, 1250, 1350, 1450, 1550, 1650, 1750, 1850, 1950, 2050, 2150, 2250, 2350, 2450] },
  { k := 1, log2m := 4, m := 16, cb :=
      [1100, 1200, 1300, 1400, 1500, 1600, 1700, 1800, 1900, 2000, 2100, 2200, 2300, 2400, 2500,
      2600] },
  { k := 1, log2m := 4, m := 16, cb :=
      [1500, 1600, 1700, 1800, 1900, 2000, 2100, 2200, 2300, 2400, 2500, 2600, 2700, 2800, 2900,
      3000] },
  { k := 1, log2m := 3, m := 8, cb := [2300, 2400, 2500, 2600, 2700, 2800, 2900, 3000] },
  { k := 1, log2m := 3, m := 8, cb := [2500, 2600, 2700, 2800, 2900, 3000, 3100, 3200] },
  { k := 1, log2m := 2, m := 4, cb := [2900, 3100, 3300, 3500] }
]

/-- `codes0` of `codebookd.rs`, and `codes1`, `codes2` and `codes6` to `codes9`. -/
def dlspCodes0 : List Nat :=
  [25, 50, 75, 100, 125, 150, 175, 200, 225, 250, 275, 300, 325, 350, 375, 400, 425, 450, 475, 500,
    525, 550, 575, 600, 625, 650, 675, 700, 725, 750, 775, 800]

/-- `codes3` of `codebookd.rs`, and `codes4` and `codes5`. -/
def dlspCodes3 : List Nat :=
  [25, 50, 75, 100, 125, 150, 175, 200, 250, 300, 350, 400, 450, 500, 550, 600, 650, 700, 750, 800,
    850, 900, 950, 1000, 1050, 1100, 1150, 1200, 1250, 1300, 1350, 1400]

def lspCbd : List LspCodebook :=
  List.replicate 3 { k := 1, log2m := 5, m := 32, cb := dlspCodes0 } ++
    List.replicate 3 { k := 1, log2m := 5, m := 32, cb := dlspCodes3 } ++
    List.replicate 4 { k := 1, log2m := 5, m := 32, cb := dlspCodes0 } ++
    [{ k := 0, log2m := 0, m := 0, cb := [] }]

section
variable {F : Type} [Field F]

/-- `e` for the vector `j` of the codebook. -/
def vectorError (cb vec w : List F) (k j : Nat) : Option F :=
  (List.range k).foldlM
    (fun e i => do
      let c ← cb[j * k + i]?
      let v ← vec[i]?
      let weight ← w[i]?
      let diff := c - v
      pure (e + diff * weight * diff * weight))
    0

/-- `besti` and `beste` before the first vector. -/
def noVector : Nat × F := (0, (10 ^ 32 : Nat))

variable [LinearOrder F]

/-- The index of the nearest vector, and `se`. -/
def quantise (cb vec w : List F) (k : Nat) (se : F) : Option (Nat × F) := do
  let (besti, beste) ← (List.range cb.length).foldlM
    (fun best j => do
      let e ← vectorError cb vec w k j
      pure (if e < best.2 then (j, e) else best))
    noVector
  pure (besti, se + beste)

/-! ## Line spectral pairs, each on its own -/

def encodeLspStep (lspHz : List F) (state : List Nat × F) (i : Nat) : Option (List Nat × F) := do
  let codebook ← lspCb[i]?
  let (index, se) ← quantise (codebook.cb.map Nat.cast) (lspHz.drop i) [1] codebook.k state.2
  let indexes ← store state.1 i index
  pure (indexes, se)

/-- `lsp_hz`, from radians. -/
def toHz (math : FloatMath F) (lsp : List F) (order : Nat) : Option (List F) := do
  let lspHz ← filled LPC_ORD order
  (List.range order).foldlM (copyAt (fun x => (4000 : Nat) / math.pi * x) lsp) lspHz

def encodeLspsScalar (math : FloatMath F) (indexes : List Nat) (lsp : List F) (order : Nat) :
    Option (List Nat) := do
  let lspHz ← toHz math lsp order
  let (indexes, _) ← (List.range order).foldlM (encodeLspStep lspHz) (indexes, 0)
  pure indexes

omit [LinearOrder F] in
def decodeLspStep (indexes : List Nat) (lspHz : List F) (i : Nat) : Option (List F) := do
  let codebook ← lspCb[i]?
  let index ← indexes[i]?
  let hz ← codebook.cb[index * codebook.k]?
  store lspHz i (hz : F)

omit [LinearOrder F] in
def decodeLspsScalar (math : FloatMath F) (lsp : List F) (indexes : List Nat) (order : Nat) :
    Option (List F) := do
  let lspHz ← filled LPC_ORD order
  let lspHz ← (List.range order).foldlM (decodeLspStep indexes) lspHz
  (List.range order).foldlM (copyAt (fun hz => math.pi / (4000 : Nat) * hz) lspHz) lsp

/-! ## Their differences -/

/-- The buffers of `encode_lspds_scalar`; `lspHz_` is `lsp__hz`. -/
structure LspdEncoder (F : Type) where
  indexes : List Nat
  dlsp : List F
  dlsp_ : List F
  lspHz_ : List F

omit [LinearOrder F] in
/-- `lsp__hz[i - 1]`, which the first step does not read. -/
def hzBefore (lspHz_ : List F) (i : Nat) : Option F := if i ≠ 0 then lspHz_[i - 1]? else some 0

def encodeLspdStep (lspHz wt : List F) (s : LspdEncoder F) (i : Nat) :
    Option (LspdEncoder F) := do
  let hz ← lspHz[i]?
  let before ← hzBefore s.lspHz_ i
  let dlsp ← store s.dlsp i (if i ≠ 0 then hz - before else hz)
  let codebook ← lspCbd[i]?
  let cb := codebook.cb.map (Nat.cast (R := F))
  let (index, _) ← quantise cb (dlsp.drop i) wt codebook.k 0
  let indexes ← store s.indexes i index
  let code ← cb[index * codebook.k]?
  let dlsp_ ← store s.dlsp_ i code
  let lspHz_ ← store s.lspHz_ i (if i ≠ 0 then before + code else code)
  pure { indexes, dlsp, dlsp_, lspHz_ }

def encodeLspdsScalar (math : FloatMath F) (indexes : List Nat) (lsp : List F) (order : Nat) :
    Option (List Nat) := do
  let lspHz ← toHz math lsp order
  let zeros ← filled LPC_ORD order
  let wt ← store (List.replicate order 1) 0 1
  let s ← (List.range order).foldlM (encodeLspdStep lspHz wt)
    { indexes, dlsp := zeros, dlsp_ := zeros, lspHz_ := zeros }
  pure s.indexes

/-- The buffers of `decode_lspds_scalar`; `lspHz_` is `lsp__hz`. -/
structure LspdDecoder (F : Type) where
  dlsp_ : List F
  lspHz_ : List F
  lsp_ : List F

omit [LinearOrder F] in
def decodeLspdStep (math : FloatMath F) (indexes : List Nat) (s : LspdDecoder F) (i : Nat) :
    Option (LspdDecoder F) := do
  let codebook ← lspCbd[i]?
  let index ← indexes[i]?
  let code ← codebook.cb[index * codebook.k]?
  let dlsp_ ← store s.dlsp_ i (code : F)
  let before ← hzBefore s.lspHz_ i
  let hz := if i ≠ 0 then before + code else (code : F)
  let lspHz_ ← store s.lspHz_ i hz
  let lsp_ ← store s.lsp_ i (math.pi / (4000 : Nat) * hz)
  pure { dlsp_, lspHz_, lsp_ }

omit [LinearOrder F] in
def decodeLspdsScalar (math : FloatMath F) (lsp_ : List F) (indexes : List Nat) (order : Nat) :
    Option (List F) := do
  let zeros ← filled LPC_ORD order
  let s ← (List.range order).foldlM (decodeLspdStep math indexes)
    { dlsp_ := zeros, lspHz_ := zeros, lsp_ }
  pure s.lsp_

/-! ## Repairs and interpolation -/

/-- The loop of `check_lsp_order`, from the index `i` on; `fuel` bounds its turns. -/
def checkOrderLoop (order : Nat) : Nat → List F → Nat → Nat → Option (List F × Nat)
  | 0, _, _, _ => none
  | fuel + 1, lsp, swaps, i =>
    if i < order then do
      let x ← lsp[i]?
      let y ← lsp[i - 1]?
      if x < y then
        let lsp ← store lsp (i - 1) (x - 1 / (10 : Nat))
        let lsp ← store lsp i (y + 1 / (10 : Nat))
        -- `i = 1`, and then `i += 1`: the first pair is not compared again
        checkOrderLoop order fuel lsp (swaps + 1) (1 + 1)
      else checkOrderLoop order fuel lsp swaps (i + 1)
    else some (lsp, swaps)

/-- The line spectral pairs, and the number of swaps. -/
def checkLspOrder (fuel : Nat) (lsp : List F) (order : Nat) : Option (List F × Nat) :=
  checkOrderLoop order fuel lsp 0 1

def expandStep (separation : F) (lsp : List F) (i : Nat) : Option (List F) := do
  let x ← lsp[i]?
  let y ← lsp[i - 1]?
  if x - y < separation then store lsp i (y + separation) else pure lsp

def bwExpandLsps (math : FloatMath F) (lsp : List F) (order : Nat) (minSepLow minSepHigh : F) :
    Option (List F) := do
  let lsp ← (List.range' 1 3).foldlM (expandStep (minSepLow * (math.pi / (4000 : Nat)))) lsp
  (List.range' 4 (order - 4)).foldlM (expandStep (minSepHigh * (math.pi / (4000 : Nat)))) lsp

omit [LinearOrder F] in
def interpolateStep (prev next : List F) (weight : F) (interp : List F) (i : Nat) :
    Option (List F) := do
  let p ← prev[i]?
  let n ← next[i]?
  store interp i ((1 - weight) * p + weight * n)

omit [LinearOrder F] in
def interpolateLspVer2 (interp prev next : List F) (weight : F) (order : Nat) : Option (List F) :=
  (List.range order).foldlM (interpolateStep prev next weight) interp

end

end Lxst.Codec2
