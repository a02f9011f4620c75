import RsLxst.Codec2.BitFields
import RsLxst.Codec2.Lsp

/-!
# Frames of modes 3200 and 1600

`codec2_encode_3200`, `codec2_decode_3200`, `codec2_encode_1600` and `codec2_decode_1600` of
`lxst-codec2/src/native/mod.rs`, between the analysis of speech and its synthesis: what an encoder
makes of the results of `analyse_one_frame` and `speech_to_uq_lsps`, and what a decoder hands to
`aks_to_M2`, with the memories it keeps for the next frame. The synthesis writes neither these nor
`Wo`, `L` and `voiced` of a model.
-/

set_option autoImplicit false

namespace Lxst.Codec2

def WO_BITS : Nat := 7

def E_BITS : Nat := 5

def LSPD_SCALAR_INDEXES : Nat := 10

def LSP_SCALAR_INDEXES : Nat := 10

/-- The functions of `FloatMath` that pitch and energy take in addition. -/
structure ParamMath (F : Type) extends FloatMath F where
  log10 : F → F
  powf : F → F → F
  sqrt : F → F
  floor : F → Int

/-- The fields of `MODEL` that the frames determine. -/
structure Model (F : Type) where
  Wo : F
  L : Nat
  voiced : BitVec 32

section
variable {F : Type} [Field F] (math : ParamMath F)

/-! ## Pitch and energy -/

/-- `p_min` and `p_max` of `C2const::new(8000, N_S)` -/
def P_MIN : Nat := 20

def P_MAX : Nat := 160

def woMin : F := (2 : Nat) * math.pi / P_MAX

def woMax : F := (2 : Nat) * math.pi / P_MIN

/-- `as usize` -/
def toUsize (x : F) : Nat := (math.floor x).toNat

/-- Within `0` and `levels - 1`. -/
def clampIndex (levels : Nat) (index : Int) : Int :=
  let index := if index < 0 then 0 else index
  if index > levels - 1 then levels - 1 else index

def encodeWo (Wo : F) (bits : Nat) : Int :=
  let levels := 1 <<< bits
  let norm := (Wo - woMin math) / (woMax math - woMin math)
  clampIndex levels (math.floor ((levels : Nat) * norm + 1 / (2 : Nat)))

def decodeWo (index : Int) (bits : Nat) : F :=
  let step := (woMax math - woMin math) / ((1 <<< bits : Nat) : F)
  woMin math + step * index

/-- `E_MIN_DB` and `E_MAX_DB` -/
def eMinDb : F := -(10 : Nat)

def eMaxDb : F := (40 : Nat)

def encodeEnergy (e : F) (bits : Nat) : Int :=
  let levels := 1 <<< bits
  let e := (10 : Nat) * math.log10 e
  let norm := (e - eMinDb) / (eMaxDb - eMinDb)
  clampIndex levels (math.floor ((levels : Nat) * norm + 1 / (2 : Nat)))

def decodeEnergy (index : Int) (bits : Nat) : F :=
  let step := (eMaxDb - eMinDb) / ((1 <<< bits : Nat) : F)
  let e := eMinDb + step * index
  math.powf (10 : Nat) (e / (10 : Nat))

def interpEnergy (prevE nextE : F) : F := math.sqrt (prevE * nextE)

/-- `MODEL::new` -/
def Model.new (pMax : Nat) : Model F :=
  let Wo := (2 : Nat) * math.pi / pMax
  { Wo, L := toUsize math (math.pi / Wo), voiced := 0 }

/-- The voicing of the frame in between: one voiced frame between two unvoiced ones is a mistake. -/
def interpVoiced (interp prev next : Model F) : BitVec 32 :=
  if interp.voiced ≠ 0 ∧ prev.voiced = 0 ∧ next.voiced = 0 then 0 else interp.voiced

def interpWo2 (interp prev next : Model F) (weight woMin : F) : Model F :=
  let voiced := interpVoiced interp prev next
  let Wo :=
    if voiced ≠ 0 then
      if prev.voiced ≠ 0 ∧ next.voiced ≠ 0 then (1 - weight) * prev.Wo + weight * next.Wo
      else if prev.voiced = 0 ∧ next.voiced ≠ 0 then next.Wo
      else if prev.voiced ≠ 0 ∧ next.voiced = 0 then prev.Wo
      else interp.Wo
    else woMin
  { Wo, L := toUsize math (math.pi / Wo), voiced }

def interpWo (interp prev next : Model F) (woMin : F) : Model F :=
  interpWo2 math interp prev next (1 / (2 : Nat)) woMin

/-! ## Bits -/

def widths3200 : List Nat :=
  [1, 1, WO_BITS, E_BITS] ++ (lspCbd.take LSPD_SCALAR_INDEXES).map LspCodebook.log2m

def widths1600 : List Nat :=
  [1, 1, WO_BITS, E_BITS, 1, 1, WO_BITS, E_BITS] ++
    (lspCb.take LSP_SCALAR_INDEXES).map LspCodebook.log2m

/-- `bits_per_frame() / 8`, of both modes. -/
def frameBytes : Nat := 8

/-- The fields of a frame, each packed in Gray code. -/
def writeFrame (values : List (BitVec 32)) (widths : List Nat) : Option (List UInt8) :=
  match packFields (List.replicate frameBytes 0) 0
    ((values.zip widths).map fun (value, width) => { value, width, gray := 1 }) with
  | .ok (bits, _) => some bits
  | .error _ => none

def readFrame (bits : List UInt8) (widths : List Nat) : Option (List (BitVec 32)) :=
  match unpackFields bits 0 (widths.map fun width => (width, 1)) with
  | .ok (values, _) => some values
  | .error _ => none

/-! ## Decoding -/

/-- One frame of 10 ms, as it goes to `aks_to_M2`. -/
structure Synthesis (F : Type) where
  model : Model F
  e : F
  lsps : List F
  ak : List F

/-- The memories of a decoder. -/
structure Codec2Internal (F : Type) where
  prevModelDec : Model F
  prevEDec : F
  prevLspsDec : List F

def Codec2Internal.initialise : Codec2Internal F where
  prevModelDec := Model.new math P_MAX
  prevEDec := 1
  prevLspsDec := (List.range LPC_ORD).map fun i : Nat => (i : F) * math.pi / (LPC_ORD + 1)

def lsps₀ : List F := List.replicate LPC_ORD 0

/-- `lsp_to_lpc`, and what goes to `aks_to_M2`. -/
def synthesis (model : Model F) (e : F) (lsps : List F) : Option (Synthesis F) := do
  let ak ← lspToLpc math.toFloatMath lsps (List.replicate (LPC_ORD + 1) 0) LPC_ORD
  pure { model, e, lsps, ak }

/-- A model whose pitch is decoded. -/
def decodedModel (voiced woIndex : BitVec 32) : Model F :=
  let Wo := decodeWo math woIndex.toInt WO_BITS
  { Wo, L := toUsize math (math.pi / Wo), voiced }

/-- A model of which only the voicing is decoded. -/
def voicedModel (voiced : BitVec 32) : Model F := { Model.new math P_MAX with voiced }

def decode3200 (self : Codec2Internal F) (bits : List UInt8) :
    Option (List (Synthesis F) × Codec2Internal F) := do
  let values ← readFrame bits widths3200
  match values with
  | voiced0 :: voiced1 :: woIndex :: eIndex :: lspdIndexes =>
    let model1 := decodedModel math voiced1 woIndex
    let e1 := decodeEnergy math eIndex.toInt E_BITS
    let lsps1 ← decodeLspdsScalar math.toFloatMath lsps₀ (lspdIndexes.map BitVec.toNat) LPC_ORD
    let model0 := interpWo math (voicedModel math voiced0) self.prevModelDec model1 (woMin math)
    let e0 := interpEnergy math self.prevEDec e1
    let lsps0 ← interpolateLspVer2 lsps₀ self.prevLspsDec lsps1 (1 / (2 : Nat)) LPC_ORD
    let first ← synthesis math model0 e0 lsps0
    let second ← synthesis math model1 e1 lsps1
    pure ([first, second], { prevModelDec := model1, prevEDec := e1, prevLspsDec := lsps1 })
  | _ => none

variable [LinearOrder F]

def decode1600 (fuel : Nat) (self : Codec2Internal F) (bits : List UInt8) :
    Option (List (Synthesis F) × Codec2Internal F) := do
  let values ← readFrame bits widths1600
  match values with
  | voiced0 :: voiced1 :: woIndex1 :: eIndex1 :: voiced2 :: voiced3 :: woIndex3 :: eIndex3 ::
      lspIndexes =>
    let model1 := decodedModel math voiced1 woIndex1
    let e1 := decodeEnergy math eIndex1.toInt E_BITS
    let model3 := decodedModel math voiced3 woIndex3
    let e3 := decodeEnergy math eIndex3.toInt E_BITS
    let lsps3 ← decodeLspsScalar math.toFloatMath lsps₀ (lspIndexes.map BitVec.toNat) LPC_ORD
    let (lsps3, _) ← checkLspOrder fuel lsps3 LPC_ORD
    let lsps3 ← bwExpandLsps math.toFloatMath lsps3 LPC_ORD (50 : Nat) (100 : Nat)
    let model0 := interpWo math (voicedModel math voiced0) self.prevModelDec model1 (woMin math)
    let e0 := interpEnergy math self.prevEDec e1
    let model2 := interpWo math (voicedModel math voiced2) model1 model3 (woMin math)
    let e2 := interpEnergy math e1 e3
    let between (i : Nat) : Option (List F) :=
      interpolateLspVer2 lsps₀ self.prevLspsDec lsps3 (1 / (4 : Nat) + i * (1 / (4 : Nat))) LPC_ORD
    let lsps0 ← between 0
    let lsps1 ← between 1
    let lsps2 ← between 2
    let frame0 ← synthesis math model0 e0 lsps0
    let frame1 ← synthesis math model1 e1 lsps1
    let frame2 ← synthesis math model2 e2 lsps2
    let frame3 ← synthesis math model3 e3 lsps3
    pure ([frame0, frame1, frame2, frame3],
      { prevModelDec := model3, prevEDec := e3, prevLspsDec := lsps3 })
  | _ => none

/-! ## Encoding -/

/-- The pitch and the energy of an analysed frame, and its line spectral pairs. -/
structure Analysis (F : Type) where
  voiced : BitVec 32
  Wo : F
  e : F
  lsps : List F

def index32 (index : Int) : BitVec 32 := BitVec.ofInt 32 index

/-- Of the first frame only the voicing is sent. -/
def encode3200 (voiced0 : BitVec 32) (frame1 : Analysis F) : Option (List UInt8) := do
  let woIndex := encodeWo math frame1.Wo WO_BITS
  let eIndex := encodeEnergy math frame1.e E_BITS
  let lspdIndexes ← encodeLspdsScalar math.toFloatMath (List.replicate LPC_ORD 0) frame1.lsps
    LPC_ORD
  writeFrame ([voiced0, frame1.voiced, index32 woIndex, index32 eIndex] ++
    (lspdIndexes.take LSPD_SCALAR_INDEXES).map (BitVec.ofNat 32)) widths3200

/-- Of the first and the third frame only the voicing is sent, and of the second one no line
spectral pairs. -/
def encode1600 (voiced0 : BitVec 32) (frame1 : Analysis F) (voiced2 : BitVec 32)
    (frame3 : Analysis F) : Option (List UInt8) := do
  let woIndex1 := encodeWo math frame1.Wo WO_BITS
  let eIndex1 := encodeEnergy math frame1.e E_BITS
  let woIndex3 := encodeWo math frame3.Wo WO_BITS
  let eIndex3 := encodeEnergy math frame3.e E_BITS
  let lspIndexes ← encodeLspsScalar math.toFloatMath (List.replicate LPC_ORD 0) frame3.lsps LPC_ORD
  writeFrame ([voiced0, frame1.voiced, index32 woIndex1, index32 eIndex1, voiced2, frame3.voiced,
    index32 woIndex3, index32 eIndex3] ++
      (lspIndexes.take LSP_SCALAR_INDEXES).map (BitVec.ofNat 32)) widths1600

end

/-- The frames of one byte string after another. -/
def decodeStream {F : Type}
    (decode : Codec2Internal F → List UInt8 → Option (List (Synthesis F) × Codec2Internal F)) :
    Codec2Internal F → List (List UInt8) → Option (List (Synthesis F) × Codec2Internal F)
  | self, [] => some ([], self)
  | self, bits :: stream => do
    let (frames, self) ← decode self bits
    let (later, self) ← decodeStream decode self stream
    pure (frames ++ later, self)

end Lxst.Codec2
