import RsLxst.Codec2.BitFields
import RsLxst.Lib.Blocks
import RsLxst.Lib.MBest

/-!
# The 700C quantizer

`lxst-codec2/src/native/newamp1.rs`: the five-candidate search (`quantize`), the exhaustive one that
its tests compare it with, and the four indexes of a frame as they are packed. The arithmetic is
any type `F` with the operations that the code uses. A codebook is the list of its vectors, the
`chunks_exact(K)` of the flat table, and a vector that an index does not find is `none`: there the
table would be read out of bounds. `start` stands for `1e32`, where the searches begin.
-/

set_option autoImplicit false

namespace Lxst.Codec2

open MBest

def K : Nat := 20

variable {F : Type}

abbrev Codebook (F : Type) := List (Vector F K)

section
variable [Zero F] [Add F] [Sub F] [Mul F]

/-- `error` and the square of a difference. -/
def addSquare (vector target : Vector F K) (error : F) (k : Fin K) : F :=
  let difference := vector[k] - target[k]
  error + difference * difference

/-- The groups of `(0..K).step_by(4)`. -/
def groups : List (List (Fin K)) := Blocks.equalBlocks 4 5 (List.finRange K)

/-- What `quantize` leaves of the target after a vector of the first codebook. -/
def residual (vq1 : Codebook F) (target : Vector F K) (first : Nat) : Option (Vector F K) :=
  vq1[first]?.map fun vector => Vector.zipWith (· - ·) target vector

/-- The error of `exhaustive`. -/
def fullError (vector target : Vector F K) : F :=
  (vector.toList.zip target.toList).foldl (fun sum (a, b) => sum + (a - b) * (a - b)) 0

variable [LT F] [DecidableLT F]

/-- The five candidates of the exhaustive search. -/
def exhaustiveBest (vq1 : Codebook F) (start : F) (target : Vector F K) : Vector (F × Nat) 5 :=
  vq1.zipIdx.foldl
    (fun best (vector, index) => insert best (fullError vector target, index))
    (Vector.replicate 5 (start, 0))

def exhaustive (vq1 vq2 : Codebook F) (start : F) (target : Vector F K) : Option (Nat × Nat) := do
  let best := exhaustiveBest vq1 start target
  let result ← best.toList.foldlM (fun result (_, first) =>
    (residual vq1 target first).map fun residual =>
      vq2.zipIdx.foldl (fun result (vector, second) =>
        better result (fullError vector residual, first, second)) result)
    (start, 0, 0)
  pure result.2

variable [LE F] [DecidableLE F]

/-- The sum of squares, abandoned once a group has brought it to the limit. -/
def squaredError (vector target : Vector F K) (limit : F) : F :=
  scanUntil limit (addSquare vector target) groups 0

/-- The five candidates. -/
def quantizeBest (vq1 : Codebook F) (start : F) (target : Vector F K) : Vector (F × Nat) 5 :=
  vq1.zipIdx.foldl
    (fun best (vector, index) => insert best (squaredError vector target best[4].1, index))
    (Vector.replicate 5 (start, 0))

/-- The second codebook, each vector for all candidates. -/
def quantizeWinners (vq2 : Codebook F) (start : F) (residuals : List (Vector F K)) :
    List (F × Nat) :=
  vq2.zipIdx.foldl
    (fun winners (vector, second) =>
      List.zipWith
        (fun residual winner => better winner (squaredError vector residual winner.1, second))
        residuals winners)
    (List.replicate 5 (start, 0))

def quantize (vq1 vq2 : Codebook F) (start : F) (target : Vector F K) : Option (Nat × Nat) := do
  let best := quantizeBest vq1 start target
  let residuals ← best.toList.mapM fun (_, first) => residual vq1 target first
  let winners := quantizeWinners vq2 start residuals
  let result := (best.toList.zip winners).foldl
    (fun result ((_, first), error, second) => better result (error, first, second)) (start, 0, 0)
  pure result.2

/-! ## The indexes of a frame -/

/-- The entry of the energy table that is closest to the mean; `max` stands for `f32::MAX`. -/
def energyIndex (energies : List F) (max mean : F) : Nat :=
  (energies.zipIdx.foldl
    (fun kept (value, index) =>
      let difference := value - mean
      better kept (difference * difference, index))
    (max, 0)).2

/-- The pitch index, from the floor of `64.0 * normal + 0.5`; `none` is not a number, which the cast
to `i32` makes zero. -/
def pitchIndex (voiced : Bool) (floor : Option Int) : BitVec 32 :=
  if voiced then
    match floor with
    | some level => BitVec.ofInt 32 (max 1 (min level 63))
    | none => 0
  else 0

variable [Div F] [NatCast F]

/-- `encode_model` of the levels that `rate_k` gives and of the pitch index. -/
def encodeModel (vq1 vq2 : Codebook F) (energies : List F) (start max : F) (levels : Vector F K)
    (pitch : BitVec 32) : Option (List (BitVec 32)) := do
  let sum := levels.toList.foldl (· + ·) 0
  let mean := sum / (K : F)
  let vector := levels.map (· - mean)
  let (first, second) ← quantize vq1 vq2 start vector
  let energy := energyIndex energies max mean
  pure [BitVec.ofNat 32 first, BitVec.ofNat 32 second, BitVec.ofNat 32 energy, pitch]

end

def indexWidths : List Nat := [9, 9, 4, 6]

/-- The bits that `codec2_encode_700c` writes, and its offset. -/
def writeIndexes (bits : List UInt8) (indexes : List (BitVec 32)) :
    Checked Empty (List UInt8 × Nat) :=
  packFields (List.replicate bits.length 0) 0
    ((indexes.zip indexWidths).map fun (value, width) => { value, width, gray := 0 })

/-- The indexes that `codec2_decode_700c` reads, and its offset. -/
def readIndexes (bits : List UInt8) : Checked Empty (List (BitVec 32) × Nat) :=
  unpackFields bits 0 (indexWidths.map fun width => (width, 0))

end Lxst.Codec2
