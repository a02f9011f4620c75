import RsLxst.Lib.Checked

/-!
# Bit fields

`lxst-codec2/src/native/mod.rs`: `pack_natural_or_gray` and `unpack_natural_or_gray`. A field is an
`i32`, so a `BitVec 32`; fields are at most 32 bits wide. The packer's bit index is a `usize`, a
`Nat` here, and the unpacker's is a `u32`, which an addition must not leave.
-/

set_option autoImplicit false

namespace Lxst.Codec2

open Checked

def WordSize : Nat := 8
def IndexMask : Nat := 0x7
def ShiftRight : Nat := 3

def U32_MAX : Nat := 0xFFFFFFFF

/-- The bits that are left of the byte at a bit index. -/
def bitsLeft (bitIndex : Nat) : Nat := WordSize - (bitIndex &&& IndexMask)

def sliceWidth (bitIndex fieldWidth : Nat) : Nat :=
  if bitsLeft bitIndex < fieldWidth then bitsLeft bitIndex else fieldWidth

theorem sliceWidth_pos (bitIndex : Nat) {fieldWidth : Nat} (h : ¬ fieldWidth = 0) :
    0 < sliceWidth bitIndex fieldWidth := by
  have hmask : bitIndex &&& IndexMask ≤ 7 := Nat.and_le_right
  unfold sliceWidth bitsLeft WordSize
  split <;> omega

/-! ## Packing -/

/-- The slice of a field that goes into the byte at the bit index. -/
def packedSlice (bitIndex : Nat) (field : BitVec 32) (fieldWidth : Nat) : UInt8 :=
  let width := sliceWidth bitIndex fieldWidth
  let slice := (field.sshiftRight (fieldWidth - width)) <<< (bitsLeft bitIndex - width)
  UInt8.ofNat (slice &&& 0xFF).toNat

/-- The loop of `pack_natural_or_gray`. -/
def packSlices (bitArray : List UInt8) (bitIndex : Nat) (field : BitVec 32) (fieldWidth : Nat) :
    Checked Empty (List UInt8 × Nat) :=
  if _h : fieldWidth = 0 then pure (bitArray, bitIndex)
  else do
    let wordIndex := bitIndex >>> ShiftRight
    let word ← index bitArray wordIndex
    packSlices (bitArray.set wordIndex (word ||| packedSlice bitIndex field fieldWidth))
      (bitIndex + sliceWidth bitIndex fieldWidth) field
      (fieldWidth - sliceWidth bitIndex fieldWidth)
termination_by fieldWidth
decreasing_by
  have hpos := sliceWidth_pos bitIndex ‹_›
  omega

def packNaturalOrGray (bitArray : List UInt8) (bitIndex : Nat) (field : BitVec 32)
    (fieldWidth gray : Nat) : Checked Empty (List UInt8 × Nat) :=
  let field := if gray > 0 then field.sshiftRight 1 ^^^ field else field
  packSlices bitArray bitIndex field fieldWidth

/-! ## Unpacking -/

/-- The slice of a field that the byte at the bit index holds. -/
def unpackedSlice (word : UInt8) (bitIndex fieldWidth : Nat) : Nat :=
  let width := sliceWidth bitIndex fieldWidth
  ((word.toNat >>> (bitsLeft bitIndex - width)) &&& ((1 <<< width) - 1)) <<< (fieldWidth - width)

/-- The loop of `unpack_natural_or_gray`. -/
def unpackSlices (bitArray : List UInt8) (bitIndex field fieldWidth : Nat) :
    Checked Empty (Nat × Nat) :=
  if _h : fieldWidth = 0 then pure (field, bitIndex)
  else do
    let word ← index bitArray (bitIndex >>> ShiftRight)
    let next ← add U32_MAX bitIndex (sliceWidth bitIndex fieldWidth)
    unpackSlices bitArray next (field ||| unpackedSlice word bitIndex fieldWidth)
      (fieldWidth - sliceWidth bitIndex fieldWidth)
termination_by fieldWidth
decreasing_by
  have hpos := sliceWidth_pos bitIndex ‹_›
  omega

/-- The conversion from Gray code. -/
def fromGray (field : Nat) : Nat :=
  let t := field ^^^ (field >>> 8)
  let t := t ^^^ (t >>> 4)
  let t := t ^^^ (t >>> 2)
  t ^^^ (t >>> 1)

/-- The field, and the bit index after it. -/
def unpackNaturalOrGray (bitArray : List UInt8) (bitIndex fieldWidth gray : Nat) :
    Checked Empty (BitVec 32 × Nat) := do
  let (field, bitIndex) ← unpackSlices bitArray bitIndex 0 fieldWidth
  pure (BitVec.ofNat 32 (if gray ≠ 0 then fromGray field else field), bitIndex)

/-! ## A sequence of fields -/

/-- A field as it is packed; `gray` is the flag. -/
structure BitField where
  value : BitVec 32
  width : Nat
  gray : Nat
  deriving DecidableEq, Repr

def packFields (bitArray : List UInt8) (bitIndex : Nat) (fields : List BitField) :
    Checked Empty (List UInt8 × Nat) :=
  fields.foldlM (fun (bitArray, bitIndex) field =>
    packNaturalOrGray bitArray bitIndex field.value field.width field.gray) (bitArray, bitIndex)

/-- The values of fields of these widths and flags. -/
def unpackFields (bitArray : List UInt8) (bitIndex : Nat) :
    List (Nat × Nat) → Checked Empty (List (BitVec 32) × Nat)
  | [] => pure ([], bitIndex)
  | (width, gray) :: fields => do
    let (value, bitIndex) ← unpackNaturalOrGray bitArray bitIndex width gray
    let (values, bitIndex) ← unpackFields bitArray bitIndex fields
    pure (value :: values, bitIndex)

end Lxst.Codec2
