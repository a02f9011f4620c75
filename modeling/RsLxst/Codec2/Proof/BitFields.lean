import RsLxst.Codec2.BitFields
import RsLxst.Lib.BitString
import RsLxst.Lib.Blocks
import RsLxst.Lib.GrayCode

/-!
# Fields come back from the bits they are packed into

A step of the packer puts a slice of the field into one byte (`packed_bits`), so that the loop sets
the bits of the field and no others (`packSlices_spec`). The unpacker reads the bits at its index
(`unpackSlices_spec`). What the two say of a sequence of fields is `packFields_spec`: a field stays
as it was packed, for the fields after it are packed behind it.
-/

set_option autoImplicit false

namespace Lxst.Codec2

open Checked BitString GrayCode

/-! ## One slice -/

theorem bitsLeft_eq (bitIndex : Nat) : bitsLeft bitIndex = 8 - bitIndex % 8 := by
  have hmask : bitIndex &&& IndexMask = bitIndex % 8 := Nat.and_two_pow_sub_one_eq_mod bitIndex 3
  rw [bitsLeft, hmask, WordSize]

theorem wordIndex_eq (bitIndex : Nat) : bitIndex >>> ShiftRight = bitIndex / 8 :=
  Nat.shiftRight_eq_div_pow bitIndex 3

theorem sliceWidth_eq (bitIndex fieldWidth : Nat) :
    sliceWidth bitIndex fieldWidth = min (8 - bitIndex % 8) fieldWidth := by
  rw [sliceWidth, bitsLeft_eq]
  split <;> omega

theorem testBit_packedSlice {field : BitVec 32} (hfield : field.toNat < 2 ^ 31)
    (bitIndex fieldWidth : Nat) {p : Nat} (hp : p < 8) :
    (packedSlice bitIndex field fieldWidth).toNat.testBit p =
      (decide (bitsLeft bitIndex - sliceWidth bitIndex fieldWidth ≤ p) &&
        field.toNat.testBit (fieldWidth - sliceWidth bitIndex fieldWidth +
          (p - (bitsLeft bitIndex - sliceWidth bitIndex fieldWidth)))) := by
  have hmsb : field.msb = false := by
    rw [BitVec.msb_eq_false_iff_two_mul_lt]
    omega
  have hmask : ∀ q < 8, (0xFF : BitVec 32).getLsbD q = true := by decide
  have hword : p < 32 := by omega
  rw [packedSlice, testBit_ofNat hp, BitVec.sshiftRight_eq_of_msb_false hmsb,
    BitVec.testBit_toNat, BitVec.getLsbD_and, BitVec.getLsbD_shiftLeft,
    BitVec.getLsbD_ushiftRight, hmask p hp, ← BitVec.testBit_toNat]
  by_cases hlow : p < bitsLeft bitIndex - sliceWidth bitIndex fieldWidth
  · simp [hlow, Nat.not_le.mpr hlow]
  · simp [hlow, hword, Nat.not_lt.mp hlow]

theorem testBit_unpackedSlice (word : UInt8) (bitIndex fieldWidth j : Nat) :
    (unpackedSlice word bitIndex fieldWidth).testBit j =
      (decide (fieldWidth - sliceWidth bitIndex fieldWidth ≤ j) && decide (j < fieldWidth) &&
        word.toNat.testBit (bitsLeft bitIndex - sliceWidth bitIndex fieldWidth +
          (j - (fieldWidth - sliceWidth bitIndex fieldWidth)))) := by
  have hle : sliceWidth bitIndex fieldWidth ≤ fieldWidth := by
    rw [sliceWidth_eq]
    omega
  rw [unpackedSlice, Nat.testBit_shiftLeft, Nat.testBit_and, Nat.testBit_shiftRight,
    Nat.shiftLeft_eq, Nat.one_mul, Nat.testBit_two_pow_sub_one]
  by_cases hj : fieldWidth - sliceWidth bitIndex fieldWidth ≤ j
  · have hiff : j - (fieldWidth - sliceWidth bitIndex fieldWidth) < sliceWidth bitIndex fieldWidth ↔
        j < fieldWidth := by omega
    simp [hj, hiff, Bool.and_comm]
  · simp [hj]

/-! ## The loops -/

/-- The bit of a byte that takes the slice. -/
theorem packed_bit {field : BitVec 32} (hfield : field.toNat < 2 ^ 31) {bitIndex fieldWidth : Nat}
    (hwhole : field.toNat < 2 ^ fieldWidth ∨ bitIndex % 8 = 0) {i : Nat}
    (hbyte : i / 8 = bitIndex / 8) :
    (packedSlice bitIndex field fieldWidth).toNat.testBit (7 - i % 8) =
      (decide (bitIndex ≤ i ∧ i < bitIndex + sliceWidth bitIndex fieldWidth) &&
        field.toNat.testBit (fieldWidth - 1 - (i - bitIndex))) := by
  have hslice := sliceWidth_eq bitIndex fieldWidth
  have hleft := bitsLeft_eq bitIndex
  rw [testBit_packedSlice hfield _ _ (by omega)]
  generalize sliceWidth bitIndex fieldWidth = width at *
  generalize bitsLeft bitIndex = left at *
  by_cases hbefore : i < bitIndex
  · -- the bits above the slice, which a field that starts in this byte does not have
    have hlow : field.toNat < 2 ^ fieldWidth := by
      rcases hwhole with hlow | haligned
      · exact hlow
      · omega
    have hge : fieldWidth ≤ fieldWidth - width + (7 - i % 8 - (left - width)) := by omega
    rw [Nat.testBit_lt_two_pow (Nat.lt_of_lt_of_le hlow (Nat.pow_le_pow_right Nat.two_pos hge))]
    simp [Nat.not_le.mpr hbefore]
  · by_cases hin : i < bitIndex + width
    · have hpos : fieldWidth - width + (7 - i % 8 - (left - width)) =
          fieldWidth - 1 - (i - bitIndex) := by omega
      have hle : left - width ≤ 7 - i % 8 := by omega
      rw [hpos]
      simp [hle, hin, Nat.not_lt.mp hbefore]
    · have hout : ¬ left - width ≤ 7 - i % 8 := by omega
      simp [hout, hin]

theorem packSlices_step (field : BitVec 32) {bitArray : List UInt8} {bitIndex fieldWidth : Nat}
    (hwidth : ¬ fieldWidth = 0) (hword : bitIndex / 8 < bitArray.length) :
    packSlices bitArray bitIndex field fieldWidth =
      packSlices
        (bitArray.set (bitIndex / 8)
          (bitArray[bitIndex / 8] ||| packedSlice bitIndex field fieldWidth))
        (bitIndex + sliceWidth bitIndex fieldWidth) field
        (fieldWidth - sliceWidth bitIndex fieldWidth) := by
  rw [packSlices, dif_neg hwidth]
  simp only [wordIndex_eq, index_ok (List.getElem?_eq_getElem hword)]
  rfl

/-- What one step sets and what is left to set are the bits of the field. -/
theorem packed_bits {field : BitVec 32} (hfield : field.toNat < 2 ^ 31) {bitArray : List UInt8}
    {bitIndex fieldWidth : Nat} (hwhole : field.toNat < 2 ^ fieldWidth ∨ bitIndex % 8 = 0)
    (hword : bitIndex / 8 < bitArray.length) (i : Nat) :
    (bitAt (bitArray.set (bitIndex / 8)
        (bitArray[bitIndex / 8] ||| packedSlice bitIndex field fieldWidth)) i ||
      (decide (bitIndex + sliceWidth bitIndex fieldWidth ≤ i ∧ i < bitIndex + fieldWidth) &&
        field.toNat.testBit (fieldWidth - 1 - (i - bitIndex)))) =
      (bitAt bitArray i ||
        (decide (bitIndex ≤ i ∧ i < bitIndex + fieldWidth) &&
          field.toNat.testBit (fieldWidth - 1 - (i - bitIndex)))) := by
  have hslice := sliceWidth_eq bitIndex fieldWidth
  rw [bitAt_set hword]
  by_cases hbyte : i / 8 = bitIndex / 8
  · have hold : bitAt bitArray i = bitArray[bitIndex / 8].toNat.testBit (7 - i % 8) := by
      apply bitAt_of_getElem?
      rw [hbyte, List.getElem?_eq_getElem hword]
    rw [if_pos hbyte, UInt8.toNat_or, Nat.testBit_or, packed_bit hfield hwhole hbyte, hold,
      Bool.or_assoc, ← Bool.and_or_distrib_right, ← Bool.decide_or]
    congr 3
    apply propext
    omega
  · rw [if_neg hbyte]
    congr 3
    apply propext
    omega

/-- Packing sets the bits of the field, most significant first, and no others. -/
theorem packSlices_spec {field : BitVec 32} (hfield : field.toNat < 2 ^ 31) {bitArray : List UInt8}
    {bitIndex fieldWidth : Nat}
    (hwhole : field.toNat < 2 ^ fieldWidth ∨ bitIndex % 8 = 0 ∨ fieldWidth = 0)
    (hfits : bitIndex + fieldWidth ≤ 8 * bitArray.length) :
    ∃ packed, packSlices bitArray bitIndex field fieldWidth = .ok (packed, bitIndex + fieldWidth) ∧
      packed.length = bitArray.length ∧
      ∀ i, bitAt packed i = (bitAt bitArray i ||
        (decide (bitIndex ≤ i ∧ i < bitIndex + fieldWidth) &&
          field.toNat.testBit (fieldWidth - 1 - (i - bitIndex)))) := by
  induction fieldWidth using Nat.strongRecOn generalizing bitArray bitIndex with
  | ind fieldWidth ih =>
    by_cases hzero : fieldWidth = 0
    · subst hzero
      refine ⟨bitArray, by rw [packSlices]; rfl, rfl, fun i => ?_⟩
      have hnone : ¬ (bitIndex ≤ i ∧ i < bitIndex + 0) := by omega
      rw [decide_eq_false hnone, Bool.false_and, Bool.or_false]
    · have hwhole : field.toNat < 2 ^ fieldWidth ∨ bitIndex % 8 = 0 := by
        rcases hwhole with hlow | haligned | hwidth
        · exact .inl hlow
        · exact .inr haligned
        · exact absurd hwidth hzero
      have hword : bitIndex / 8 < bitArray.length := by omega
      have hbits := packed_bits hfield hwhole hword
      have hslice := sliceWidth_eq bitIndex fieldWidth
      have hpos := sliceWidth_pos bitIndex hzero
      have hstep := packSlices_step field hzero hword
      have hset : (bitArray.set (bitIndex / 8)
          (bitArray[bitIndex / 8] ||| packedSlice bitIndex field fieldWidth)).length =
          bitArray.length := List.length_set
      generalize sliceWidth bitIndex fieldWidth = width at *
      generalize bitArray.set (bitIndex / 8)
        (bitArray[bitIndex / 8] ||| packedSlice bitIndex field fieldWidth) = stepped at *
      have hrest : bitIndex + width + (fieldWidth - width) ≤ 8 * stepped.length := by omega
      obtain ⟨packed, hpacked, hlength, hrest⟩ :=
        ih (fieldWidth - width) (by omega) (by omega) hrest
      refine ⟨packed, ?_, ?_, fun i => ?_⟩
      · rw [hstep, hpacked]
        congr 2
        omega
      · rw [hlength, hset]
      · rw [hrest, ← hbits i]
        have hend : bitIndex + width + (fieldWidth - width) = bitIndex + fieldWidth := by omega
        rw [hend]
        by_cases hin : bitIndex + width ≤ i ∧ i < bitIndex + fieldWidth
        · have hpos : fieldWidth - width - 1 - (i - (bitIndex + width)) =
              fieldWidth - 1 - (i - bitIndex) := by omega
          rw [hpos]
        · rw [decide_eq_false hin, Bool.false_and, Bool.false_and]

theorem unpackSlices_step {bitArray : List UInt8} {bitIndex fieldWidth : Nat} (field : Nat)
    (hwidth : ¬ fieldWidth = 0) (hword : bitIndex / 8 < bitArray.length)
    (hindex : bitIndex + sliceWidth bitIndex fieldWidth ≤ U32_MAX) :
    unpackSlices bitArray bitIndex field fieldWidth =
      unpackSlices bitArray (bitIndex + sliceWidth bitIndex fieldWidth)
        (field ||| unpackedSlice bitArray[bitIndex / 8] bitIndex fieldWidth)
        (fieldWidth - sliceWidth bitIndex fieldWidth) := by
  rw [unpackSlices, dif_neg hwidth]
  simp only [wordIndex_eq, index_ok (List.getElem?_eq_getElem hword), add_ok hindex]
  rfl

/-- A slice that is read holds the bits of the byte string. -/
theorem unpacked_bit {bitArray : List UInt8} {bitIndex fieldWidth : Nat}
    (hword : bitIndex / 8 < bitArray.length) (j : Nat) :
    (unpackedSlice bitArray[bitIndex / 8] bitIndex fieldWidth).testBit j =
      (decide (fieldWidth - sliceWidth bitIndex fieldWidth ≤ j ∧ j < fieldWidth) &&
        bitAt bitArray (bitIndex + (fieldWidth - 1 - j))) := by
  have hslice := sliceWidth_eq bitIndex fieldWidth
  have hleft := bitsLeft_eq bitIndex
  rw [testBit_unpackedSlice, ← Bool.decide_and]
  by_cases hin : fieldWidth - sliceWidth bitIndex fieldWidth ≤ j ∧ j < fieldWidth
  · have hbyte : (bitIndex + (fieldWidth - 1 - j)) / 8 = bitIndex / 8 := by omega
    have hbit : bitAt bitArray (bitIndex + (fieldWidth - 1 - j)) =
        bitArray[bitIndex / 8].toNat.testBit (7 - (bitIndex + (fieldWidth - 1 - j)) % 8) := by
      apply bitAt_of_getElem?
      rw [hbyte, List.getElem?_eq_getElem hword]
    rw [hbit]
    congr 2
    omega
  · rw [decide_eq_false hin, Bool.false_and, Bool.false_and]

/-- Unpacking reads the bits at the bit index, most significant first. -/
theorem unpackSlices_spec {bitArray : List UInt8} {bitIndex fieldWidth : Nat} (field : Nat)
    (hfits : bitIndex + fieldWidth ≤ 8 * bitArray.length)
    (hindex : bitIndex + fieldWidth ≤ U32_MAX) :
    ∃ value, unpackSlices bitArray bitIndex field fieldWidth =
        .ok (value, bitIndex + fieldWidth) ∧
      ∀ j, value.testBit j = (field.testBit j ||
        (decide (j < fieldWidth) && bitAt bitArray (bitIndex + (fieldWidth - 1 - j)))) := by
  induction fieldWidth using Nat.strongRecOn generalizing bitIndex field with
  | ind fieldWidth ih =>
    by_cases hzero : fieldWidth = 0
    · subst hzero
      refine ⟨field, by rw [unpackSlices]; rfl, fun j => ?_⟩
      rw [decide_eq_false (Nat.not_lt_zero j), Bool.false_and, Bool.or_false]
    · have hword : bitIndex / 8 < bitArray.length := by omega
      have hbits := @unpacked_bit bitArray bitIndex fieldWidth hword
      have hslice := sliceWidth_eq bitIndex fieldWidth
      have hpos := sliceWidth_pos bitIndex hzero
      have hstep := unpackSlices_step field hzero hword (by omega)
      generalize sliceWidth bitIndex fieldWidth = width at *
      have hleft : bitIndex + width + (fieldWidth - width) ≤ 8 * bitArray.length := by omega
      obtain ⟨value, hvalue, hrest⟩ := ih (fieldWidth - width) (by omega)
        (field ||| unpackedSlice bitArray[bitIndex / 8] bitIndex fieldWidth) hleft (by omega)
      refine ⟨value, ?_, fun j => ?_⟩
      · rw [hstep, hvalue]
        congr 2
        omega
      · rw [hrest, Nat.testBit_or, hbits, Bool.or_assoc]
        congr 1
        by_cases hlow : j < fieldWidth - width
        · have hindex : bitIndex + width + (fieldWidth - width - 1 - j) =
              bitIndex + (fieldWidth - 1 - j) := by omega
          have hnot : ¬ (fieldWidth - width ≤ j ∧ j < fieldWidth) := by omega
          have hlt : j < fieldWidth := by omega
          rw [decide_eq_false hnot, decide_eq_true hlow, decide_eq_true hlt, hindex]
          simp
        · have hiff : (fieldWidth - width ≤ j ∧ j < fieldWidth) ↔ j < fieldWidth := by omega
          have hsame : decide (fieldWidth - width ≤ j ∧ j < fieldWidth) = decide (j < fieldWidth) :=
            decide_eq_decide.mpr hiff
          rw [decide_eq_false hlow, hsame]
          simp

theorem unpackSlices_index_le {bitArray : List UInt8} {bitIndex field fieldWidth : Nat}
    {value next : Nat}
    (h : unpackSlices bitArray bitIndex field fieldWidth = .ok (value, next))
    (hindex : bitIndex ≤ U32_MAX) : next ≤ U32_MAX := by
  induction fieldWidth using Nat.strongRecOn generalizing bitIndex field with
  | ind fieldWidth ih =>
    rw [unpackSlices] at h
    by_cases hzero : fieldWidth = 0
    · rw [dif_pos hzero] at h
      cases h
      exact hindex
    · have hpos := sliceWidth_pos bitIndex hzero
      rw [dif_neg hzero] at h
      obtain ⟨word, -, h⟩ := bind_ok_iff.mp h
      obtain ⟨index, hadd, h⟩ := bind_ok_iff.mp h
      obtain ⟨hle, rfl⟩ := add_ok_iff.mp hadd
      exact ih _ (by omega) h hle

/-! ## One field -/

/-- The bits of `value` stand at `start`, most significant first. -/
def Holds (bitArray : List UInt8) (start value width : Nat) : Prop :=
  ∀ j, value.testBit j = (decide (j < width) && bitAt bitArray (start + (width - 1 - j)))

theorem Holds.congr {bitArray bitArray' : List UInt8} {start value width : Nat}
    (h : Holds bitArray start value width)
    (hsame : ∀ i, start ≤ i → i < start + width → bitAt bitArray' i = bitAt bitArray i) :
    Holds bitArray' start value width := by
  intro j
  rw [h j]
  by_cases hj : j < width
  · rw [hsame _ (by omega) (by omega)]
  · rw [decide_eq_false hj, Bool.false_and, Bool.false_and]

/-- The field as it is packed. -/
def BitField.coded (field : BitField) : Nat :=
  if field.gray > 0 then xorShift 1 field.value.toNat else field.value.toNat

/-- A value in range. -/
def BitField.Fits (field : BitField) : Prop :=
  field.value.toNat < 2 ^ field.width ∧ field.width ≤ 16

theorem BitField.Fits.lt {field : BitField} (h : field.Fits) : field.value.toNat < 2 ^ 16 :=
  Nat.lt_of_lt_of_le h.1 (Nat.pow_le_pow_right Nat.two_pos h.2)

theorem BitField.Fits.coded_lt {field : BitField} (h : field.Fits) :
    field.coded < 2 ^ field.width := by
  unfold BitField.coded
  split
  · exact xorShift_lt h.1
  · exact h.1

/-- The word that the packer makes of a field. -/
theorem BitField.Fits.exists_word {field : BitField} (h : field.Fits) :
    ∃ word : BitVec 32,
      (if field.gray > 0 then field.value.sshiftRight 1 ^^^ field.value else field.value) = word ∧
        word.toNat = field.coded := by
  have hlt := h.lt
  have hmsb : field.value.msb = false := by
    rw [BitVec.msb_eq_false_iff_two_mul_lt]
    omega
  refine ⟨_, rfl, ?_⟩
  unfold BitField.coded
  split
  · rw [BitVec.sshiftRight_eq_of_msb_false hmsb, BitVec.toNat_xor, BitVec.toNat_ushiftRight,
      Nat.xor_comm]
    rfl
  · rfl

theorem fromGray_eq (field : Nat) : fromGray field = cascade field := rfl

/-- A field is packed into zeros and nothing else changes. -/
theorem packNaturalOrGray_spec {bitArray : List UInt8} {bitIndex : Nat} {field : BitField}
    (hfield : field.Fits) (hfits : bitIndex + field.width ≤ 8 * bitArray.length)
    (hzeros : ∀ i, bitIndex ≤ i → bitAt bitArray i = false) :
    ∃ packed, packNaturalOrGray bitArray bitIndex field.value field.width field.gray =
        .ok (packed, bitIndex + field.width) ∧
      packed.length = bitArray.length ∧ Holds packed bitIndex field.coded field.width ∧
      (∀ i, i < bitIndex → bitAt packed i = bitAt bitArray i) ∧
      ∀ i, bitIndex + field.width ≤ i → bitAt packed i = false := by
  obtain ⟨word, hword, hcoded⟩ := hfield.exists_word
  have hcodedlt := hfield.coded_lt
  have hmax : 2 ^ field.width ≤ 2 ^ 16 := Nat.pow_le_pow_right Nat.two_pos hfield.2
  have hlow : word.toNat < 2 ^ field.width := by
    rw [hcoded]
    exact hcodedlt
  obtain ⟨packed, hpacked, hlength, hbits⟩ := packSlices_spec (by omega) (.inl hlow) hfits
  rw [hcoded] at hbits
  refine ⟨packed, ?_, hlength, fun j => ?_, fun i hi => ?_, fun i hi => ?_⟩
  · rw [packNaturalOrGray, hword]
    exact hpacked
  · by_cases hj : j < field.width
    · have hin : bitIndex ≤ bitIndex + (field.width - 1 - j) ∧
          bitIndex + (field.width - 1 - j) < bitIndex + field.width := by omega
      have hback : field.width - 1 - (bitIndex + (field.width - 1 - j) - bitIndex) = j := by omega
      rw [hbits, hzeros _ hin.1, decide_eq_true hin, hback, decide_eq_true hj]
      simp
    · have hge : 2 ^ field.width ≤ 2 ^ j := Nat.pow_le_pow_right Nat.two_pos (by omega)
      rw [Nat.testBit_lt_two_pow (by omega), decide_eq_false hj, Bool.false_and]
  · have hout : ¬ (bitIndex ≤ i ∧ i < bitIndex + field.width) := by omega
    rw [hbits, decide_eq_false hout, Bool.false_and, Bool.or_false]
  · have hout : ¬ (bitIndex ≤ i ∧ i < bitIndex + field.width) := by omega
    rw [hbits, decide_eq_false hout, Bool.false_and, Bool.or_false]
    exact hzeros i (by omega)

/-- A field that stands in the bits is read back. -/
theorem unpackNaturalOrGray_spec {bitArray : List UInt8} {bitIndex : Nat} {field : BitField}
    (hfield : field.Fits) (hholds : Holds bitArray bitIndex field.coded field.width)
    (hfits : bitIndex + field.width ≤ 8 * bitArray.length)
    (hindex : bitIndex + field.width ≤ U32_MAX) :
    unpackNaturalOrGray bitArray bitIndex field.width field.gray =
      .ok (field.value, bitIndex + field.width) := by
  obtain ⟨value, hvalue, hbits⟩ := unpackSlices_spec 0 hfits hindex
  obtain rfl : value = field.coded := by
    apply Nat.eq_of_testBit_eq
    intro j
    rw [hbits, hholds j, Nat.zero_testBit, Bool.false_or]
  have hdecoded : (if field.gray ≠ 0 then fromGray field.coded else field.coded) =
      field.value.toNat := by
    unfold BitField.coded
    by_cases hgray : field.gray = 0
    · simp [hgray]
    · rw [if_pos hgray, if_pos (Nat.pos_of_ne_zero hgray), fromGray_eq, cascade_gray hfield.lt]
  rw [unpackNaturalOrGray, hvalue]
  show Except.ok (BitVec.ofNat 32 _, _) = _
  rw [hdecoded, BitVec.ofNat_toNat, BitVec.setWidth_eq]

theorem unpackNaturalOrGray_index_le {bitArray : List UInt8} {bitIndex width gray : Nat}
    {value : BitVec 32} {next : Nat}
    (h : unpackNaturalOrGray bitArray bitIndex width gray = .ok (value, next))
    (hindex : bitIndex ≤ U32_MAX) : next ≤ U32_MAX := by
  obtain ⟨⟨field, index⟩, hslices, h⟩ := bind_ok_iff.mp h
  cases h
  exact unpackSlices_index_le hslices hindex

/-! ## A sequence of fields -/

theorem packFields_cons (bitArray : List UInt8) (bitIndex : Nat) (field : BitField)
    (fields : List BitField) :
    packFields bitArray bitIndex (field :: fields) =
      (packNaturalOrGray bitArray bitIndex field.value field.width field.gray >>= fun packed =>
        packFields packed.1 packed.2 fields) := rfl

/-- The width and the flag of a field. -/
def BitField.shape (field : BitField) : Nat × Nat := (field.width, field.gray)

def totalWidth (fields : List BitField) : Nat := Blocks.total (fields.map BitField.width)

theorem packFields_spec {fields : List BitField} (hfields : ∀ field ∈ fields, field.Fits)
    {bitArray : List UInt8} {bitIndex : Nat}
    (hfits : bitIndex + totalWidth fields ≤ 8 * bitArray.length)
    (hindex : bitIndex + totalWidth fields ≤ U32_MAX)
    (hzeros : ∀ i, bitIndex ≤ i → bitAt bitArray i = false) :
    ∃ packed, packFields bitArray bitIndex fields = .ok (packed, bitIndex + totalWidth fields) ∧
      packed.length = bitArray.length ∧
      unpackFields packed bitIndex (fields.map BitField.shape) =
        .ok (fields.map BitField.value, bitIndex + totalWidth fields) ∧
      (∀ i, i < bitIndex → bitAt packed i = bitAt bitArray i) ∧
      ∀ i, bitIndex + totalWidth fields ≤ i → bitAt packed i = false := by
  induction fields generalizing bitArray bitIndex with
  | nil => exact ⟨bitArray, rfl, rfl, rfl, fun _ _ => rfl, hzeros⟩
  | cons field fields ih =>
    obtain ⟨hfield, hrest⟩ := List.forall_mem_cons.mp hfields
    have htotal : totalWidth (field :: fields) = field.width + totalWidth fields := rfl
    rw [htotal] at hfits hindex
    obtain ⟨head, hhead, hlength, hholds, hbefore, hafter⟩ :=
      packNaturalOrGray_spec hfield (by omega) hzeros
    obtain ⟨packed, hpacked, hlength', hvalues, hkept, hclear⟩ :=
      ih hrest (by rw [hlength]; omega) (by omega) hafter
    have hfinal : Holds packed bitIndex field.coded field.width :=
      hholds.congr fun i _ hi => hkept i hi
    have hvalue := unpackNaturalOrGray_spec hfield hfinal (by omega) (by omega)
    refine ⟨packed, ?_, by omega, ?_, fun i hi => ?_, fun i hi => ?_⟩
    · rw [packFields_cons, hhead, htotal, ← Nat.add_assoc]
      exact hpacked
    · rw [List.map_cons, BitField.shape, unpackFields, hvalue, htotal, ← Nat.add_assoc]
      show (unpackFields packed (bitIndex + field.width) _ >>= _) = _
      rw [hvalues]
      rfl
    · rw [hkept i (by omega), hbefore i hi]
    · exact hclear i (by omega)

/-- A `u32` is all that the unpacker counts bits with. -/
theorem unpackFields_index_le {bitArray : List UInt8} {bitIndex : Nat} {shapes : List (Nat × Nat)}
    {values : List (BitVec 32)} {next : Nat}
    (h : unpackFields bitArray bitIndex shapes = .ok (values, next))
    (hindex : bitIndex ≤ U32_MAX) : next ≤ U32_MAX := by
  induction shapes generalizing bitIndex values with
  | nil =>
    cases h
    exact hindex
  | cons shape shapes ih =>
    rw [unpackFields] at h
    obtain ⟨⟨value, index⟩, hvalue, h⟩ := bind_ok_iff.mp h
    obtain ⟨⟨rest, last⟩, hrest, h⟩ := bind_ok_iff.mp h
    cases h
    exact ih hrest (unpackNaturalOrGray_index_le hvalue hindex)

end Lxst.Codec2
