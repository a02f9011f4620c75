import RsLxst.Codec2.Frames
import RsLxst.Codec2.Proof.Frame700c

/-!
# The bits of 3200 and 1600 frames

Any eight bytes are a frame: every field that is read is below the power of two of its width
(`readFrame_lt`). A frame that was written is read back (`writeFrame_readFrame`).
-/

set_option autoImplicit false

namespace Lxst.Codec2

open Checked BitString GrayCode

/-- Each value fits its width. -/
def FitWidths (values : List (BitVec 32)) (widths : List Nat) : Prop :=
  List.Forall₂ (fun value width => value.toNat < 2 ^ width) values widths

theorem unpackNaturalOrGray_lt {bitArray : List UInt8} {bitIndex width gray : Nat}
    (hfits : bitIndex + width ≤ 8 * bitArray.length)
    (hindex : bitIndex + width ≤ U32_MAX) :
    ∃ value, unpackNaturalOrGray bitArray bitIndex width gray = .ok (value, bitIndex + width) ∧
      value.toNat < 2 ^ width := by
  obtain ⟨field, hfield, hbits⟩ := unpackSlices_spec 0 hfits hindex
  have hlt : field < 2 ^ width := by
    apply Nat.lt_pow_two_of_testBit
    intro j hj
    rw [hbits, Nat.zero_testBit, decide_eq_false (by omega)]
    rfl
  have hgray : fromGray field < 2 ^ width :=
    xorShift_lt (xorShift_lt (xorShift_lt (xorShift_lt hlt)))
  refine ⟨BitVec.ofNat 32 (if gray ≠ 0 then fromGray field else field), ?_, ?_⟩
  · rw [unpackNaturalOrGray, hfield]
    rfl
  · rw [BitVec.toNat_ofNat]
    apply (Nat.mod_le _ _).trans_lt
    split
    · exact hgray
    · exact hlt

theorem unpackFields_lt {bitArray : List UInt8} {bitIndex : Nat} {shapes : List (Nat × Nat)}
    (hfits : bitIndex + Blocks.total (shapes.map Prod.fst) ≤ 8 * bitArray.length)
    (hindex : bitIndex + Blocks.total (shapes.map Prod.fst) ≤ U32_MAX) :
    ∃ values next, unpackFields bitArray bitIndex shapes = .ok (values, next) ∧
      FitWidths values (shapes.map Prod.fst) := by
  induction shapes generalizing bitIndex with
  | nil => exact ⟨[], bitIndex, rfl, .nil⟩
  | cons shape shapes ih =>
    rw [List.map_cons, Blocks.total] at hfits hindex
    obtain ⟨value, hvalue, hlt⟩ :=
      @unpackNaturalOrGray_lt bitArray bitIndex shape.1 shape.2 (by omega) (by omega)
    obtain ⟨values, next, hvalues, hlts⟩ := @ih (bitIndex + shape.1) (by omega) (by omega)
    refine ⟨value :: values, next, ?_, .cons hlt hlts⟩
    rw [unpackFields, hvalue]
    show (unpackFields bitArray (bitIndex + shape.1) shapes >>= _) = _
    rw [hvalues]
    rfl

/-- The widths of a frame: fields of at most 16 bits that fill its bytes. -/
structure FrameWidths (widths : List Nat) : Prop where
  narrow : ∀ width ∈ widths, width ≤ 16
  total : Blocks.total widths = 8 * frameBytes

theorem frameWidths3200 : FrameWidths widths3200 := ⟨by decide, by decide⟩

theorem frameWidths1600 : FrameWidths widths1600 := ⟨by decide, by decide⟩

theorem readFrame_lt {bits : List UInt8} {widths : List Nat} (hwidths : FrameWidths widths)
    (hbits : frameBytes ≤ bits.length) :
    ∃ values, readFrame bits widths = some values ∧ FitWidths values widths := by
  have hmap : (widths.map fun width => (width, 1)).map Prod.fst = widths := by
    simp [Function.comp_def]
  have htotal := hwidths.total
  obtain ⟨values, next, hrun, hfit⟩ :=
    @unpackFields_lt bits 0 (widths.map fun width => (width, 1)) (by rw [hmap]; omega)
      (by rw [hmap, htotal]; decide)
  rw [hmap] at hfit
  refine ⟨values, ?_, hfit⟩
  rw [readFrame, hrun]

/-- The fields that `writeFrame` packs. -/
theorem frameFields_fit {values : List (BitVec 32)} {widths : List Nat}
    (hfit : FitWidths values widths) (hnarrow : ∀ width ∈ widths, width ≤ 16) :
    let fields := (values.zip widths).map fun (value, width) => BitField.mk value width 1
    (∀ field ∈ fields, field.Fits) ∧ fields.map BitField.shape = widths.map (·, 1) ∧
      fields.map BitField.value = values ∧ totalWidth fields = Blocks.total widths := by
  induction hfit with
  | nil => exact ⟨by simp, rfl, rfl, rfl⟩
  | cons hlt _ ih =>
    obtain ⟨hwidth, hrest⟩ := List.forall_mem_cons.mp hnarrow
    obtain ⟨hfits, hshapes, hvalues, htotal⟩ := ih hrest
    refine ⟨List.forall_mem_cons.mpr ⟨⟨hlt, hwidth⟩, hfits⟩, ?_, ?_, ?_⟩
    · rw [List.zip_cons_cons, List.map_cons, List.map_cons, hshapes]
      rfl
    · rw [List.zip_cons_cons, List.map_cons, List.map_cons, hvalues]
    · rw [List.zip_cons_cons, List.map_cons, Blocks.total, ← htotal]
      rfl

theorem writeFrame_readFrame {values : List (BitVec 32)} {widths : List Nat}
    (hwidths : FrameWidths widths) (hfit : FitWidths values widths) :
    ∃ bits, writeFrame values widths = some bits ∧ bits.length = frameBytes ∧
      readFrame bits widths = some values := by
  obtain ⟨hfits, hshapes, hvalues, htotal⟩ := frameFields_fit hfit hwidths.narrow
  rw [hwidths.total] at htotal
  obtain ⟨packed, hpacked, hread, hlength, -⟩ :=
    roundTrips hfits (Nat.le_of_eq htotal) (by rw [htotal]; decide)
  rw [hshapes, hvalues] at hread
  refine ⟨packed, ?_, hlength, ?_⟩
  · rw [writeFrame, hpacked]
  · rw [readFrame, hread]

end Lxst.Codec2
