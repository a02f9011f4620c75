import Mathlib.Data.List.Basic
import Mathlib.Data.Nat.Bitwise

/-!
# Byte strings as bit strings

`bitAt bytes i` is bit `i` of a byte string, where a byte starts with its most significant bit; past
the end the bits are zero.
-/

set_option autoImplicit false

namespace BitString

def bitAt (bytes : List UInt8) (i : Nat) : Bool :=
  (bytes.getD (i / 8) 0).toNat.testBit (7 - i % 8)

theorem bitAt_of_getElem? {bytes : List UInt8} {i : Nat} {byte : UInt8}
    (h : bytes[i / 8]? = some byte) : bitAt bytes i = byte.toNat.testBit (7 - i % 8) := by
  rw [bitAt, List.getD_eq_getElem?_getD, h, Option.getD_some]

/-- A byte that is replaced changes its eight bits. -/
theorem bitAt_set {bytes : List UInt8} {j : Nat} (hj : j < bytes.length) (byte : UInt8) (i : Nat) :
    bitAt (bytes.set j byte) i =
      if i / 8 = j then byte.toNat.testBit (7 - i % 8) else bitAt bytes i := by
  unfold bitAt
  simp only [List.getD_eq_getElem?_getD, List.getElem?_set]
  by_cases h : i / 8 = j
  · simp [h, hj]
  · simp [h, Ne.symm h]

@[simp] theorem bitAt_zeros (n i : Nat) : bitAt (List.replicate n 0) i = false := by
  have hbyte : (List.replicate n (0 : UInt8)).getD (i / 8) 0 = 0 := by
    rw [List.getD_eq_getElem?_getD, List.getElem?_replicate]
    split <;> rfl
  rw [bitAt, hbyte]
  exact Nat.zero_testBit _

theorem testBit_ofNat {n p : Nat} (hp : p < 8) : (UInt8.ofNat n).toNat.testBit p = n.testBit p := by
  rw [UInt8.toNat_ofNat', Nat.testBit_mod_two_pow]
  simp [hp]

end BitString
