import Mathlib.Data.Nat.Bitwise

/-!
# Gray codes decoded by a shift cascade

The Gray code of a number is its xor with itself shifted by one. Xors with a shift commute, and the
same one twice is the one with twice the shift (`xorShift_xorShift`); a cascade of shifts by powers
of two therefore undoes the code of a number that fits the sum of the shifts and one more bit.
-/

set_option autoImplicit false

namespace GrayCode

def xorShift (k v : Nat) : Nat := v ^^^ (v >>> k)

theorem testBit_xorShift (k v i : Nat) :
    (xorShift k v).testBit i = (v.testBit i ^^ v.testBit (k + i)) := by
  rw [xorShift, Nat.testBit_xor, Nat.testBit_shiftRight]

theorem xorShift_comm (j k v : Nat) : xorShift j (xorShift k v) = xorShift k (xorShift j v) := by
  apply Nat.eq_of_testBit_eq
  intro i
  simp only [testBit_xorShift, ← Nat.add_assoc, Nat.add_comm k j]
  cases v.testBit i <;> cases v.testBit (j + i) <;> cases v.testBit (k + i) <;> simp

theorem xorShift_xorShift (k v : Nat) : xorShift k (xorShift k v) = xorShift (k + k) v := by
  apply Nat.eq_of_testBit_eq
  intro i
  simp only [testBit_xorShift, ← Nat.add_assoc]
  cases v.testBit i <;> cases v.testBit (k + i) <;> simp

theorem xorShift_of_lt {k v : Nat} (h : v < 2 ^ k) : xorShift k v = v := by
  rw [xorShift, Nat.shiftRight_eq_zero v k h, Nat.xor_zero]

theorem xorShift_lt {k v n : Nat} (h : v < 2 ^ n) : xorShift k v < 2 ^ n := by
  apply Nat.xor_lt_two_pow h
  exact Nat.lt_of_le_of_lt (Nat.shiftRight_le v k) h

/-- The cascade of shifts by eight, four, two and one. -/
def cascade (v : Nat) : Nat := xorShift 1 (xorShift 2 (xorShift 4 (xorShift 8 v)))

/-- The cascade undoes the code of sixteen bits. -/
theorem cascade_gray {v : Nat} (h : v < 2 ^ 16) : cascade (xorShift 1 v) = v := by
  have h1 : cascade (xorShift 1 v) =
      xorShift 1 (xorShift 1 (xorShift 2 (xorShift 4 (xorShift 8 v)))) := by
    rw [cascade, xorShift_comm 8, xorShift_comm 4, xorShift_comm 2]
  have h2 : xorShift 2 (xorShift 2 (xorShift 4 (xorShift 8 v))) = xorShift 8 (xorShift 8 v) := by
    rw [xorShift_xorShift, xorShift_xorShift]
  rw [h1, xorShift_xorShift, h2, xorShift_xorShift, xorShift_of_lt h]

end GrayCode
