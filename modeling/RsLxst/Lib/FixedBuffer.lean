import Mathlib.Data.List.Basic

/-!
# Fixed-capacity buffers

An array of `cap` slots with a length: `push` fails when every slot is taken. `pushAll` pushes a
list from the front; it succeeds exactly when the list fits (`pushAll_isSome_iff`), so a
computation that only ever pushes may be followed as a plain list and bounded at its end.
-/

set_option autoImplicit false

namespace FixedBuffer

variable {α : Type*} (cap : Nat)

def push (buf : List α) (x : α) : Option (List α) :=
  if buf.length < cap then some (buf ++ [x]) else none

def pushAll : List α → List α → Option (List α)
  | buf, [] => some buf
  | buf, x :: xs => (push cap buf x).bind fun buf => pushAll buf xs

theorem pushAll_of_le {buf xs : List α} (h : buf.length + xs.length ≤ cap) :
    pushAll cap buf xs = some (buf ++ xs) := by
  induction xs generalizing buf with
  | nil => simp [pushAll]
  | cons x xs ih =>
    simp only [List.length_cons] at h
    simp only [pushAll, push, if_pos (show buf.length < cap by omega), Option.bind_some]
    rw [ih (by simp; omega)]
    simp

theorem pushAll_isSome_iff {buf xs : List α} (hb : buf.length ≤ cap) :
    (pushAll cap buf xs).isSome ↔ buf.length + xs.length ≤ cap := by
  refine ⟨fun h => ?_, fun h => by simp [pushAll_of_le cap h]⟩
  induction xs generalizing buf with
  | nil => simpa using hb
  | cons x xs ih =>
    by_cases hc : buf.length < cap
    · simp only [pushAll, push, if_pos hc, Option.bind_some] at h
      have := ih (by simp; omega) h
      simp only [List.length_append, List.length_cons, List.length_nil] at this ⊢
      omega
    · simp [pushAll, push, if_neg hc] at h

end FixedBuffer
