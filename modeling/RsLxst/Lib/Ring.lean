import Mathlib.Data.List.Basic

/-!
# Rings of slots

A list of slots used as a ring: `Holds slots head items` says that the items are in the slots from
`head` on, wrapping around at the end. An item goes into the slot behind the last (`Holds.push`),
and the first leaves its slot, whatever is left there (`Holds.retire`).
-/

set_option autoImplicit false

namespace Ring

variable {α : Type*} {slots items : List α} {head : Nat}

/-- The slot `i` places behind the head. -/
def place (slots : List α) (head i : Nat) : Nat := (head + i) % slots.length

structure Holds (slots : List α) (head : Nat) (items : List α) : Prop where
  inside : head < slots.length
  fits : items.length ≤ slots.length
  placed : ∀ i a, items[i]? = some a → slots[place slots head i]? = some a

theorem place_zero (h : head < slots.length) : place slots head 0 = head :=
  Nat.mod_eq_of_lt h

theorem place_lt (h : head < slots.length) (i : Nat) : place slots head i < slots.length :=
  Nat.mod_lt _ (Nat.zero_lt_of_lt h)

/-- Fewer than all slots are in different places. -/
theorem place_ne {i j : Nat} (hij : i < j) (hj : j < slots.length) :
    place slots head i ≠ place slots head j := by
  intro h
  have hsub : (head + j - (head + i)) % slots.length = 0 := Nat.sub_mod_eq_zero_of_mod_eq h.symm
  have hpos : head + j - (head + i) = j - i := by omega
  rw [hpos, Nat.mod_eq_of_lt (by omega)] at hsub
  omega

theorem place_next (i : Nat) :
    place slots (place slots head 1) i = place slots head (i + 1) := by
  unfold place
  rw [Nat.mod_add_mod, Nat.add_assoc, Nat.add_comm 1]

/-- The slots elsewhere are as they were. -/
theorem place_set (n i : Nat) (a : α) : place (slots.set n a) head i = place slots head i := by
  unfold place
  rw [List.length_set]

theorem holds_nil (h : head < slots.length) : Holds slots head [] :=
  ⟨h, Nat.zero_le _, fun i a ha => by rw [List.getElem?_nil] at ha; cases ha⟩

theorem Holds.push (h : Holds slots head items) (hroom : items.length < slots.length) (a : α) :
    Holds (slots.set (place slots head items.length) a) head (items ++ [a]) := by
  refine ⟨?_, ?_, fun i b hb => ?_⟩
  · rw [List.length_set]
    exact h.inside
  · rw [List.length_set, List.length_append]
    exact hroom
  · rw [place_set]
    rcases Nat.lt_or_ge i items.length with hi | hi
    · rw [List.getElem?_append_left hi] at hb
      rw [List.getElem?_set_ne (place_ne hi hroom).symm]
      exact h.placed i b hb
    · rw [List.getElem?_append_right hi, List.getElem?_singleton] at hb
      split at hb
      · cases hb
        obtain rfl : i = items.length := by omega
        exact List.getElem?_set_self (place_lt h.inside _)
      · cases hb

theorem Holds.first {a : α} (h : Holds slots head (a :: items)) : slots[head]? = some a := by
  have hfirst := h.placed 0 a rfl
  rwa [place_zero h.inside] at hfirst

theorem Holds.retire {a : α} (h : Holds slots head (a :: items)) (b : α) :
    Holds (slots.set head b) (place slots head 1) items := by
  have hfits := h.fits
  rw [List.length_cons] at hfits
  refine ⟨?_, ?_, fun i c hc => ?_⟩
  · rw [List.length_set]
    exact place_lt h.inside 1
  · rw [List.length_set]
    exact Nat.le_of_succ_le hfits
  · obtain ⟨hi, -⟩ := List.getElem?_eq_some_iff.1 hc
    have hne : place slots head 0 ≠ place slots head (i + 1) :=
      place_ne (Nat.succ_pos i) (by omega)
    rw [place_zero h.inside] at hne
    rw [place_set, place_next, List.getElem?_set_ne hne]
    exact h.placed (i + 1) c hc

end Ring
