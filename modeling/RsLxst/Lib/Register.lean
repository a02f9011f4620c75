import RsLxst.Lib.Channel

/-!
# A register kept at both ends of a FIFO link

Two parties hold a copy of one register and tell each other every write; `toA` and `toB` are the
writes in flight to each. Two ways in which the copies stay consistent:

* `Agree`: both copies will be the same once everything in flight has arrived. Deliveries keep
  it; a write keeps it exactly when no different write is in flight towards the writer
  (`agree_write_iff`).
* `Settles`, for a primary copy that echoes every write it adopts: once nothing different is in
  flight towards the primary, the secondary is going to end with the primary's value. Every
  delivery and every write of the secondary keeps it, crossed or not.
-/

set_option autoImplicit false

namespace Register

open Channel (last)

variable {α : Type*}

def Agree (a : α) (toA : List α) (b : α) (toB : List α) : Prop := last toA a = last toB b

theorem Agree.symm {a b : α} {toA toB : List α} (h : Agree a toA b toB) : Agree b toB a toA :=
  Eq.symm h

theorem Agree.receive {a b v : α} {toA toB : List α} (h : Agree a (v :: toA) b toB) :
    Agree v toA b toB := by
  rwa [Agree, Channel.last_cons] at h

theorem agree_write_iff {v b : α} {toA toB : List α} :
    Agree v toA b (toB ++ [v]) ↔ toA = [] ∨ toA.getLast? = some v := by
  rw [Agree, Channel.last_concat]
  cases h : toA.getLast? with
  | none => simp [last, List.getLast?_eq_none_iff.1 h]
  | some w =>
    have hne : toA ≠ [] := fun h0 => by simp [h0] at h
    simp [last, h, hne]

/-- With nothing in flight the copies are the same. -/
theorem Agree.quiet {a b : α} (h : Agree a [] b []) : a = b := h

/-- `p` is the primary copy, `s` the secondary. -/
def Settles (p : α) (toP : List α) (s : α) (toS : List α) : Prop :=
  (∀ v ∈ toP, v = p) → last toS s = p

theorem Settles.receiveSecondary {p s v : α} {toP toS : List α}
    (h : Settles p toP s (v :: toS)) : Settles p toP v toS := fun hp => by
  rw [← h hp, Channel.last_cons]

theorem Settles.writeSecondary {p s : α} {toP toS : List α} (h : Settles p toP s toS) (v : α) :
    Settles p (toP ++ [v]) v toS := fun hp => by
  have hv : v = p := hp v (by simp)
  have hs := h fun w hw => hp w (by simp [hw])
  cases toS with
  | nil => exact hv
  | cons w ws => rw [← hs, Channel.last_cons, Channel.last_cons]

/-- The primary adopts a write and echoes it. -/
theorem Settles.adopt (v s : α) (toP toS : List α) : Settles v toP s (toS ++ [v]) := fun _ =>
  Channel.last_concat toS v s

/-- The primary hears its own value. -/
theorem Settles.confirm {p s : α} {toP toS : List α} (h : Settles p (p :: toP) s toS) :
    Settles p toP s toS := fun hp => h (by simpa using hp)

theorem Settles.quiet {p s : α} (h : Settles p [] s []) : s = p := h (by simp)

end Register
