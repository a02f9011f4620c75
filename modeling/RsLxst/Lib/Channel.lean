import Mathlib.Data.List.Basic
import Mathlib.Data.List.Perm.Basic

/-!
# Message channels

A channel is the list of the messages in flight, oldest first. A reliable FIFO channel is only
appended to and read from the front; `Channel.Fault` is what an unreliable one may do on its own
between two deliveries: lose a message, duplicate one, or reorder what is in flight. Faults
invent nothing (`Fault.subset`), so a property of every message in flight survives them, and they
do to encoded messages what they do to the messages (`Fault.of_forall₂`).
-/

set_option autoImplicit false

namespace Channel

variable {μ : Type*}

inductive Fault : List μ → List μ → Prop
  | lose (a : List μ) (m : μ) (b : List μ) : Fault (a ++ m :: b) (a ++ b)
  | duplicate (a : List μ) (m : μ) (b : List μ) : Fault (a ++ m :: b) (a ++ m :: m :: b)
  | reorder {c c' : List μ} : c.Perm c' → Fault c c'

theorem Fault.subset {c c' : List μ} (h : Fault c c') : c' ⊆ c := by
  cases h with
  | lose a m b => intro x hx; simp only [List.mem_append, List.mem_cons] at hx ⊢; tauto
  | duplicate a m b => intro x hx; simp only [List.mem_append, List.mem_cons] at hx ⊢; tauto
  | reorder hp => exact hp.symm.subset

theorem Fault.forall {P : μ → Prop} {c c' : List μ} (h : Fault c c') (hc : ∀ m ∈ c, P m) :
    ∀ m ∈ c', P m := fun m hm => hc m (h.subset hm)

theorem forall₂_append_split {ν : Type*} {R : μ → ν → Prop} {a b : List μ} {d : List ν}
    (h : List.Forall₂ R (a ++ b) d) :
    ∃ d₁ d₂, d = d₁ ++ d₂ ∧ List.Forall₂ R a d₁ ∧ List.Forall₂ R b d₂ :=
  ⟨d.take a.length, d.drop a.length, (List.take_append_drop a.length d).symm,
    (List.forall₂_take_append d a b h.flip).flip, (List.forall₂_drop_append d a b h.flip).flip⟩

/-- What a channel of encoded messages does, the channel of the messages themselves does. -/
theorem Fault.of_forall₂ {ν : Type*} {R : μ → ν → Prop} {c c' : List μ} {d : List ν}
    (h : Fault c c') (hR : List.Forall₂ R c d) :
    ∃ d', Fault d d' ∧ List.Forall₂ R c' d' := by
  cases h with
  | lose a m b =>
    obtain ⟨d₁, d₂, rfl, h₁, h₂⟩ := forall₂_append_split hR
    obtain ⟨n, rest, -, hrest, rfl⟩ := List.forall₂_cons_left_iff.mp h₂
    exact ⟨d₁ ++ rest, .lose d₁ n rest, List.rel_append h₁ hrest⟩
  | duplicate a m b =>
    obtain ⟨d₁, d₂, rfl, h₁, h₂⟩ := forall₂_append_split hR
    obtain ⟨n, rest, hn, hrest, rfl⟩ := List.forall₂_cons_left_iff.mp h₂
    exact ⟨d₁ ++ n :: n :: rest, .duplicate d₁ n rest,
      List.rel_append h₁ (.cons hn (.cons hn hrest))⟩
  | reorder hp =>
    obtain ⟨d', hd', hperm⟩ := List.perm_comp_forall₂ hp.symm hR
    exact ⟨d', .reorder hperm.symm, hd'⟩

/-- The value a register holds after the messages `ms` overwrite it in turn. -/
def last (ms : List μ) (v : μ) : μ := ms.getLast?.getD v

@[simp] theorem last_nil (v : μ) : last [] v = v := rfl

@[simp] theorem last_cons (m : μ) (ms : List μ) (v : μ) : last (m :: ms) v = last ms m := by
  simp [last, List.getLast?_cons]

@[simp] theorem last_concat (ms : List μ) (m v : μ) : last (ms ++ [m]) v = m := by
  simp [last]

end Channel
