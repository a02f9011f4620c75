import Mathlib.Data.List.Basic

/-!
# Actions up to the first failure

A list of actions is taken in order until one fails (`taken`); the rest is `skipped`. No action with
a property `p` is skipped exactly if none that has such an action after it fails in the state it
meets (`skips_none_iff`).
-/

set_option autoImplicit false

namespace Attempts

variable {σ α : Type*} (fails : σ → α → Bool) (next : σ → α → σ)

/-- The actions that are taken, with the one that fails. -/
def taken : σ → List α → List α
  | _, [] => []
  | s, a :: as => a :: if fails s a then [] else taken (next s a) as

def skipped (s : σ) (as : List α) : List α := as.drop (taken fails next s as).length

/-- No action fails in the state it meets while one with `p` is still to come. -/
def ClearFor (p : α → Bool) : σ → List α → Prop
  | _, [] => True
  | s, a :: as => (as.any p = true → fails s a = false) ∧ ClearFor p (next s a) as

variable {fails next}

theorem skipped_of_fails {s : σ} {a : α} (h : fails s a = true) (as : List α) :
    skipped fails next s (a :: as) = as := by
  simp [skipped, taken, h]

theorem skipped_of_ok {s : σ} {a : α} (h : fails s a = false) (as : List α) :
    skipped fails next s (a :: as) = skipped fails next (next s a) as := by
  simp [skipped, taken, h]

theorem clearFor_of_none {p : α → Bool} {as : List α} (h : as.any p = false) (s : σ) :
    ClearFor fails next p s as := by
  induction as generalizing s with
  | nil => exact trivial
  | cons a as ih =>
    rw [List.any_cons, Bool.or_eq_false_iff] at h
    exact ⟨fun hany => absurd (h.2.symm.trans hany) Bool.false_ne_true, ih h.2 _⟩

theorem skips_none_iff (p : α → Bool) (s : σ) (as : List α) :
    (skipped fails next s as).any p = false ↔ ClearFor fails next p s as := by
  induction as generalizing s with
  | nil => simp [skipped, taken, ClearFor]
  | cons a as ih =>
    cases hfails : fails s a with
    | true =>
      rw [skipped_of_fails hfails]
      constructor
      · intro hnone
        refine ⟨fun hany => ?_, clearFor_of_none hnone _⟩
        rw [hnone] at hany
        cases hany
      · intro hclear
        have hany : as.any p ≠ true := by
          intro hany
          rw [hclear.1 hany] at hfails
          cases hfails
        simpa using hany
    | false =>
      rw [skipped_of_ok hfails, ih]
      constructor
      · intro hclear
        exact ⟨fun _ => hfails, hclear⟩
      · intro hclear
        exact hclear.2

/-- Only what fails and what comes next in the states that are met matters. -/
theorem ClearFor.congr {fails' : σ → α → Bool} (h : ∀ s a, fails s a = fails' s a) {p : α → Bool}
    {s : σ} {as : List α} : ClearFor fails next p s as ↔ ClearFor fails' next p s as := by
  induction as generalizing s with
  | nil => exact Iff.rfl
  | cons a as ih =>
    simp only [ClearFor, h, ih]

end Attempts
