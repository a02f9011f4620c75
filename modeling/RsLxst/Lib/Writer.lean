import Mathlib.Data.List.Basic

/-!
# Writers into a fixed buffer

A writer is a state transformer that fails where it would leave its buffer. A `Sink` says what it
is to put items into a state; `Puts k p items` says that the program `p` puts just these, and fails
exactly when they do not fit. The rules follow the program's text: `puts_pure`, `Puts.andThen`,
`Puts.onlyIf` for a write under a condition and `Puts.each` for a loop.
-/

set_option autoImplicit false

/-- States `σ` into which items `τ` are put; no value if they do not fit. -/
structure Sink (σ τ : Type*) where
  put : σ → List τ → Option σ
  put_nil : ∀ s, put s [] = some s
  put_append : ∀ s xs ys, put s (xs ++ ys) = (put s xs).bind fun s => put s ys

namespace Writing

variable {σ τ α : Type}

abbrev W (σ : Type) := StateT σ Option

def Puts (k : Sink σ τ) (p : W σ Unit) (items : List τ) : Prop :=
  ∀ s, p s = (k.put s items).map fun s' => ((), s')

variable {k : Sink σ τ} {p q : W σ Unit} {xs ys : List τ}

theorem puts_pure : Puts k (pure ()) [] := by
  intro s
  rw [k.put_nil]
  rfl

theorem Puts.andThen (hp : Puts k p xs) (hq : Puts k q ys) :
    Puts k (do p; q) (xs ++ ys) := by
  intro s
  show (p s).bind (fun r => q r.2) = _
  rw [hp s, k.put_append]
  cases h : k.put s xs with
  | none => rfl
  | some s' => exact hq s'

/-- A write under a condition. -/
theorem Puts.onlyIf {c : Prop} [Decidable c] (hp : Puts k p xs) :
    Puts k (if c then p else pure ()) (if c then xs else []) := by
  split
  · exact hp
  · exact puts_pure

/-- `p` for every element, one after another. -/
def each (p : α → W σ Unit) : List α → W σ Unit
  | [] => pure ()
  | a :: as => do
    p a
    each p as

theorem Puts.each {p : α → W σ Unit} {f : α → List τ} {as : List α}
    (hp : ∀ a ∈ as, Puts k (p a) (f a)) : Puts k (Writing.each p as) (as.flatMap f) := by
  induction as with
  | nil => exact puts_pure
  | cons a as ih =>
    obtain ⟨ha, has⟩ := List.forall_mem_cons.mp hp
    rw [List.flatMap_cons]
    exact ha.andThen (ih has)

end Writing
