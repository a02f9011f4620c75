/-!
# Programs over a state

A program over `σ` is a state transformer with a result; it always returns, so a fallible program
returns an `Except`. `wp p Q s` is the weakest precondition of `p` for the postcondition `Q`. The
rules rewrite along the program's text: `wp_pure`, `wp_bind`, `wp_get`, `wp_set`, `wp_modify`, and
`wp_mono` to cite a called program's own rule.
-/

set_option autoImplicit false

def Program (σ α : Type) : Type := σ → α × σ

namespace Program

variable {σ α β : Type}

instance : Monad (Program σ) where
  pure a := fun s => (a, s)
  bind p f := fun s => f (p s).1 (p s).2

def get : Program σ σ := fun s => (s, s)

def set (s : σ) : Program σ Unit := fun _ => ((), s)

def modify (f : σ → σ) : Program σ Unit := fun s => ((), f s)

/-- What must hold before `p` for `Q` to hold of its result and final state. -/
def wp (p : Program σ α) (Q : α → σ → Prop) (s : σ) : Prop := Q (p s).1 (p s).2

variable {Q : α → σ → Prop} {s : σ}

@[simp] theorem wp_pure (a : α) : wp (pure a) Q s ↔ Q a s := Iff.rfl

@[simp] theorem wp_bind (p : Program σ β) (f : β → Program σ α) :
    wp (p >>= f) Q s ↔ wp p (fun b => wp (f b) Q) s := Iff.rfl

@[simp] theorem wp_get {Q : σ → σ → Prop} : wp get Q s ↔ Q s s := Iff.rfl

@[simp] theorem wp_set {Q : Unit → σ → Prop} (s' : σ) : wp (set s') Q s ↔ Q () s' := Iff.rfl

@[simp] theorem wp_modify {Q : Unit → σ → Prop} (f : σ → σ) :
    wp (modify f) Q s ↔ Q () (f s) := Iff.rfl

theorem wp_mono {p : Program σ α} {R : α → σ → Prop} (h : wp p R s)
    (hRQ : ∀ a s', R a s' → Q a s') : wp p Q s := hRQ _ _ h

theorem wp_and {p : Program σ α} {R : α → σ → Prop} (hQ : wp p Q s) (hR : wp p R s) :
    wp p (fun a s' => Q a s' ∧ R a s') s := ⟨hQ, hR⟩

end Program
