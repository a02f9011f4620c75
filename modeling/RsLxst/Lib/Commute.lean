import RsLxst.Lib.Program

/-!
# Programs that commute with a change of the state

`Commutes I f p`: in states with the invariant `I` the program `p` keeps `I`, and run after the
change `f` it returns the same and ends in the changed state. The rules follow the text of a
program, also of one that may fail.
-/

set_option autoImplicit false

namespace Program

variable {σ α β ε : Type} {I : σ → Prop} {f : σ → σ}

def Commutes (I : σ → Prop) (f : σ → σ) (p : Program σ α) : Prop :=
  ∀ s, I s → p (f s) = ((p s).1, f (p s).2) ∧ I (p s).2

theorem Commutes.pure (a : α) : Commutes I f (pure a) := fun _ h => ⟨rfl, h⟩

theorem Commutes.bind {p : Program σ α} {q : α → Program σ β} (hp : Commutes I f p)
    (hq : ∀ a, Commutes I f (q a)) : Commutes I f (p >>= q) := by
  intro s h
  obtain ⟨heq, hkept⟩ := hp s h
  obtain ⟨heq', hkept'⟩ := hq (p s).1 (p s).2 hkept
  refine ⟨?_, hkept'⟩
  show q (p (f s)).1 (p (f s)).2 = _
  rw [heq]
  exact heq'

theorem Commutes.modify {g : σ → σ} (h : ∀ s, I s → g (f s) = f (g s) ∧ I (g s)) :
    Commutes I f (modify g) := fun s hs =>
  ⟨congrArg (Prod.mk ()) (h s hs).1, (h s hs).2⟩

/-- A program that reads the state. -/
theorem Commutes.read {p : σ → Program σ α}
    (h : ∀ s, I s → p (f s) (f s) = ((p s s).1, f (p s s).2) ∧ I (p s s).2) :
    Commutes I f (get >>= p) := h

theorem Commutes.lift {p : Program σ α} (hp : Commutes I f p) :
    Commutes I f (ExceptT.lift p : ExceptT ε (Program σ) α).run := by
  intro s h
  obtain ⟨heq, hkept⟩ := hp s h
  refine ⟨?_, hkept⟩
  show (Except.ok (p (f s)).1, (p (f s)).2) = _
  rw [heq]
  rfl

theorem Commutes.bindE {p : ExceptT ε (Program σ) α} {q : α → ExceptT ε (Program σ) β}
    (hp : Commutes I f p.run) (hq : ∀ a, Commutes I f (q a).run) :
    Commutes I f (p >>= q).run := by
  have hcont (result : Except ε α) : Commutes I f (ExceptT.bindCont q result) := by
    cases result with
    | error error => exact .pure _
    | ok a => exact hq a
  exact Commutes.bind hp hcont

end Program
