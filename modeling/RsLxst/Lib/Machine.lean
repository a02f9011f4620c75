import Mathlib.Data.List.Induction
import Mathlib.Logic.Relation

/-!
# Runs of state machines

Two forms, over arbitrary types:

* a relation `Step` with initial states `Init`: `Machine.Reachable Init Step s`, and the
  invariant rule `Reachable.invariant` (an invariant of the step is an invariant of every
  reachable state);
* a deterministic machine `step : σ → ι → σ × List ω` that reads an input and emits a list:
  `run step s is` is the state after the inputs `is`, `output step s is` everything emitted on
  the way. `run_history` is the induction over a run from its start: it proves a relation between
  the inputs so far, the state and the emissions so far, one input at a time. `occurrences` counts
  the inputs of a run at which something happens; `occurrences_le` bounds it by a measure.
  `runs?_follows` relates it to a machine that may stop.

A third form guards the inputs: `Admits G f s as` says that every action of `as` is enabled where
it is taken. `Admits.invariant` is its invariant rule; `Admits.congr` compares two guards;
`run_purge` takes out of a run the inputs that do not concern an observer. A fourth keeps the
transitions of a run: `Trace Step s ts s'`, with `Trace.transition`, what holds of every transition
whose inputs are good, and `Trace.since`, the transition since which a fact has held.
-/

set_option autoImplicit false

namespace Machine

section
variable {σ : Type*}

/-- `s` is reached from an initial state by finitely many steps. -/
def Reachable (Init : σ → Prop) (Step : σ → σ → Prop) (s : σ) : Prop :=
  ∃ s₀, Init s₀ ∧ Relation.ReflTransGen Step s₀ s

variable {Init : σ → Prop} {Step : σ → σ → Prop}

theorem Reachable.init {s : σ} (h : Init s) : Reachable Init Step s := ⟨s, h, .refl⟩

theorem Reachable.step {s s' : σ} (h : Reachable Init Step s) (hs : Step s s') :
    Reachable Init Step s' := by
  obtain ⟨s₀, h₀, hr⟩ := h
  exact ⟨s₀, h₀, hr.tail hs⟩

/-- **The invariant rule**: what holds initially and is kept by every step holds throughout. -/
theorem Reachable.invariant {I : σ → Prop} (h0 : ∀ s, Init s → I s)
    (hs : ∀ s s', I s → Step s s' → I s') {s : σ} (h : Reachable Init Step s) : I s := by
  obtain ⟨s₀, h₀, hr⟩ := h
  induction hr with
  | refl => exact h0 _ h₀
  | tail _ hst ih => exact hs _ _ ih hst

/-- A measure that no step decreases from a state of the invariant is monotone along a run. -/
theorem mono_of_step {I : σ → Prop} (f : σ → Nat) (hs : ∀ s s', I s → Step s s' → I s')
    (hf : ∀ s s', I s → Step s s' → f s ≤ f s') {s s' : σ} (h : I s)
    (hr : Relation.ReflTransGen Step s s') : f s ≤ f s' := by
  suffices I s' ∧ f s ≤ f s' from this.2
  induction hr with
  | refl => exact ⟨h, Nat.le_refl _⟩
  | tail _ hst ih => exact ⟨hs _ _ ih.1 hst, Nat.le_trans ih.2 (hf _ _ ih.1 hst)⟩

end

section
variable {σ ι ω : Type*} (step : σ → ι → σ × List ω)

/-- The state after a run. -/
def run : σ → List ι → σ
  | s, [] => s
  | s, i :: is => run (step s i).1 is

/-- Everything a run emits, in order. -/
def output : σ → List ι → List ω
  | _, [] => []
  | s, i :: is => (step s i).2 ++ output (step s i).1 is

@[simp] theorem run_nil (s : σ) : run step s [] = s := rfl
@[simp] theorem run_cons (s : σ) (i : ι) (is : List ι) :
    run step s (i :: is) = run step (step s i).1 is := rfl
@[simp] theorem output_nil (s : σ) : output step s [] = [] := rfl
@[simp] theorem output_cons (s : σ) (i : ι) (is : List ι) :
    output step s (i :: is) = (step s i).2 ++ output step (step s i).1 is := rfl

@[simp] theorem run_append (s : σ) (is js : List ι) :
    run step s (is ++ js) = run step (run step s is) js := by
  induction is generalizing s with
  | nil => rfl
  | cons i is ih => exact ih _

@[simp] theorem output_append (s : σ) (is js : List ι) :
    output step s (is ++ js) = output step s is ++ output step (run step s is) js := by
  induction is generalizing s with
  | nil => rfl
  | cons i is ih => simp [ih]

/-- **Induction over a run from its start**: `P` relates the inputs so far, the state and the
emissions so far. -/
theorem run_history (P : List ι → σ → List ω → Prop) {s₀ : σ} (h0 : P [] s₀ [])
    (hs : ∀ is s os i, P is s os → P (is ++ [i]) (step s i).1 (os ++ (step s i).2))
    (is : List ι) : P is (run step s₀ is) (output step s₀ is) := by
  induction is using List.reverseRecOn with
  | nil => exact h0
  | append_singleton is i ih => simpa using hs _ _ _ i ih

/-- The invariant rule for a deterministic machine. -/
theorem run_invariant {I : σ → Prop} {s₀ : σ} (h0 : I s₀) (hs : ∀ s i, I s → I (step s i).1)
    (is : List ι) : I (run step s₀ is) :=
  run_history step (fun _ s _ => I s) h0 (fun _ s _ i h => hs s i h) is

theorem run_eq_foldl (s : σ) (is : List ι) :
    run step s is = is.foldl (fun s i => (step s i).1) s := by
  induction is generalizing s with
  | nil => rfl
  | cons i is ih => exact ih _

/-- A part of the state that determines the outputs runs by itself. -/
theorem run_project {τ : Type*} {step' : τ → ι → τ × List ω} {π : σ → τ}
    (h : ∀ s i, step' (π s) i = (π (step s i).1, (step s i).2)) (s : σ) (is : List ι) :
    run step' (π s) is = π (run step s is) ∧ output step' (π s) is = output step s is := by
  induction is generalizing s with
  | nil => exact ⟨rfl, rfl⟩
  | cons i is ih =>
    obtain ⟨hrun, houtput⟩ := ih (step s i).1
    rw [run_cons, output_cons, h]
    exact ⟨hrun, congrArg ((step s i).2 ++ ·) houtput⟩

/-- How often `p` holds, of the state and the input it is about to take, in a run. -/
def occurrences (p : σ → ι → Bool) : σ → List ι → Nat
  | _, [] => 0
  | s, i :: is => (if p s i then 1 else 0) + occurrences p (step s i).1 is

theorem occurrences_append (p : σ → ι → Bool) (s : σ) (is js : List ι) :
    occurrences step p s (is ++ js) =
      occurrences step p s is + occurrences step p (run step s is) js := by
  induction is generalizing s with
  | nil => simp [occurrences]
  | cons i is ih => simp [occurrences, ih, Nat.add_assoc]

/-- What uses up a measure that nothing restores happens at most that often. -/
theorem occurrences_le {p : σ → ι → Bool} {f : σ → Nat} (hle : ∀ s i, f (step s i).1 ≤ f s)
    (hlt : ∀ s i, p s i = true → f (step s i).1 < f s) (s : σ) (is : List ι) :
    occurrences step p s is + f (run step s is) ≤ f s := by
  induction is generalizing s with
  | nil => simp [occurrences]
  | cons i is ih =>
    have h1 := ih (step s i).1
    have h2 := hle s i
    rw [occurrences, run_cons]
    split
    · have h3 := hlt s i ‹_›
      omega
    · omega

end

section
variable {σ τ ι ω : Type*} (step : σ → ι → Option (σ × List ω)) (step' : τ → ι → τ × List ω)

/-- A run of a machine that may stop: the state after it and what it emits. -/
def runs? : σ → List ι → Option (σ × List ω)
  | s, [] => some (s, [])
  | s, i :: is => do
    let (s, os) ← step s i
    let (s, rest) ← runs? s is
    some (s, os ++ rest)

variable {step step'} {R : σ → τ → Prop}

/-- A machine that may stop but follows another one step by step does not stop in a run, and
emits what the other emits. -/
theorem runs?_follows
    (hs : ∀ s t i, R s t → ∃ s', step s i = some (s', (step' t i).2) ∧ R s' (step' t i).1)
    {s : σ} {t : τ} (h : R s t) (is : List ι) :
    ∃ s', runs? step s is = some (s', output step' t is) ∧ R s' (run step' t is) := by
  induction is generalizing s t with
  | nil => exact ⟨s, rfl, h⟩
  | cons i is ih =>
    obtain ⟨u, hu, hR⟩ := hs s t i h
    obtain ⟨s', hs', hR'⟩ := ih hR
    refine ⟨s', ?_, hR'⟩
    rw [runs?, hu]
    show (runs? step u is).bind _ = _
    rw [hs']
    rfl

end

section
variable {σ α : Type*} {G : σ → α → Prop} {f : σ → α → σ}

/-- Every action of the list is enabled in the state in which it is taken. -/
def Admits (G : σ → α → Prop) (f : σ → α → σ) : σ → List α → Prop
  | _, [] => True
  | s, a :: as => G s a ∧ Admits G f (f s a) as

instance Admits.decidable [∀ s a, Decidable (G s a)] :
    (s : σ) → (as : List α) → Decidable (Admits G f s as)
  | _, [] => isTrue trivial
  | s, a :: as =>
    have := Admits.decidable (f s a) as
    inferInstanceAs (Decidable (G s a ∧ Admits G f (f s a) as))

theorem admits_concat {s : σ} {as : List α} {a : α} :
    Admits G f s (as ++ [a]) ↔ Admits G f s as ∧ G (as.foldl f s) a := by
  induction as generalizing s with
  | nil => simp [Admits]
  | cons b as ih => simp [Admits, ih, and_assoc]

/-- The invariant rule for guarded actions. -/
theorem Admits.invariant {I : σ → Prop} (hs : ∀ s a, I s → G s a → I (f s a)) {s : σ}
    {as : List α} (h : Admits G f s as) (h0 : I s) : I (as.foldl f s) := by
  induction as generalizing s with
  | nil => exact h0
  | cons a as ih => exact ih h.2 (hs s a h0 h.1)

/-- Two properties of the actions that agree where an invariant holds agree over a run. -/
theorem Admits.congr {I : σ → Prop} {P Q : σ → α → Prop}
    (hpq : ∀ s a, I s → G s a → (P s a ↔ Q s a)) (hi : ∀ s a, I s → G s a → P s a → I (f s a))
    {s : σ} {as : List α} (h : Admits G f s as) (h0 : I s) : Admits P f s as ↔ Admits Q f s as := by
  induction as generalizing s with
  | nil => exact Iff.rfl
  | cons a as ih =>
    have hhead := hpq s a h0 h.1
    refine ⟨fun hp => ?_, fun hq => ?_⟩
    · exact ⟨hhead.1 hp.1, (ih h.2 (hi s a h0 h.1 hp.1)).1 hp.2⟩
    · have hp := hhead.2 hq.1
      exact ⟨hp, (ih h.2 (hi s a h0 h.1 hp)).2 hq.2⟩

end

section
variable {σ τ ι ω : Type*} {step : σ → ι → σ × List ω} {G : σ → Prop} {view : σ → τ}
  {concerns : ι → Bool} {seen : ω → Bool}

/-- **Unwinding.** An observer of a part of the state and of some of the emissions, whom some
inputs do not concern while `G` holds, observes the same of a run and of the run without them. -/
theorem run_purge
    (hother : ∀ s i, G s → concerns i = false →
      view (step s i).1 = view s ∧ (step s i).2.filter seen = [])
    (hsame : ∀ s t i, G s → view s = view t → concerns i = true →
      view (step s i).1 = view (step t i).1 ∧
        (step s i).2.filter seen = (step t i).2.filter seen)
    {s t : σ} (h : view s = view t) {is : List ι}
    (hg : Admits (fun s _ => G s) (fun s i => (step s i).1) s is) :
    view (run step s is) = view (run step t (is.filter concerns)) ∧
      (output step s is).filter seen = (output step t (is.filter concerns)).filter seen := by
  induction is generalizing s t with
  | nil => exact ⟨h, rfl⟩
  | cons i is ih =>
    cases hi : concerns i with
    | false =>
      obtain ⟨hview, hnone⟩ := hother s i hg.1 hi
      obtain ⟨hrun, hout⟩ := ih (hview.trans h) hg.2
      rw [List.filter_cons_of_neg (by simp [hi]), run_cons, output_cons, List.filter_append, hnone]
      exact ⟨hrun, hout⟩
    | true =>
      obtain ⟨hview, hemit⟩ := hsame s t i hg.1 h hi
      obtain ⟨hrun, hout⟩ := ih hview hg.2
      rw [List.filter_cons_of_pos hi, run_cons, run_cons, output_cons, output_cons,
        List.filter_append, List.filter_append, hemit, hout]
      exact ⟨hrun, rfl⟩

end

section
variable {σ ι : Type*}

structure Transition (σ ι : Type*) where
  before : σ
  input : ι
  after : σ

/-- The transitions of a run between two states. -/
inductive Trace (Step : σ → ι → σ → Prop) : σ → List (Transition σ ι) → σ → Prop
  | nil (s : σ) : Trace Step s [] s
  | cons {s s' s'' : σ} {i : ι} {ts : List (Transition σ ι)} (head : Step s i s')
      (tail : Trace Step s' ts s'') : Trace Step s (⟨s, i, s'⟩ :: ts) s''

variable {Step : σ → ι → σ → Prop} {I : σ → Prop} {G : σ → ι → Prop}

/-- An invariant of the good transitions holds around each transition of a good run. -/
theorem Trace.transition (hs : ∀ s i s', I s → G s i → Step s i s' → I s') {s s' : σ}
    {ts : List (Transition σ ι)} (h : Trace Step s ts s') (h0 : I s)
    (hg : ∀ t ∈ ts, G t.before t.input) :
    ∀ t ∈ ts, I t.before ∧ Step t.before t.input t.after ∧ I t.after := by
  induction h with
  | nil => simp
  | cons head tail ih =>
    obtain ⟨hgood, hrest⟩ := List.forall_mem_cons.mp hg
    have h1 := hs _ _ _ h0 hgood head
    exact List.forall_mem_cons.mpr ⟨⟨h0, head, h1⟩, ih h1 hrest⟩

theorem Trace.append_iff {s s' : σ} {ts us : List (Transition σ ι)} :
    Trace Step s (ts ++ us) s' ↔ ∃ m, Trace Step s ts m ∧ Trace Step m us s' := by
  induction ts generalizing s with
  | nil =>
    constructor
    · exact fun h => ⟨s, .nil s, h⟩
    · rintro ⟨_, _ | _, h⟩
      exact h
  | cons t ts ih =>
    constructor
    · rintro (_ | ⟨head, tail⟩)
      obtain ⟨m, hts, hus⟩ := ih.mp tail
      exact ⟨m, .cons head hts, hus⟩
    · rintro ⟨m, _ | ⟨head, hts⟩, hus⟩
      exact .cons head (ih.mpr ⟨m, hts, hus⟩)

theorem Trace.cons_iff {s s' : σ} {ts : List (Transition σ ι)} {t : Transition σ ι} :
    Trace Step s (t :: ts) s' ↔
      t.before = s ∧ Step s t.input t.after ∧ Trace Step t.after ts s' := by
  constructor
  · rintro (_ | ⟨head, tail⟩)
    exact ⟨rfl, head, tail⟩
  · rintro ⟨rfl, head, tail⟩
    exact .cons head tail

theorem Trace.concat_iff {s s' : σ} {ts : List (Transition σ ι)} {t : Transition σ ι} :
    Trace Step s (ts ++ [t]) s' ↔
      Trace Step s ts t.before ∧ Step t.before t.input t.after ∧ t.after = s' := by
  rw [append_iff]
  constructor
  · rintro ⟨_, hts, _ | ⟨head, _ | _⟩⟩
    exact ⟨hts, head, rfl⟩
  · rintro ⟨hts, head, rfl⟩
    exact ⟨_, hts, .cons head (.nil _)⟩

/-- What each step keeps between states with a property is kept as long as the property holds. -/
theorem Trace.kept {C H : σ → Prop} (hs : ∀ s i s', Step s i s' → C s → C s' → H s → H s')
    {s s' : σ} {ts : List (Transition σ ι)} (h : Trace Step s ts s') (h0 : C s)
    (hc : ∀ t ∈ ts, C t.after) (hh : H s) : H s' := by
  induction h with
  | nil => exact hh
  | cons head tail ih =>
    obtain ⟨h1, hrest⟩ := List.forall_mem_cons.mp hc
    exact ih h1 hrest (hs _ _ _ head h0 h1 hh)

/-- What holds at the end of a run but not at its start has held since one transition. -/
theorem Trace.since {H : σ → Prop} {s s' : σ} {ts : List (Transition σ ι)}
    (h : Trace Step s ts s') (h0 : ¬ H s) (h1 : H s') :
    ∃ before t after, ts = before ++ t :: after ∧ ¬ H t.before ∧
      Step t.before t.input t.after ∧ ∀ u ∈ t :: after, H u.after := by
  induction ts using List.reverseRecOn generalizing s' with
  | nil =>
    cases h
    exact absurd h1 h0
  | append_singleton ts t ih =>
    obtain ⟨hrest, hstep, rfl⟩ := concat_iff.mp h
    by_cases hbefore : H t.before
    · obtain ⟨before, u, after, rfl, hnot, hfirst, hsince⟩ := ih hrest hbefore
      refine ⟨before, u, after ++ [t], by simp, hnot, hfirst, ?_⟩
      rw [← List.cons_append]
      exact List.forall_mem_append.mpr ⟨hsince, List.forall_mem_singleton.mpr h1⟩
    · exact ⟨ts, t, [], rfl, hbefore, hstep, List.forall_mem_singleton.mpr h1⟩

end

end Machine
