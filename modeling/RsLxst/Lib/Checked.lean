import Mathlib.Data.List.Basic

/-!
# Computations that fail or go out of range

A `Checked ε α` ends with a value, with an error of its own (`fail`), or by leaving the range of
an index, a slice or a machine word (`Abort.panic`). `Yields m R` says that the values of `m` are
just those that `R` describes and that `m` stays in range. The rules follow the program's text:
`yields_pure`, `yields_fail`, `yields_okOr`, `Yields.bind`, `Yields.step` for a step whose value is
known, `Yields.guard` and `Yields.ite`; `Yields.congr` restates the relation. `Agree m m'` says that
two computations return the same values, with like rules.
-/

set_option autoImplicit false

inductive Abort (ε : Type)
  | error (error : ε)
  | panic
  deriving DecidableEq, Repr

abbrev Checked (ε α : Type) := Except (Abort ε) α

namespace Checked

variable {ε α β : Type}

def fail (error : ε) : Checked ε α := .error (.error error)

def okOr (value : Option α) (error : ε) : Checked ε α :=
  match value with
  | some a => pure a
  | none => fail error

/-! ## Slices and machine words -/

def index (xs : List α) (i : Nat) : Checked ε α :=
  match xs[i]? with
  | some x => pure x
  | none => .error .panic

/-- `xs[start..stop]` -/
def slice (xs : List α) (start stop : Nat) : Checked ε (List α) :=
  if start ≤ stop ∧ stop ≤ xs.length then pure ((xs.take stop).drop start) else .error .panic

/-- A word that must not exceed `max`. -/
def inWord (max n : Nat) : Checked ε Nat :=
  if n ≤ max then pure n else .error .panic

def add (max a b : Nat) : Checked ε Nat := inWord max (a + b)

def mul (max a b : Nat) : Checked ε Nat := inWord max (a * b)

def sub (a b : Nat) : Checked ε Nat :=
  if b ≤ a then pure (a - b) else .error .panic

def div (a b : Nat) : Checked ε Nat :=
  if b = 0 then .error .panic else pure (a / b)

def checkedAdd (max a b : Nat) : Option Nat := if a + b ≤ max then some (a + b) else none

def checkedMul (max a b : Nat) : Option Nat := if a * b ≤ max then some (a * b) else none

def checkedSub (a b : Nat) : Option Nat := if b ≤ a then some (a - b) else none

theorem index_ok {xs : List α} {i : Nat} {x : α} (h : xs[i]? = some x) :
    (index xs i : Checked ε α) = .ok x := by
  rw [index, h]
  rfl

theorem slice_ok {xs : List α} {start stop : Nat} (h : start ≤ stop) (hs : stop ≤ xs.length) :
    (slice xs start stop : Checked ε (List α)) = .ok ((xs.take stop).drop start) :=
  if_pos ⟨h, hs⟩

theorem drop_take_middle (xs ys zs : List α) :
    ((xs ++ ys ++ zs).take (xs.length + ys.length)).drop xs.length = ys := by
  rw [List.take_left' (List.length_append ..), List.drop_left]

theorem slice_middle {xs ys zs : List α} {start stop : Nat} (h : start = xs.length)
    (hs : stop = xs.length + ys.length) :
    (slice (xs ++ ys ++ zs) start stop : Checked ε (List α)) = .ok ys := by
  subst h hs
  rw [slice_ok (Nat.le_add_right _ _) (by simp), drop_take_middle]

theorem slice_from_ok {xs : List α} {start : Nat} (h : start ≤ xs.length) :
    (slice xs start xs.length : Checked ε (List α)) = .ok (xs.drop start) := by
  rw [slice_ok h (Nat.le_refl _), List.take_length]

theorem slice_to_ok {xs : List α} {stop : Nat} (h : stop ≤ xs.length) :
    (slice xs 0 stop : Checked ε (List α)) = .ok (xs.take stop) := by
  rw [slice_ok (Nat.zero_le _) h, List.drop_zero]

theorem add_ok {max a b : Nat} (h : a + b ≤ max) : (add max a b : Checked ε Nat) = .ok (a + b) :=
  if_pos h

theorem mul_ok {max a b : Nat} (h : a * b ≤ max) : (mul max a b : Checked ε Nat) = .ok (a * b) :=
  if_pos h

theorem sub_ok {a b : Nat} (h : b ≤ a) : (sub a b : Checked ε Nat) = .ok (a - b) :=
  if_pos h

theorem checkedAdd_ok {max a b : Nat} {e : ε} (h : a + b ≤ max) :
    (okOr (checkedAdd max a b) e : Checked ε Nat) = .ok (a + b) := by
  rw [checkedAdd, if_pos h]
  rfl

theorem checkedMul_ok {max a b : Nat} {e : ε} (h : a * b ≤ max) :
    (okOr (checkedMul max a b) e : Checked ε Nat) = .ok (a * b) := by
  rw [checkedMul, if_pos h]
  rfl

theorem checkedSub_ok {a b : Nat} {e : ε} (h : b ≤ a) :
    (okOr (checkedSub a b) e : Checked ε Nat) = .ok (a - b) := by
  rw [checkedSub, if_pos h]
  rfl

theorem checkedMul_eq_some_iff {max a b n : Nat} :
    checkedMul max a b = some n ↔ a * b ≤ max ∧ n = a * b := by
  rw [checkedMul, Option.ite_none_right_eq_some, Option.some.injEq, eq_comm (a := n)]

theorem add_ok_iff {max a b n : Nat} :
    (add max a b : Checked ε Nat) = .ok n ↔ a + b ≤ max ∧ n = a + b := by
  by_cases h : a + b ≤ max
  · rw [add_ok h, Except.ok.injEq]
    exact ⟨fun he => ⟨h, he.symm⟩, fun he => he.2.symm⟩
  · rw [add, inWord, if_neg h]
    exact ⟨nofun, fun he => absurd he.1 h⟩

theorem sub_ok_iff {a b n : Nat} :
    (sub a b : Checked ε Nat) = .ok n ↔ b ≤ a ∧ n = a - b := by
  by_cases h : b ≤ a
  · rw [sub_ok h, Except.ok.injEq]
    exact ⟨fun he => ⟨h, he.symm⟩, fun he => he.2.symm⟩
  · rw [sub, if_neg h]
    exact ⟨nofun, fun he => absurd he.1 h⟩

theorem checkedSub_eq_some_iff {a b n : Nat} : checkedSub a b = some n ↔ b ≤ a ∧ n = a - b := by
  rw [checkedSub, Option.ite_none_right_eq_some, Option.some.injEq, eq_comm (a := n)]

theorem bind_of_ok {m : Checked ε α} {f : α → Checked ε β} {a : α} (h : m = .ok a) :
    m >>= f = f a := by
  rw [h]
  rfl

theorem bind_ok_iff {m : Checked ε α} {f : α → Checked ε β} {b : β} :
    m >>= f = .ok b ↔ ∃ a, m = .ok a ∧ f a = .ok b := by
  cases m with
  | error stop => exact ⟨nofun, fun ⟨_, he, _⟩ => nomatch he⟩
  | ok a =>
    refine ⟨fun h => ⟨a, rfl, h⟩, fun ⟨a', he, h⟩ => ?_⟩
    cases he
    exact h

theorem okOr_ok_iff {value : Option α} {e : ε} {a : α} :
    (okOr value e : Checked ε α) = .ok a ↔ value = some a := by
  cases value with
  | none => exact ⟨nofun, nofun⟩
  | some b => exact ⟨fun h => by cases h; rfl, fun h => by cases h; rfl⟩

theorem map_bind {γ : Type} (m : Checked ε α) (f : α → Checked ε β) (g : β → γ) :
    (m >>= f).map g = m >>= fun a => (f a).map g := by
  cases m with
  | error stop => rfl
  | ok a => rfl

/-! ## What a computation yields -/

structure Yields (m : Checked ε α) (R : α → Prop) : Prop where
  ok_iff : ∀ a, m = .ok a ↔ R a
  inRange : m ≠ .error .panic

variable {m : Checked ε α} {R : α → Prop}

theorem Yields.congr {R' : α → Prop} (h : Yields m R) (hR : ∀ a, R a ↔ R' a) : Yields m R' :=
  ⟨fun a => (h.ok_iff a).trans (hR a), h.inRange⟩

theorem yields_ok (a : α) : Yields (.ok a : Checked ε α) (· = a) :=
  ⟨fun b => by rw [Except.ok.injEq, eq_comm], nofun⟩

theorem yields_pure (a : α) : Yields (pure a : Checked ε α) (· = a) := yields_ok a

theorem yields_fail (e : ε) : Yields (fail e : Checked ε α) fun _ => False :=
  ⟨fun _ => ⟨nofun, False.elim⟩, nofun⟩

theorem yields_okOr (value : Option α) (e : ε) :
    Yields (okOr value e : Checked ε α) (value = some ·) := by
  cases value with
  | none => exact (yields_fail e).congr fun _ => ⟨False.elim, nofun⟩
  | some a => exact (yields_pure a).congr fun b => by rw [Option.some.injEq, eq_comm]

theorem yields_checkedSub (a b : Nat) (e : ε) :
    Yields (okOr (checkedSub a b) e : Checked ε Nat) fun n => b ≤ a ∧ n = a - b := by
  by_cases h : b ≤ a
  · rw [checkedSub_ok h]
    exact (yields_ok _).congr fun n => ⟨fun hn => ⟨h, hn⟩, And.right⟩
  · rw [checkedSub, if_neg h]
    exact (yields_fail e).congr fun n => ⟨False.elim, fun hn => h hn.1⟩

theorem Yields.bind {f : α → Checked ε β} {Q : α → β → Prop} (hm : Yields m R)
    (hf : ∀ a, R a → Yields (f a) (Q a)) :
    Yields (m >>= f) fun b => ∃ a, R a ∧ Q a b := by
  obtain ⟨hok, hin⟩ := hm
  cases m with
  | error stop =>
    refine ⟨fun b => ⟨nofun, fun ⟨a, ha, _⟩ => nomatch (hok a).2 ha⟩, fun h => ?_⟩
    cases h
    exact hin rfl
  | ok a =>
    have ha : R a := (hok a).1 rfl
    refine ⟨fun b => ((hf a ha).ok_iff b).trans ⟨fun h => ⟨a, ha, h⟩, fun ⟨a', ha', h⟩ => ?_⟩,
      (hf a ha).inRange⟩
    cases (hok a').2 ha'
    exact h

/-- A step whose value is known. -/
theorem Yields.step {f : α → Checked ε β} {Q : β → Prop} {a : α} (hm : m = .ok a)
    (hf : Yields (f a) Q) : Yields (m >>= f) Q := by
  rw [hm]
  exact hf

/-- A check in front of a computation. -/
theorem Yields.guard {e : ε} {c : Prop} [Decidable c] (hm : ¬ c → Yields m R) :
    Yields (if c then fail e else m) fun a => ¬ c ∧ R a := by
  by_cases hc : c
  · rw [if_pos hc]
    exact (yields_fail e).congr fun _ => ⟨False.elim, fun h => h.1 hc⟩
  · rw [if_neg hc]
    exact (hm hc).congr fun _ => ⟨fun h => ⟨hc, h⟩, And.right⟩

theorem Yields.ite {m' : Checked ε α} {R' : α → Prop} {c : Prop} [Decidable c]
    (hm : c → Yields m R) (hm' : ¬ c → Yields m' R') :
    Yields (if c then m else m') fun a => (c ∧ R a) ∨ (¬ c ∧ R' a) := by
  by_cases hc : c
  · rw [if_pos hc]
    exact (hm hc).congr fun _ => ⟨fun h => .inl ⟨hc, h⟩, fun h => h.elim (·.2) (absurd hc ·.1)⟩
  · rw [if_neg hc]
    exact (hm' hc).congr fun _ => ⟨fun h => .inr ⟨hc, h⟩, fun h => h.elim (absurd ·.1 hc) (·.2)⟩

/-- Steps with known values, one for each element. -/
theorem mapM_ok {f : α → Checked ε β} {g : α → β} {xs : List α} (h : ∀ x ∈ xs, f x = .ok (g x)) :
    xs.mapM f = .ok (xs.map g) := by
  induction xs with
  | nil => rfl
  | cons x xs ih =>
    obtain ⟨hx, hxs⟩ := List.forall_mem_cons.mp h
    rw [List.mapM_cons, hx, ih hxs]
    rfl

/-! ## Two computations with the same values -/

/-- They return the same values; their errors may differ. -/
def Agree (m m' : Checked ε α) : Prop := ∀ a, m = .ok a ↔ m' = .ok a

theorem Agree.refl (m : Checked ε α) : Agree m m := fun _ => Iff.rfl

theorem agree_fail (e e' : ε) : Agree (fail e : Checked ε α) (fail e') := fun _ => ⟨nofun, nofun⟩

theorem agree_okOr (value : Option α) (e e' : ε) : Agree (okOr value e) (okOr value e') :=
  fun _ => okOr_ok_iff.trans okOr_ok_iff.symm

theorem agree_checkedAdd (max a b : Nat) (e : ε) :
    Agree (okOr (checkedAdd max a b) e) (add max a b) := by
  intro n
  rw [okOr_ok_iff, add_ok_iff, checkedAdd]
  split
  · rename_i h
    rw [Option.some_inj]
    exact ⟨fun he => ⟨h, he.symm⟩, fun he => he.2.symm⟩
  · rename_i h
    exact ⟨nofun, fun he => absurd he.1 h⟩

theorem Agree.bind {m m' : Checked ε α} {f f' : α → Checked ε β} (h : Agree m m')
    (hf : ∀ a, Agree (f a) (f' a)) : Agree (m >>= f) (m' >>= f') := by
  intro b
  rw [bind_ok_iff, bind_ok_iff]
  exact exists_congr fun a => and_congr (h a) (hf a b)

theorem Agree.ite {m m' l l' : Checked ε α} {c : Prop} [Decidable c] (h : c → Agree m m')
    (h' : ¬ c → Agree l l') : Agree (if c then m else l) (if c then m' else l') := by
  by_cases hc : c
  · rw [if_pos hc, if_pos hc]
    exact h hc
  · rw [if_neg hc, if_neg hc]
    exact h' hc

/-! ## With a state

`EStateM` keeps the state that an error leaves behind. -/

variable {σ : Type}

instance : MonadLift (Except ε) (EStateM ε σ) where
  monadLift m := fun s =>
    match m with
    | .ok a => .ok a s
    | .error e => .error e s

theorem lift_ok_iff {m : Except ε α} {a : α} {s t : σ} :
    (liftM m : EStateM ε σ α) s = .ok a t ↔ m = .ok a ∧ t = s := by
  cases m with
  | error e => exact ⟨nofun, fun h => nomatch h.1⟩
  | ok b =>
    refine ⟨fun h => ?_, fun ⟨he, ht⟩ => ?_⟩
    · cases h
      exact ⟨rfl, rfl⟩
    · cases he
      rw [ht]
      rfl

theorem lift_of_ok {m : Except ε α} {a : α} (s : σ) (h : m = .ok a) :
    (liftM m : EStateM ε σ α) s = .ok a s := lift_ok_iff.2 ⟨h, rfl⟩

theorem run_get (f : σ → EStateM ε σ β) (s : σ) : (get >>= f) s = f s s := rfl

theorem run_set (f : PUnit → EStateM ε σ β) (s t : σ) : (set t >>= f) s = f ⟨⟩ t := rfl

variable {x : EStateM ε σ α} {f : α → EStateM ε σ β} {s t : σ}

theorem run_bind_of_ok {a : α} (h : x s = .ok a t) : (x >>= f) s = f a t := by
  show (x >>= f).run s = _
  rw [EStateM.run_bind, EStateM.run, h]
  rfl

theorem run_bind_of_error {e : ε} (h : x s = .error e t) : (x >>= f) s = .error e t := by
  show (x >>= f).run s = _
  rw [EStateM.run_bind, EStateM.run, h]

theorem run_bind_ok_iff {b : β} :
    (x >>= f) s = .ok b t ↔ ∃ a u, x s = .ok a u ∧ f a u = .ok b t := by
  cases h : x s with
  | ok a u =>
    rw [run_bind_of_ok h]
    refine ⟨fun hf => ⟨a, u, rfl, hf⟩, fun ⟨a', u', he, hf⟩ => ?_⟩
    cases he
    exact hf
  | error e u =>
    rw [run_bind_of_error h]
    exact ⟨nofun, fun ⟨_, _, he, _⟩ => nomatch he⟩

/-- The state after a run, whether it failed or not. -/
def endState : EStateM.Result ε σ α → σ
  | .ok _ s => s
  | .error _ s => s

def value? : EStateM.Result ε σ α → Option α
  | .ok a _ => some a
  | .error _ _ => none

theorem eq_ok_of_value? {r : EStateM.Result ε σ α} {a : α} (h : value? r = some a) :
    r = .ok a (endState r) := by
  cases r with
  | ok b s =>
    cases h
    rfl
  | error e s => cases h

theorem endState_lift (m : Except ε α) (s : σ) : endState ((liftM m : EStateM ε σ α) s) = s := by
  cases m with
  | error e => rfl
  | ok a => rfl

theorem endState_bind_lift (x : EStateM ε σ α) (g : α → Except ε β) (s : σ) :
    endState ((x >>= fun a => liftM (g a) : EStateM ε σ β) s) = endState (x s) := by
  cases h : x s with
  | ok a t =>
    rw [run_bind_of_ok h, endState_lift]
    rfl
  | error e t =>
    rw [run_bind_of_error h]
    rfl

/-! ### Parts of a state that do not matter -/

variable {τ : Type}

def onState (π : σ → τ) : EStateM.Result ε σ α → EStateM.Result ε τ α
  | .ok a s => .ok a (π s)
  | .error e s => .error e (π s)

/-- `x` does on `σ` what `y` does on the part of it that `π` keeps. -/
def Erases (π : σ → τ) (x : EStateM ε σ α) (y : EStateM ε τ α) : Prop :=
  ∀ s, onState π (x s) = y (π s)

variable {π : σ → τ} {y : EStateM ε τ α} {g : α → EStateM ε τ β}

theorem erases_pure (a : α) : Erases π (pure a : EStateM ε σ α) (pure a) := fun _ => rfl

theorem erases_throw (e : ε) : Erases π (throw e : EStateM ε σ α) (throw e) := fun _ => rfl

theorem erases_lift (m : Except ε α) : Erases π (liftM m : EStateM ε σ α) (liftM m) := by
  intro s
  cases m with
  | error e => rfl
  | ok a => rfl

theorem Erases.bind (hx : Erases π x y) (hf : ∀ a, Erases π (f a) (g a)) :
    Erases π (x >>= f) (y >>= g) := by
  intro s
  cases h : x s with
  | ok a t =>
    have hy : y (π s) = .ok a (π t) := by rw [← hx s, h]; rfl
    rw [run_bind_of_ok h, run_bind_of_ok hy]
    exact hf a t
  | error e t =>
    have hy : y (π s) = .error e (π t) := by rw [← hx s, h]; rfl
    rw [run_bind_of_error h, run_bind_of_error hy]
    rfl

theorem erases_get {f : σ → EStateM ε σ β} {g : τ → EStateM ε τ β}
    (h : ∀ s, Erases π (f s) (g (π s))) : Erases π (get >>= f) (get >>= g) := by
  intro s
  rw [run_get, run_get]
  exact h s s

theorem erases_set {s : σ} {f : PUnit → EStateM ε σ β} {g : PUnit → EStateM ε τ β}
    (h : Erases π (f ⟨⟩) (g ⟨⟩)) : Erases π (set s >>= f) (set (π s) >>= g) := by
  intro t
  rw [run_set, run_set]
  exact h s

theorem Erases.ite {x' : EStateM ε σ α} {y' : EStateM ε τ α} {c : Prop} [Decidable c]
    (h : Erases π x y) (h' : Erases π x' y') :
    Erases π (if c then x else x') (if c then y else y') := by
  split
  · exact h
  · exact h'

end Checked
