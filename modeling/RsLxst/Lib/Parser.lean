import Mathlib.Data.List.Basic

/-!
# Exact parsers

A parser here is a state transformer that may fail, over any state from which the unread input
can be seen (`Cursor`). `Exact c p R` says that `p` accepts exactly the prefixes that the relation
`R` describes, with `R`'s result, and consumes just them. The rules follow the parser's text:
`exact_pure`, `exact_throw`, `Exact.bind`, `Exact.guard`, and `Exact.times` for a counted loop,
whose items follow one another (`Each`). `Exact.congr` restates the relation, and may use that the
input at hand satisfies the cursor's invariant.
-/

set_option autoImplicit false

/-- A state `σ` whose unread input is a list of `τ`; `good` is its invariant. -/
structure Cursor (σ τ : Type*) where
  good : σ → Prop
  rest : σ → List τ
  advance : σ → Nat → σ
  advance_zero : ∀ s, advance s 0 = s
  advance_add : ∀ s m n, advance (advance s m) n = advance s (m + n)
  rest_advance : ∀ s n, good s → n ≤ (rest s).length →
    good (advance s n) ∧ rest (advance s n) = (rest s).drop n

namespace Parsing

variable {σ τ ε : Type} {α β : Type}

abbrev P (σ ε α : Type) := StateT σ (Except ε) α

def Exact (c : Cursor σ τ) (p : P σ ε α) (R : α → List τ → Prop) : Prop :=
  ∀ s, c.good s → ∀ a s', p s = .ok (a, s') ↔
    ∃ bs, R a bs ∧ bs <+: c.rest s ∧ s' = c.advance s bs.length

variable {c : Cursor σ τ} {p : P σ ε α} {R : α → List τ → Prop}

theorem bind_ok_iff {f : α → P σ ε β} {s s' : σ} {b : β} :
    (p >>= f) s = .ok (b, s') ↔ ∃ a s₁, p s = .ok (a, s₁) ∧ f a s₁ = .ok (b, s') := by
  show (p s >>= fun x => f x.1 x.2) = _ ↔ _
  cases hp : p s with
  | error e => exact ⟨nofun, fun ⟨_, _, h, _⟩ => nomatch h⟩
  | ok x =>
    refine ⟨fun h => ⟨x.1, x.2, rfl, h⟩, fun ⟨a, s₁, h, hf⟩ => ?_⟩
    cases h
    exact hf

theorem bind_of_ok {f : α → P σ ε β} {s s₁ : σ} {a : α} (h : p s = .ok (a, s₁)) :
    (p >>= f) s = f a s₁ := by
  show (p s >>= fun x => f x.1 x.2) = _
  rw [h]
  rfl

theorem bind_of_error {f : α → P σ ε β} {s : σ} {e : ε} (h : p s = .error e) :
    (p >>= f) s = .error e := by
  show (p s >>= fun x => f x.1 x.2) = _
  rw [h]
  rfl

theorem bind_congr_at {q : P σ ε α} {f : α → P σ ε β} {s : σ} (h : p s = q s) :
    (p >>= f) s = (q >>= f) s := by
  show (p s >>= fun x => f x.1 x.2) = (q s >>= fun x => f x.1 x.2)
  rw [h]

theorem pure_ok_iff {a b : α} {s s' : σ} :
    (pure a : P σ ε α) s = .ok (b, s') ↔ b = a ∧ s' = s := by
  show (Except.ok (a, s) : Except ε (α × σ)) = .ok (b, s') ↔ _
  rw [Except.ok.injEq, Prod.mk.injEq]
  exact ⟨fun h => ⟨h.1.symm, h.2.symm⟩, fun h => ⟨h.1.symm, h.2.symm⟩⟩

theorem throw_ok_iff {e : ε} {a : α} {s s' : σ} :
    (throw e : P σ ε α) s = .ok (a, s') ↔ False :=
  ⟨fun h => (nomatch (h : (Except.error e : Except ε (α × σ)) = .ok (a, s'))), False.elim⟩

/-- The relation may be restated on the prefixes of good inputs. -/
theorem Exact.congr {R' : α → List τ → Prop} (h : Exact c p R)
    (hR : ∀ s, c.good s → ∀ a bs, bs <+: c.rest s → (R a bs ↔ R' a bs)) : Exact c p R' := by
  intro s hs a s'
  rw [h s hs a s']
  refine exists_congr fun bs => ⟨fun ⟨h1, h2, h3⟩ => ?_, fun ⟨h1, h2, h3⟩ => ?_⟩
  · exact ⟨(hR s hs a bs h2).1 h1, h2, h3⟩
  · exact ⟨(hR s hs a bs h2).2 h1, h2, h3⟩

theorem exact_pure (a : α) : Exact c (pure a : P σ ε α) fun b bs => b = a ∧ bs = [] := by
  intro s _ b s'
  rw [pure_ok_iff]
  constructor
  · rintro ⟨rfl, rfl⟩
    exact ⟨[], ⟨rfl, rfl⟩, List.nil_prefix, (c.advance_zero _).symm⟩
  · rintro ⟨_, ⟨rfl, rfl⟩, -, rfl⟩
    exact ⟨rfl, c.advance_zero _⟩

theorem exact_throw (e : ε) : Exact c (throw e : P σ ε α) fun _ _ => False := by
  intro s _ a s'
  rw [throw_ok_iff]
  exact ⟨False.elim, fun ⟨_, h, _⟩ => h⟩

/-- One parser after another. -/
theorem Exact.bind {f : α → P σ ε β} {Q : α → β → List τ → Prop} (hp : Exact c p R)
    (hf : ∀ a, Exact c (f a) (Q a)) :
    Exact c (p >>= f) fun b bs => ∃ a bs₁ bs₂, R a bs₁ ∧ Q a b bs₂ ∧ bs = bs₁ ++ bs₂ := by
  intro s hs b s'
  rw [bind_ok_iff]
  constructor
  · rintro ⟨a, s₁, h1, h2⟩
    obtain ⟨bs₁, hR, hpre, rfl⟩ := (hp s hs a s₁).1 h1
    obtain ⟨hg, hrest⟩ := c.rest_advance s bs₁.length hs hpre.length_le
    obtain ⟨bs₂, hQ, hpre₂, rfl⟩ := (hf a _ hg b s').1 h2
    obtain ⟨t, ht⟩ := hpre
    rw [hrest, ← ht, List.drop_left] at hpre₂
    refine ⟨bs₁ ++ bs₂, ⟨a, bs₁, bs₂, hR, hQ, rfl⟩, ?_, ?_⟩
    · rw [← ht]
      exact (List.prefix_append_right_inj bs₁).2 hpre₂
    · rw [c.advance_add, List.length_append]
  · rintro ⟨_, ⟨a, bs₁, bs₂, hR, hQ, rfl⟩, hpre, rfl⟩
    have hpre₁ : bs₁ <+: c.rest s := (List.prefix_append bs₁ bs₂).trans hpre
    obtain ⟨hg, hrest⟩ := c.rest_advance s bs₁.length hs hpre₁.length_le
    refine ⟨a, c.advance s bs₁.length, (hp s hs a _).2 ⟨bs₁, hR, hpre₁, rfl⟩, ?_⟩
    refine (hf a _ hg b _).2 ⟨bs₂, hQ, ?_, ?_⟩
    · obtain ⟨t, ht⟩ := hpre
      rw [hrest, ← ht, List.append_assoc, List.drop_left]
      exact List.prefix_append _ _
    · rw [c.advance_add, List.length_append]

/-- A check in front of a parser. -/
theorem Exact.guard {e : ε} {q : Prop} [Decidable q] (hp : Exact c p R) :
    Exact c (if q then throw e else p) fun a bs => ¬ q ∧ R a bs := by
  by_cases hq : q
  · rw [if_pos hq]
    exact (exact_throw e).congr fun _ _ _ _ _ => ⟨False.elim, fun h => h.1 hq⟩
  · rw [if_neg hq]
    exact hp.congr fun _ _ _ _ _ => ⟨fun h => ⟨hq, h⟩, fun h => h.2⟩

/-! ## Counted loops -/

/-- The items, each described by `R`, one after another. -/
inductive Each (R : α → List τ → Prop) : List α → List τ → Prop
  | nil : Each R [] []
  | cons {a : α} {as : List α} {bs bs' : List τ} : R a bs → Each R as bs' →
      Each R (a :: as) (bs ++ bs')

theorem each_nil_iff {bs : List τ} : Each R [] bs ↔ bs = [] :=
  ⟨fun h => by cases h; rfl, fun h => h ▸ .nil⟩

theorem each_cons_iff {a : α} {as : List α} {bs : List τ} :
    Each R (a :: as) bs ↔ ∃ bs₁ bs₂, R a bs₁ ∧ Each R as bs₂ ∧ bs = bs₁ ++ bs₂ := by
  constructor
  · intro h
    cases h with
    | cons h1 h2 => exact ⟨_, _, h1, h2, rfl⟩
  · rintro ⟨bs₁, bs₂, h1, h2, rfl⟩
    exact .cons h1 h2

/-- `p`, `n` times. -/
def times (p : P σ ε α) : Nat → P σ ε (List α)
  | 0 => pure []
  | n + 1 => do
    let a ← p
    let as ← times p n
    pure (a :: as)

theorem Exact.times (hp : Exact c p R) (n : Nat) :
    Exact c (times p n) fun as bs => as.length = n ∧ Each R as bs := by
  induction n with
  | zero =>
    refine (exact_pure []).congr fun _ _ as bs _ => ?_
    constructor
    · rintro ⟨rfl, rfl⟩
      exact ⟨rfl, .nil⟩
    · rintro ⟨h, he⟩
      obtain rfl := List.length_eq_zero_iff.1 h
      exact ⟨rfl, each_nil_iff.1 he⟩
  | succ n ih =>
    refine (hp.bind fun a => ih.bind fun as => exact_pure (a :: as)).congr fun _ _ as bs _ => ?_
    constructor
    · rintro ⟨a, bs₁, _, ha, ⟨as', bs₂, _, ⟨hl, hes⟩, ⟨rfl, rfl⟩, rfl⟩, rfl⟩
      exact ⟨by simp [hl], by simpa using Each.cons ha hes⟩
    · rintro ⟨hl, he⟩
      cases he with
      | nil => cases hl
      | @cons a as' bs₁ bs₂ ha hes =>
        exact ⟨a, bs₁, bs₂, ha, ⟨as', bs₂, [], ⟨by simpa using hl, hes⟩, ⟨rfl, rfl⟩, by simp⟩, rfl⟩

end Parsing
