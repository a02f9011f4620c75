import Mathlib.Data.List.Basic

/-!
# Working on a list column by column

The first `p * m` entries of a list, seen as `p` rows of length `m`. `eachColumn` takes the columns
from the first to the last, reads the `p` entries of each (`column`), computes `p` new ones and
writes them in the same places (`setColumn`). No column reads what another writes, so the result is
`mapColumns` of the original list (`eachColumn_eq`).
-/

set_option autoImplicit false

namespace Columns

variable {α : Type*} {p m : ℕ}

/-- All of `p` values, unless one is missing. -/
def gather (f : Fin p → Option α) : Option (Fin p → α) :=
  if h : ∀ q, (f q).isSome then some fun q => (f q).get (h q) else none

/-- The column at `u`, unless it leaves the list. -/
def column (p m u : ℕ) (l : List α) : Option (Fin p → α) := gather fun q => l[u + q * m]?

/-- The list with `y` in the column at `u`. -/
def setColumn (m u : ℕ) (l : List α) (y : Fin p → α) : List α :=
  l.mapIdx fun i a => if h : i % m = u ∧ i / m < p then y ⟨i / m, h.2⟩ else a

/-- One column read, computed and written. -/
def oneColumn (p m : ℕ) (g : ℕ → (Fin p → α) → Option (Fin p → α)) (l : List α) (u : ℕ) :
    Option (List α) := do
  let x ← column p m u l
  let y ← g u x
  pure (setColumn m u l y)

def eachColumn (p m : ℕ) (g : ℕ → (Fin p → α) → Option (Fin p → α)) (l : List α) :
    Option (List α) :=
  (List.range m).foldlM (oneColumn p m g) l

theorem eachColumn_congr {g g' : ℕ → (Fin p → α) → Option (Fin p → α)}
    (h : ∀ u < m, ∀ x, g u x = g' u x) (l : List α) : eachColumn p m g l = eachColumn p m g' l := by
  have hone (l : List α) (u : ℕ) (hu : u ∈ List.range m) :
      oneColumn p m g l u = oneColumn p m g' l u := by
    simp only [oneColumn, h u (List.mem_range.mp hu)]
  unfold eachColumn
  generalize List.range m = us at hone ⊢
  induction us generalizing l with
  | nil => rfl
  | cons u us ih =>
    simp only [List.foldlM_cons, hone l u List.mem_cons_self]
    congr 1
    funext l
    exact ih l fun l v hv => hone l v (List.mem_cons_of_mem u hv)

theorem gather_eq {f : Fin p → Option α} {g : Fin p → α} (h : ∀ q, f q = some (g q)) :
    gather f = some g := by
  rw [gather, dif_pos fun q => by rw [h]; rfl]
  congr 1
  funext q
  exact Option.get_of_eq_some _ (h q)

/-- Every column replaced by its image. -/
def mapColumns (p m : ℕ) (h : ℕ → (Fin p → α) → Fin p → α) (l : List α) : List α :=
  l.mapIdx fun i a =>
    if hq : i / m < p then h (i % m) (fun q => l.getD (i % m + q * m) a) ⟨i / m, hq⟩ else a

@[simp] theorem length_mapColumns (h : ℕ → (Fin p → α) → Fin p → α) (l : List α) :
    (mapColumns p m h l).length = l.length := by
  simp [mapColumns]

theorem entry_lt {u : ℕ} (hu : u < m) (q : Fin p) : u + q * m < p * m := by
  have hq : (q + 1) * m ≤ p * m := Nat.mul_le_mul_right m q.isLt
  rw [Nat.add_mul] at hq
  omega

theorem entry_div {u : ℕ} (hu : u < m) (q : ℕ) : (u + q * m) / m = q := by
  rw [Nat.add_mul_div_right _ _ (by omega), Nat.div_eq_of_lt hu, Nat.zero_add]

theorem entry_mod {u : ℕ} (hu : u < m) (q : ℕ) : (u + q * m) % m = u := by
  rw [Nat.add_mul_mod_self_right, Nat.mod_eq_of_lt hu]

theorem getElem?_mapColumns {h : ℕ → (Fin p → α) → Fin p → α} {l : List α} {u : ℕ}
    (hl : p * m ≤ l.length) (hu : u < m) (q : Fin p) (d : α) :
    (mapColumns p m h l)[u + q * m]? = some (h u (fun r => l.getD (u + r * m) d) q) := by
  have hlt : u + q * m < l.length := Nat.lt_of_lt_of_le (entry_lt hu q) hl
  have hget (a : α) : (fun r : Fin p => l.getD (u + r * m) a) =
      fun r : Fin p => l.getD (u + r * m) d := by
    funext r
    have hr : u + r * m < l.length := Nat.lt_of_lt_of_le (entry_lt hu r) hl
    simp only [List.getD_eq_getElem?_getD, List.getElem?_eq_getElem hr, Option.getD_some]
  rw [mapColumns, List.getElem?_mapIdx, List.getElem?_eq_getElem hlt]
  simp only [Option.map_some, entry_div hu, entry_mod hu, q.isLt, dif_pos, hget]

theorem getElem?_mapColumns_of_le {h : ℕ → (Fin p → α) → Fin p → α} {l : List α} {i : ℕ}
    (hm : 0 < m) (hi : p * m ≤ i) : (mapColumns p m h l)[i]? = l[i]? := by
  have hdiv : ¬ i / m < p := by
    rw [Nat.div_lt_iff_lt_mul hm]
    omega
  rw [mapColumns, List.getElem?_mapIdx]
  simp [hdiv]

/-- The list after the first `n` columns: those are mapped, the others are as they were. -/
def mapFirst (p m n : ℕ) (h : ℕ → (Fin p → α) → Fin p → α) (l : List α) : List α :=
  l.mapIdx fun i a =>
    if hq : i % m < n ∧ i / m < p then
      h (i % m) (fun q => l.getD (i % m + q * m) a) ⟨i / m, hq.2⟩
    else a

theorem column_mapFirst {h : ℕ → (Fin p → α) → Fin p → α} {l : List α} {n : ℕ} (hn : n < m)
    (hl : p * m ≤ l.length) (a : α) :
    column p m n (mapFirst p m n h l) = some fun q : Fin p => l.getD (n + q * m) a := by
  have hlt (q : Fin p) : n + q * m < l.length := Nat.lt_of_lt_of_le (entry_lt hn q) hl
  apply gather_eq
  intro q
  simp [mapFirst, entry_mod hn, hlt q]

theorem setColumn_mapFirst {h : ℕ → (Fin p → α) → Fin p → α} {l : List α} {n : ℕ}
    (hn : n < m) (hl : p * m ≤ l.length) (a : α) :
    setColumn m n (mapFirst p m n h l) (h n fun q => l.getD (n + q * m) a) =
      mapFirst p m (n + 1) h l := by
  apply List.ext_getElem?
  intro i
  simp only [setColumn, mapFirst, List.getElem?_mapIdx, Option.map_map]
  by_cases hi : i < l.length
  · rw [List.getElem?_eq_getElem hi]
    simp only [Option.map_some, Function.comp_apply, Option.some.injEq]
    by_cases hcol : i % m = n ∧ i / m < p
    · rw [dif_pos hcol, dif_pos ⟨by omega, hcol.2⟩]
      have hget (b : α) : (fun r : Fin p => l.getD (n + r * m) b) =
          fun r : Fin p => l.getD (n + r * m) a := by
        funext r
        have hr : n + r * m < l.length := Nat.lt_of_lt_of_le (entry_lt hn r) hl
        simp only [List.getD_eq_getElem?_getD, List.getElem?_eq_getElem hr, Option.getD_some]
      simp only [hcol.1, hget]
    · rw [dif_neg hcol]
      have hsame : (i % m < n ∧ i / m < p) ↔ (i % m < n + 1 ∧ i / m < p) := by omega
      simp only [hsame]
  · rw [List.getElem?_eq_none (by omega)]
    rfl

theorem oneColumn_mapFirst {g : ℕ → (Fin p → α) → Option (Fin p → α)}
    {h : ℕ → (Fin p → α) → Fin p → α} {l : List α} {n : ℕ} (hg : ∀ x, g n x = some (h n x))
    (hn : n < m) (hl : p * m ≤ l.length) (a : α) :
    oneColumn p m g (mapFirst p m n h l) n = some (mapFirst p m (n + 1) h l) := by
  rw [oneColumn, column_mapFirst hn hl a]
  show (g n _).bind _ = _
  rw [hg, ← setColumn_mapFirst hn hl a]
  rfl

theorem foldlM_range_columns {g : ℕ → (Fin p → α) → Option (Fin p → α)}
    {h : ℕ → (Fin p → α) → Fin p → α} (hg : ∀ u < m, ∀ x, g u x = some (h u x)) {l : List α}
    (hl : p * m ≤ l.length) (a : α) {n : ℕ} (hn : n ≤ m) :
    (List.range n).foldlM (oneColumn p m g) l = some (mapFirst p m n h l) := by
  induction n with
  | zero =>
    have hnone : mapFirst p m 0 h l = l := by
      apply List.ext_getElem?
      intro i
      simp [mapFirst]
    rw [hnone]
    rfl
  | succ n ih =>
    rw [List.range_succ, List.foldlM_append, ih (by omega)]
    show (List.foldlM (oneColumn p m g) (mapFirst p m n h l) [n]) = _
    rw [List.foldlM_cons, oneColumn_mapFirst (hg n (by omega)) (by omega) hl a]
    rfl

theorem eachColumn_eq {g : ℕ → (Fin p → α) → Option (Fin p → α)}
    {h : ℕ → (Fin p → α) → Fin p → α} (hp : 0 < p) (hm : 0 < m)
    (hg : ∀ u < m, ∀ x, g u x = some (h u x)) {l : List α} (hl : p * m ≤ l.length) :
    eachColumn p m g l = some (mapColumns p m h l) := by
  have hpos : 0 < p * m := Nat.mul_pos hp hm
  obtain ⟨a, -⟩ : ∃ a, a ∈ l := List.exists_mem_of_length_pos (by omega)
  have hall (i : ℕ) : (i % m < m ∧ i / m < p) ↔ i / m < p := by simp [Nat.mod_lt i hm]
  rw [eachColumn, foldlM_range_columns hg hl a (Nat.le_refl m)]
  simp only [mapFirst, mapColumns, hall]

end Columns
