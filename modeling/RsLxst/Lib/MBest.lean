import Mathlib.Data.List.Basic
import Mathlib.Order.Basic
import Mathlib.Order.MinMax

/-!
# Searches for the least errors

A search scans entries, an error with what it belongs to, and keeps the first least one (`better`)
or the `m` least in order (`insert`). An error may be cut off at a limit (`Cut`): what is kept is
the same when the limit is an error that the entry has to beat (`better_cut`, `insert_cut`). A sum
of terms that only grow and that stops at a limit is such an error (`scanUntil_cut`). The least
entries of several rows, compared in the order of the rows, are what one scan of all rows keeps
(`foldl_better_eq`).
-/

set_option autoImplicit false

namespace MBest

variable {F ι κ : Type*}

/-! ## Folds -/

theorem foldl_congr_of_invariant {α β : Type*} {I : β → Prop} {f g : β → α → β}
    (h : ∀ b a, I b → f b a = g b a ∧ I (f b a)) {b : β} (hb : I b) (as : List α) :
    as.foldl f b = as.foldl g b := by
  induction as generalizing b with
  | nil => rfl
  | cons a as ih =>
    obtain ⟨heq, hnext⟩ := h b a hb
    rw [List.foldl_cons, List.foldl_cons, ih hnext, heq]

/-- Rows that are updated side by side are each updated by itself. -/
theorem foldl_zipWith {α β γ : Type*} (f : α → γ → β → β) (rows : List γ) (as : List α)
    (init : γ → β) :
    as.foldl (fun bs a => List.zipWith (f a) rows bs) (rows.map init) =
      rows.map fun row => as.foldl (fun b a => f a row b) (init row) := by
  induction as generalizing init with
  | nil => rfl
  | cons a as ih =>
    rw [List.foldl_cons, List.zipWith_map_right, List.zipWith_self, ih]
    rfl

/-- A fold whose steps may fail for what belongs to their element. -/
theorem foldlM_eq_map {α β γ : Type*} (r : α → Option γ) (g : β → α → γ → β) (as : List α) (b : β) :
    as.foldlM (fun b a => (r a).map (g b a)) b =
      (as.mapM r).map fun cs => (as.zip cs).foldl (fun b p => g b p.1 p.2) b := by
  induction as generalizing b with
  | nil => rfl
  | cons a as ih =>
    rw [List.foldlM_cons, List.mapM_cons]
    cases r a with
    | none => rfl
    | some c =>
      show as.foldlM _ (g b a c) = _
      rw [ih]
      cases as.mapM r <;> rfl

/-! ## Errors that are cut off -/

section
variable [LinearOrder F]

/-- `part` is the error, or both have reached the limit. -/
def Cut (limit part error : F) : Prop := part = error ∨ limit ≤ part ∧ limit ≤ error

theorem Cut.lt_iff {limit part error x : F} (h : Cut limit part error) (hx : x ≤ limit) :
    part < x ↔ error < x := by
  rcases h with rfl | ⟨hpart, herror⟩
  · exact Iff.rfl
  · have h1 : ¬ part < x := not_lt.mpr (hx.trans hpart)
    have h2 : ¬ error < x := not_lt.mpr (hx.trans herror)
    exact iff_of_false h1 h2

end

/-- Groups of steps, until the sum has reached the limit. -/
def scanUntil [LE F] [DecidableLE F] (limit : F) (step : F → κ → F) : List (List κ) → F → F
  | [], error => error
  | group :: groups, error =>
    let error := group.foldl step error
    if limit ≤ error then error else scanUntil limit step groups error

section
variable [LinearOrder F]

theorem le_foldl {step : F → κ → F} (hstep : ∀ x k, x ≤ step x k) (x : F) (ks : List κ) :
    x ≤ ks.foldl step x := by
  induction ks generalizing x with
  | nil => exact le_refl x
  | cons k ks ih => exact (hstep x k).trans (ih _)

theorem scanUntil_cut {step : F → κ → F} (hstep : ∀ x k, x ≤ step x k) (limit : F)
    (groups : List (List κ)) (x : F) :
    Cut limit (scanUntil limit step groups x) (groups.flatten.foldl step x) := by
  induction groups generalizing x with
  | nil => exact .inl rfl
  | cons group groups ih =>
    rw [scanUntil, List.flatten_cons, List.foldl_append]
    by_cases hlimit : limit ≤ group.foldl step x
    · simp only [if_pos hlimit]
      exact .inr ⟨hlimit, hlimit.trans (le_foldl hstep _ _)⟩
    · simp only [if_neg hlimit]
      exact ih _

end

/-! ## The first least entry -/

/-- The entry replaces the one kept if its error is smaller. -/
def better [LT F] [DecidableLT F] (kept entry : F × ι) : F × ι :=
  if entry.1 < kept.1 then entry else kept

section
variable [LinearOrder F]

theorem better_cut {kept : F × ι} {part error : F} (h : Cut kept.1 part error) (i : ι) :
    better kept (part, i) = better kept (error, i) := by
  have hiff := h.lt_iff (le_refl kept.1)
  unfold better
  by_cases hlt : part < kept.1
  · rcases h with rfl | ⟨hpart, -⟩
    · rfl
    · exact absurd hlt (not_lt.mpr hpart)
  · rw [if_neg hlt, if_neg (fun herror => hlt (hiff.mpr herror))]

theorem better_le (kept entry : F × ι) : (better kept entry).1 ≤ kept.1 := by
  unfold better
  split
  · rename_i hlt
    exact hlt.le
  · exact le_refl _

theorem better_assoc (a b c : F × ι) : better (better a b) c = better a (better b c) := by
  unfold better
  by_cases hbc : c.1 < b.1
  · rw [if_pos hbc]
    by_cases hab : b.1 < a.1
    · rw [if_pos hab, if_pos hbc, if_pos (hbc.trans hab)]
    · rw [if_neg hab]
  · rw [if_neg hbc]
    by_cases hab : b.1 < a.1
    · rw [if_pos hab, if_neg hbc]
    · have hca : ¬ c.1 < a.1 := fun hca => hbc (hca.trans_le (not_lt.mp hab))
      rw [if_neg hab, if_neg hca]

/-- A row's least entry, from one that is no better than the entry kept, decides like the row. -/
theorem foldl_better_eq {kept start : F × ι} (hstart : kept.1 ≤ start.1)
    (entries : List (F × ι)) :
    better kept (entries.foldl better start) = entries.foldl better kept := by
  have : Std.Associative (better (F := F) (ι := ι)) := ⟨better_assoc⟩
  have hkept : better kept start = kept := if_neg (not_lt.mpr hstart)
  calc better kept (entries.foldl better start)
      = entries.foldl better (better kept start) := List.foldl_assoc.symm
    _ = entries.foldl better kept := by rw [hkept]

theorem foldl_better_le (kept : F × ι) (entries : List (F × ι)) :
    (entries.foldl better kept).1 ≤ kept.1 := by
  induction entries generalizing kept with
  | nil => exact le_refl _
  | cons entry entries ih => exact (ih _).trans (better_le kept entry)

end

/-! ## The least entries in order -/

/-- The entry goes before the first one that it beats, and the last one leaves. -/
def insert {m : Nat} [LT F] [DecidableLT F] (best : Vector (F × ι) m) (entry : F × ι) :
    Vector (F × ι) m :=
  match best.toList.findIdx? fun kept => entry.1 < kept.1 with
  | none => best
  | some position =>
    Vector.ofFn fun n =>
      if n.val < position then best[n]
      else if n.val = position then entry
      else best[n.val - 1]

theorem mem_insert {m : Nat} [LT F] [DecidableLT F] {best : Vector (F × ι) m}
    {entry kept : F × ι} (h : kept ∈ (insert best entry).toList) :
    kept = entry ∨ kept ∈ best.toList := by
  unfold insert at h
  split at h
  · exact .inr h
  · obtain ⟨n, hn, rfl⟩ := List.mem_iff_getElem.mp h
    rw [Vector.length_toList] at hn
    rw [Vector.getElem_toList, Vector.getElem_ofFn]
    split
    · exact .inr (by simp)
    · split
      · exact .inl rfl
      · exact .inr (by simp)

theorem better_cases [LT F] [DecidableLT F] (kept entry : F × ι) :
    better kept entry = entry ∨ better kept entry = kept := by
  unfold better
  split
  · exact .inl rfl
  · exact .inr rfl

section
variable [LinearOrder F] {m : Nat}

/-- The errors do not decrease. -/
def Ranked (best : Vector (F × ι) m) : Prop :=
  ∀ (i j : Nat) (hj : j < m) (hij : i ≤ j), best[i].1 ≤ best[j].1

theorem insert_cases (best : Vector (F × ι) m) (entry : F × ι) :
    ((∀ (i : Nat) (hi : i < m), ¬ entry.1 < best[i].1) ∧ insert best entry = best) ∨
    ∃ position, position < m ∧
      (∀ (i : Nat) (hi : i < m), i < position → ¬ entry.1 < best[i].1) ∧
      (∀ (hp : position < m), entry.1 < best[position].1) ∧
      insert best entry = Vector.ofFn fun n =>
        if n.val < position then best[n]
        else if n.val = position then entry
        else best[n.val - 1] := by
  unfold insert
  cases hfind : best.toList.findIdx? fun kept => entry.1 < kept.1 with
  | none =>
    rw [List.findIdx?_eq_none_iff] at hfind
    refine .inl ⟨fun i hi => ?_, rfl⟩
    have hkept := hfind best[i] (by simp)
    simpa using hkept
  | some position =>
    obtain ⟨hposition, hbeats, hfirst⟩ := List.findIdx?_eq_some_iff_getElem.mp hfind
    rw [Vector.length_toList] at hposition
    refine .inr ⟨position, hposition, fun i hi hlt => ?_, fun hp => ?_, rfl⟩
    · simpa using hfirst i hlt
    · simpa using hbeats

theorem insert_ranked {best : Vector (F × ι) m} (h : Ranked best) (entry : F × ι) :
    Ranked (insert best entry) := by
  obtain ⟨-, heq⟩ | ⟨position, hposition, hbefore, hbeats, heq⟩ := insert_cases best entry
  · rw [heq]
    exact h
  · intro i j hj hij
    have hentry := hbeats hposition
    rw [heq, Vector.getElem_ofFn, Vector.getElem_ofFn]
    simp only [Fin.getElem_fin]
    by_cases hjp : j < position
    · rw [if_pos hjp, if_pos (Nat.lt_of_le_of_lt hij hjp)]
      exact h i j hj hij
    · rw [if_neg hjp]
      by_cases hip : i < position
      · rw [if_pos hip]
        by_cases hje : j = position
        · rw [if_pos hje]
          exact not_lt.mp (hbefore i (by omega) hip)
        · rw [if_neg hje]
          exact h i (j - 1) (by omega) (by omega)
      · rw [if_neg hip]
        by_cases hie : i = position
        · rw [if_pos hie]
          by_cases hje : j = position
          · rw [if_pos hje]
          · rw [if_neg hje]
            exact hentry.le.trans (h position (j - 1) (by omega) (by omega))
        · rw [if_neg hie, if_neg (by omega)]
          exact h (i - 1) (j - 1) (by omega) (by omega)

/-- The last of the least errors may serve as the limit. -/
theorem insert_cut {best : Vector (F × ι) (m + 1)} (h : Ranked best) {part error : F}
    (hcut : Cut best[m].1 part error) (i : ι) :
    insert best (part, i) = insert best (error, i) := by
  rcases hcut with rfl | ⟨hpart, herror⟩
  · rfl
  · have hnone : ∀ x, best[m].1 ≤ x → insert best (x, i) = best := by
      intro x hx
      obtain ⟨-, heq⟩ | ⟨position, hposition, -, hbeats, -⟩ := insert_cases best (x, i)
      · exact heq
      · have hlast := h position m (Nat.lt_succ_self m) (Nat.lt_succ_iff.mp hposition)
        exact absurd (hbeats hposition) (not_lt.mpr (hlast.trans hx))
    rw [hnone part hpart, hnone error herror]

theorem replicate_ranked (entry : F × ι) : Ranked (Vector.replicate m entry) := by
  intro i j hj hij
  simp

end

end MBest
