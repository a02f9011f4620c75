import Mathlib.Data.List.Basic

/-!
# The order of events

`Precedes a b l` says that every `b` in the list `l` has an `a` before it. It is decided from the
front (`precedes_cons`) and extended at the back, event by event (`precedes_concat`) or by a whole
batch (`precedes_append`).

`Toggles on l on'` says that the events `l` switch a thing on and off in turns, which was `on`
before and is `on'` after them; batches compose (`Toggles.append`).
-/

set_option autoImplicit false

namespace EventOrder

variable {α : Type*}

/-- Every `b` has an `a` before it. -/
def Precedes (a b : α) (l : List α) : Prop := ∀ before after, l = before ++ b :: after → a ∈ before

variable {a b : α}

@[simp] theorem precedes_nil : Precedes a b [] := by
  intro before after h
  simp at h

theorem precedes_cons (x : α) (l : List α) :
    Precedes a b (x :: l) ↔ x ≠ b ∧ (x = a ∨ Precedes a b l) := by
  constructor
  · intro h
    refine ⟨fun hx => ?_, ?_⟩
    · have := h [] l (by rw [hx]; rfl)
      cases this
    · by_cases hx : x = a
      · exact .inl hx
      · refine .inr fun before after hl => ?_
        have := h (x :: before) after (by rw [hl]; rfl)
        rcases List.mem_cons.1 this with rfl | h
        · exact absurd rfl hx
        · exact h
  · rintro ⟨hne, h⟩ before after hl
    cases before with
    | nil =>
      simp only [List.nil_append, List.cons.injEq] at hl
      exact absurd hl.1 hne
    | cons y before =>
      simp only [List.cons_append, List.cons.injEq] at hl
      obtain ⟨rfl, hl⟩ := hl
      rcases h with rfl | h
      · exact List.mem_cons_self
      · exact List.mem_cons_of_mem _ (h _ _ hl)

instance Precedes.decidable [DecidableEq α] (a b : α) : (l : List α) → Decidable (Precedes a b l)
  | [] => isTrue precedes_nil
  | x :: l =>
    have := Precedes.decidable a b l
    decidable_of_iff _ (precedes_cons x l).symm

theorem precedes_append (l m : List α) :
    Precedes a b (l ++ m) ↔ Precedes a b l ∧ (a ∈ l ∨ Precedes a b m) := by
  induction l with
  | nil => simp
  | cons x l ih =>
    rw [List.cons_append, precedes_cons, precedes_cons, ih, List.mem_cons]
    by_cases hx : x = a
    · simp [hx]
    · simp [hx, Ne.symm hx, and_assoc]

theorem precedes_concat (l : List α) (x : α) :
    Precedes a b (l ++ [x]) ↔ Precedes a b l ∧ (x = b → a ∈ l) := by
  rw [precedes_append, precedes_cons]
  by_cases ha : a ∈ l <;> simp [ha]

/-- A list without any `b` keeps it. -/
theorem precedes_of_notMem {l : List α} (h : b ∉ l) : Precedes a b l := by
  rintro before after rfl
  simp at h

/-! ## Switching on and off -/

/-- The events switch in turns, from `on` to `on'`. -/
def Toggles : (on : Bool) → List Bool → (on' : Bool) → Prop
  | on, [], on' => on = on'
  | on, b :: l, on' => b = !on ∧ Toggles b l on'

theorem toggles_nil (on : Bool) : Toggles on [] on := rfl

/-- The events decide where they end. -/
theorem Toggles.unique {on on' on'' : Bool} {l : List Bool} (h : Toggles on l on')
    (h' : Toggles on l on'') : on' = on'' := by
  induction l generalizing on with
  | nil => exact h.symm.trans h'
  | cons b l ih => exact ih h.2 h'.2

theorem Toggles.append {on on' on'' : Bool} {l m : List Bool} (h : Toggles on l on')
    (h' : Toggles on' m on'') : Toggles on (l ++ m) on'' := by
  induction l generalizing on with
  | nil =>
    cases h
    exact h'
  | cons b l ih => exact ⟨h.1, ih h.2⟩

/-- From off: the events alternate, beginning with a switch on, and the last one tells the state. -/
theorem toggles_iff {l : List Bool} {on : Bool} :
    Toggles false l on ↔ List.IsChain (· ≠ ·) (false :: l) ∧ l.getLast?.getD false = on := by
  suffices h : ∀ start, Toggles start l on ↔
      List.IsChain (· ≠ ·) (start :: l) ∧ l.getLast?.getD start = on from h false
  induction l with
  | nil =>
    intro start
    simp [Toggles]
  | cons b l ih =>
    intro start
    rw [Toggles, ih, List.isChain_cons_cons, List.getLast?_cons, Option.getD_some, and_assoc]
    refine and_congr_left fun _ => ?_
    cases start <;> cases b <;> simp

end EventOrder
