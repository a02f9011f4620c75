import RsLxst.Lib.Machine

/-!
# Counters that live as long as their key

In a run of a machine keys come and go (`held`), and a transition counts events of a key
(`events`). `since k ts` is the number of events of `k` in the run `ts` since it came. The counters
`count` of a state are kept (`Kept`) if they are zero for the keys that are gone and `since` for
the keys that are there. `kept_concat_iff` says what one transition has to do to the counters, and
`kept_iff` compares the runs that keep them throughout with those whose transitions are good.
-/

set_option autoImplicit false

namespace Lifetime

open Machine

variable {σ ι κ : Type*} (held : σ → κ → Prop) [∀ s k, Decidable (held s k)]
  (events : Transition σ ι → κ → Nat) (count : σ → κ → Nat)

/-- The events of `k` in the transitions after the last one that begins without it. -/
def since (k : κ) (ts : List (Transition σ ι)) : Nat :=
  ts.foldl (fun n t => if held t.before k then n + events t k else 0) 0

theorem since_concat (k : κ) (ts : List (Transition σ ι)) (t : Transition σ ι) :
    since held events k (ts ++ [t]) =
      if held t.before k then since held events k ts + events t k else 0 := by
  rw [since, List.foldl_append]
  rfl

/-- The counters after the run `ts`. -/
structure Kept (ts : List (Transition σ ι)) (s : σ) : Prop where
  gone : ∀ k, ¬ held s k → count s k = 0
  live : ∀ k, held s k → count s k = since held events k ts

variable {held events count}

/-- One transition keeps the counters: it carries on those of the keys that stay, and the others are
zero. -/
theorem kept_concat_iff {ts : List (Transition σ ι)} {t : Transition σ ι}
    (h : Kept held events count ts t.before) :
    Kept held events count (ts ++ [t]) t.after ↔ ∀ k, count t.after k =
      if held t.before k ∧ held t.after k then count t.before k + events t k else 0 := by
  have hsince (k : κ) : since held events k (ts ++ [t]) =
      if held t.before k then count t.before k + events t k else 0 := by
    rw [since_concat]
    split
    · rename_i hbefore
      rw [h.live k hbefore]
    · rfl
  constructor
  · intro hafter k
    by_cases hk : held t.after k
    · rw [hafter.live k hk, hsince]
      simp [hk]
    · rw [hafter.gone k hk]
      simp [hk]
  · intro hcount
    refine ⟨fun k hk => ?_, fun k hk => ?_⟩
    · rw [hcount]
      simp [hk]
    · rw [hcount, hsince]
      simp [hk]

/-- A transition after which all keys are there still. -/
theorem Kept.lasts {ts : List (Transition σ ι)} {t : Transition σ ι}
    (h : Kept held events count ts t.before) (hheld : ∀ k, held t.before k → held t.after k)
    (hcount : ∀ k, count t.after k = count t.before k + events t k)
    (hevents : ∀ k, ¬ held t.before k → events t k = 0) :
    Kept held events count (ts ++ [t]) t.after := by
  rw [kept_concat_iff h]
  intro k
  by_cases hk : held t.before k
  · rw [if_pos ⟨hk, hheld k hk⟩, hcount]
  · rw [if_neg fun hboth => hk hboth.1, hcount, h.gone k hk, hevents k hk]

/-- **The counters are kept throughout a run** exactly if each of its transitions is good, where the
good transitions are those that keep the counters from the states with the invariant `I`. -/
theorem kept_iff {Step : σ → ι → σ → Prop} {I : σ → Prop} {Good : σ → ι → Prop}
    (hinv : ∀ s i s', Step s i s' → I s → I s')
    (hstep : ∀ ts s i s', I s → Step s i s' → Kept held events count ts s →
      (Kept held events count (ts ++ [⟨s, i, s'⟩]) s' ↔ Good s i))
    {s s' : σ} {ts : List (Transition σ ι)} (h : Trace Step s ts s') (h0 : I s)
    (hstart : Kept held events count [] s) :
    (∀ us m, us <+: ts → Trace Step s us m → Kept held events count us m) ↔
      ∀ t ∈ ts, Good t.before t.input := by
  induction ts using List.reverseRecOn generalizing s' with
  | nil =>
    constructor
    · intro _ t ht
      cases ht
    · intro _ us m hus hm
      obtain rfl := List.prefix_nil.mp hus
      cases hm
      exact hstart
  | append_singleton ts t ih =>
    obtain ⟨hts, ht, rfl⟩ := Trace.concat_iff.mp h
    have hI : I t.before := hts.kept (C := fun _ => True)
      (fun s i s' hs _ _ hi => hinv s i s' hs hi) trivial (fun _ _ => trivial) h0
    constructor
    · intro hall
      have hgood := (ih hts).mp fun us m hus => hall us m (hus.trans (List.prefix_append _ _))
      have hbefore := hall ts t.before (List.prefix_append _ _) hts
      have hafter := hall _ t.after (List.prefix_rfl) h
      have hlast := (hstep ts _ _ _ hI ht hbefore).mp hafter
      intro u hu
      rcases List.mem_append.mp hu with hu | hu
      · exact hgood u hu
      · rw [List.mem_singleton.mp hu]
        exact hlast
    · intro hgood us m hus hm
      obtain ⟨hearlier, hlast⟩ := List.forall_mem_append.mp hgood
      have hkept := (ih hts).mpr hearlier
      rcases List.prefix_concat_iff.mp hus with rfl | hus
      · obtain ⟨_, _, rfl⟩ := Trace.concat_iff.mp hm
        have hbefore := hkept ts t.before List.prefix_rfl hts
        exact (hstep ts _ _ _ hI ht hbefore).mpr (hlast t (List.mem_singleton_self t))
      · exact hkept us m hus hm

end Lifetime
