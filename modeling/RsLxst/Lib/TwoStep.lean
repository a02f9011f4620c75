import Mathlib.Data.List.Nodup
import Mathlib.Logic.Relation

/-!
# Jobs of two messages

A job with key `k` sends `first k` and then `second k` into a channel that may refuse a message for
now; what is left of it waits. `Step` is what may happen to the waiting jobs: one is added, one
sends its next message, or a job whose key waits already sends some of its messages and is dropped.
No key waits twice (`Step.nodup`), no job is lost (`accounted`), and no second message comes before
the first of its key (`Follows`).
-/

set_option autoImplicit false

namespace TwoStep

variable {κ μ : Type*}

/-- The waiting jobs, each with whether its first message was sent, and the messages sent. -/
abbrev State (κ μ : Type*) := List (κ × Bool) × List μ

def keys (pending : List (κ × Bool)) : List κ := pending.map (·.1)

inductive Step (first second : κ → μ) : State κ μ → State κ μ → Prop
  | add {k : κ} {pending : List (κ × Bool)} (sent : List μ) (hnew : k ∉ keys pending) :
    Step first second (pending, sent) (pending ++ [(k, false)], sent)
  | sendFirst (k : κ) (before after : List (κ × Bool)) (sent : List μ) :
    Step first second (before ++ (k, false) :: after, sent)
      (before ++ (k, true) :: after, sent ++ [first k])
  | sendSecond (k : κ) (before after : List (κ × Bool)) (sent : List μ) :
    Step first second (before ++ (k, true) :: after, sent) (before ++ after, sent ++ [second k])
  | drop {k : κ} {pending : List (κ × Bool)} {messages : List μ} (sent : List μ)
    (hwaits : k ∈ keys pending) (hmessages : messages <+: [first k, second k]) :
    Step first second (pending, sent) (pending, sent ++ messages)

variable {first second : κ → μ} {s s' : State κ μ}

@[simp] theorem keys_append (xs ys : List (κ × Bool)) : keys (xs ++ ys) = keys xs ++ keys ys :=
  List.map_append

@[simp] theorem keys_cons (k : κ) (started : Bool) (rest : List (κ × Bool)) :
    keys ((k, started) :: rest) = k :: keys rest := rfl

@[simp] theorem keys_nil : keys ([] : List (κ × Bool)) = [] := rfl

theorem Step.nodup (h : Step first second s s') (hs : (keys s.1).Nodup) : (keys s'.1).Nodup := by
  cases h with
  | add sent hnew =>
    simp only [keys_append, keys_cons, keys_nil]
    apply hs.append (List.nodup_singleton _)
    simpa using hnew
  | sendFirst k before after sent => simpa using hs
  | sendSecond k before after sent =>
    simp only [keys_append, keys_cons] at hs ⊢
    exact ((List.sublist_cons_self _ _).append_left _).nodup hs
  | drop => exact hs

theorem nodup (h : Relation.ReflTransGen (Step first second) s s') (hs : (keys s.1).Nodup) :
    (keys s'.1).Nodup := by
  induction h with
  | refl => exact hs
  | tail _ hstep ih => exact hstep.nodup ih

/-! ## No job is lost -/

/-- The job waits, or its second message was sent. -/
def Kept (second : κ → μ) (k : κ) (s : State κ μ) : Prop := k ∈ keys s.1 ∨ second k ∈ s.2

theorem Step.kept {k : κ} (h : Step first second s s') (hs : Kept second k s) :
    Kept second k s' := by
  rcases hs with hwaits | hsent
  · cases h with
    | add sent hnew =>
      left
      simp [hwaits]
    | sendFirst j before after sent =>
      left
      simpa using hwaits
    | sendSecond j before after sent =>
      simp only [keys_append, keys_cons, List.mem_append, List.mem_cons] at hwaits
      obtain hbefore | rfl | hafter := hwaits
      · left
        simp [hbefore]
      · right
        simp
      · left
        simp [hafter]
    | drop => exact .inl hwaits
  · right
    cases h with
    | add => exact hsent
    | sendFirst | sendSecond | drop => exact List.mem_append_left _ hsent

theorem kept {k : κ} (h : Relation.ReflTransGen (Step first second) s s') (hs : Kept second k s) :
    Kept second k s' := by
  induction h with
  | refl => exact hs
  | tail _ hstep ih => exact hstep.kept ih

/-! ## The order of the messages -/

/-- Each second message of the key comes after a first one, unless one was `older`. -/
def Follows (first second : κ → μ) (k : κ) (older : Prop) (sent : List μ) : Prop :=
  ∀ xs, xs ++ [second k] <+: sent → first k ∈ xs ∨ older

/-- The messages are in order, and a job that sent its first message has sent it here. -/
structure Ordered (first second : κ → μ) (k : κ) (older : Prop) (s : State κ μ) : Prop where
  begun : (k, true) ∈ s.1 → first k ∈ s.2 ∨ older
  follows : Follows first second k older s.2

variable {k : κ} {older : Prop}

theorem prefix_pair_cases {m m' : μ} {messages : List μ} (h : messages <+: [m, m']) :
    messages = [] ∨ messages = [m] ∨ messages = [m, m'] := by
  simp only [List.prefix_cons_iff, List.prefix_nil] at h
  obtain rfl | ⟨_, rfl, rfl | ⟨_, rfl, rfl⟩⟩ := h
  · exact .inl rfl
  · exact .inr (.inl rfl)
  · exact .inr (.inr rfl)

theorem Follows.nil : Follows first second k older ([] : List μ) := by
  intro xs hprefix
  exact absurd (List.prefix_nil.1 hprefix) (List.append_ne_nil_of_right_ne_nil _ (by simp))

theorem Follows.send {sent : List μ} {m : μ} (h : Follows first second k older sent)
    (hm : m = second k → first k ∈ sent ∨ older) :
    Follows first second k older (sent ++ [m]) := by
  intro xs hprefix
  rcases List.prefix_concat_iff.1 hprefix with heq | hprefix
  · obtain ⟨rfl, hlast⟩ := List.append_inj' heq rfl
    exact hm (List.singleton_inj.1 hlast).symm
  · exact h xs hprefix

section
variable (hsecond : Function.Injective second) (hne : ∀ j k, first j ≠ second k)
include hsecond hne

theorem Follows.sendAll {sent messages : List μ} {j : κ} (h : Follows first second k older sent)
    (hmessages : messages <+: [first j, second j]) :
    Follows first second k older (sent ++ messages) := by
  have hfirst : Follows first second k older (sent ++ [first j]) :=
    h.send fun heq => absurd heq (hne j k)
  rcases prefix_pair_cases hmessages with rfl | rfl | rfl
  · rwa [List.append_nil]
  · exact hfirst
  · rw [List.append_cons]
    apply hfirst.send
    intro heq
    left
    simp [hsecond heq]

theorem Step.ordered (h : Step first second s s') (hs : Ordered first second k older s) :
    Ordered first second k older s' := by
  cases h with
  | add sent hnew =>
    refine ⟨fun hbegun => hs.begun ?_, hs.follows⟩
    simpa using hbegun
  | sendFirst j before after sent =>
    refine ⟨fun hbegun => ?_, hs.follows.send fun heq => absurd heq (hne j k)⟩
    by_cases hjk : k = j
    · rw [hjk]
      exact .inl (List.mem_append_right _ (List.mem_singleton_self _))
    · have hbegun : (k, true) ∈ before ++ (j, false) :: after := by simpa [hjk] using hbegun
      exact (hs.begun hbegun).imp_left (List.mem_append_left _)
  | sendSecond j before after sent =>
    constructor
    · intro hbegun
      have hbegun : (k, true) ∈ before ++ (j, true) :: after :=
        (List.Sublist.refl before).append (List.sublist_cons_self _ _) |>.subset hbegun
      exact (hs.begun hbegun).imp_left (List.mem_append_left _)
    · apply hs.follows.send
      intro heq
      apply hs.begun
      rw [hsecond heq]
      exact List.mem_append_right _ (List.mem_cons_self ..)
  | drop sent hwaits hmessages =>
    refine ⟨fun hbegun => ?_, hs.follows.sendAll hsecond hne hmessages⟩
    exact (hs.begun hbegun).imp_left (List.mem_append_left _)

theorem ordered (h : Relation.ReflTransGen (Step first second) s s')
    (hs : Ordered first second k older s) : Ordered first second k older s' := by
  induction h with
  | refl => exact hs
  | tail _ hstep ih => exact hstep.ordered hsecond hne ih

/-- A job that waits at the start of a run waits at its end, or its second message was sent in the
run, after the first one. -/
theorem accounted {pending pending' : List (κ × Bool)} {sent : List μ}
    (h : Relation.ReflTransGen (Step first second) (pending, []) (pending', sent))
    (hk : k ∈ keys pending) :
    k ∈ keys pending' ∨
      ∃ xs zs, sent = xs ++ second k :: zs ∧ (first k ∈ xs ∨ (k, true) ∈ pending) := by
  have hkept : Kept second k (pending', sent) := kept h (.inl hk)
  have hordered : Ordered first second k ((k, true) ∈ pending) (pending', sent) :=
    ordered hsecond hne h ⟨.inr, .nil⟩
  apply hkept.imp_right
  intro hsent
  obtain ⟨xs, zs, rfl⟩ := List.append_of_mem hsent
  exact ⟨xs, zs, rfl, hordered.follows xs ⟨zs, by simp⟩⟩

end

end TwoStep
