import Mathlib.Algebra.Order.Group.Multiset
import Mathlib.Tactic.Abel
import RsLxst.Core.Stream
import RsLxst.Lib.Machine

/-!
# What becomes of the items of a jitter buffer

Any number of calls on a new buffer. `Ledger` relates the calls, the buffer and what the calls
returned; it is kept by every call (`call_ledger`). The counters are compared modulo `2^64`, so
the bound on the number of calls is only needed where they are read as numbers.
-/

set_option autoImplicit false

namespace Lxst.JitterBuffer

open Machine

variable {α : Type}

inductive Call (α : Type)
  | push (item : α)
  | pop
  | clear

/-- What a call returns; a `clear` drops the items that were queued. -/
inductive Return (α : Type)
  | push (result : JitterPush α)
  | pop (item : Option α)
  | clear (items : List α)

def call (self : JitterBuffer α) : Call α → JitterBuffer α × List (Return α)
  | .push item => ((self.push item).2, [.push (self.push item).1])
  | .pop => (self.pop.2, [.pop self.pop.1])
  | .clear => (self.clear, [.clear self.queue])

/-! ## The items of a history -/

@[simp] def Call.pushed : Call α → List α
  | .push item => [item]
  | _ => []

@[simp] def Return.popped : Return α → List α
  | .pop (some item) => [item]
  | _ => []

@[simp] def Return.droppedOldest : Return α → List α
  | .push (.droppedOldest item) => [item]
  | _ => []

@[simp] def Return.droppedIncoming : Return α → List α
  | .push (.droppedIncoming item) => [item]
  | _ => []

@[simp] def Return.cleared : Return α → List α
  | .clear items => items
  | _ => []

/-- A pop that finds nothing. -/
@[simp] def Return.isMiss : Return α → Bool
  | .pop none => true
  | _ => false

/-- The counters of a history, modulo `2^64`. -/
def countersOf (calls : List (Call α)) (returns : List (Return α)) : JitterStats :=
  { pushed := .ofNat (calls.flatMap Call.pushed).length
    popped := .ofNat (returns.flatMap Return.popped).length
    droppedOldest := .ofNat (returns.flatMap Return.droppedOldest).length
    droppedNewest := .ofNat (returns.flatMap Return.droppedIncoming).length
    underruns := .ofNat (returns.countP Return.isMiss) }

/-- The account of a history that ends in `buffer`. -/
structure Ledger (calls : List (Call α)) (buffer : JitterBuffer α) (returns : List (Return α)) :
    Prop where
  bounded : buffer.len ≤ buffer.capacity
  /-- Each pushed item has one fate. -/
  fates : (calls.flatMap Call.pushed : Multiset α) =
    returns.flatMap Return.popped +
      (returns.flatMap Return.droppedOldest + returns.flatMap Return.droppedIncoming) +
      returns.flatMap Return.cleared + buffer.queue
  ordered : (returns.flatMap Return.popped ++ buffer.queue).Sublist (calls.flatMap Call.pushed)
  dropOldest : buffer.dropPolicy = .dropOldest →
    buffer.queue <:+ calls.flatMap Call.pushed ∧ returns.flatMap Return.droppedIncoming = []
  dropNewest : buffer.dropPolicy = .dropNewest → returns.flatMap Return.droppedOldest = []
  counted : buffer.stats = countersOf calls returns

/-! ## One call -/

theorem flatMap_concat {β γ : Type} (f : β → List γ) (xs : List β) (x : β) :
    (xs ++ [x]).flatMap f = xs.flatMap f ++ f x := by
  rw [List.flatMap_append, List.flatMap_singleton]

theorem push_cases (buffer : JitterBuffer α) (item : α) :
    (buffer.len < buffer.capacity ∧ buffer.push item =
      (.accepted, { buffer with
        queue := buffer.queue ++ [item], stats.pushed := buffer.stats.pushed + 1 })) ∨
    (buffer.dropPolicy = .dropNewest ∧ buffer.push item =
      (.droppedIncoming item, { buffer with
        stats.pushed := buffer.stats.pushed + 1
        stats.droppedNewest := buffer.stats.droppedNewest + 1 })) ∨
    (buffer.dropPolicy = .dropOldest ∧ ∃ oldest rest, buffer.queue = oldest :: rest ∧
      buffer.push item =
        (.droppedOldest oldest, { buffer with
          queue := rest ++ [item]
          stats.pushed := buffer.stats.pushed + 1
          stats.droppedOldest := buffer.stats.droppedOldest + 1 })) := by
  unfold push
  by_cases hroom : buffer.queue.length < buffer.capacity
  · rw [dif_pos hroom]
    exact .inl ⟨hroom, rfl⟩
  · rw [dif_neg hroom]
    cases hpolicy : buffer.dropPolicy with
    | dropNewest => exact .inr (.inl ⟨rfl, rfl⟩)
    | dropOldest =>
      refine .inr (.inr ⟨rfl, buffer.queue.head (queue_ne_nil hroom), buffer.queue.tail, ?_, rfl⟩)
      rw [List.cons_head_tail]

section
variable {calls : List (Call α)} {buffer buffer' : JitterBuffer α} {returns : List (Return α)}
  (h : Ledger calls buffer returns)
include h

/-- A call carries the account on: what was queued and what it pushes is popped, dropped, cleared or
queued after it. -/
theorem Ledger.extend {next : Call α} {ret : Return α} (hbounded : buffer'.len ≤ buffer'.capacity)
    (hpolicy : buffer'.dropPolicy = buffer.dropPolicy)
    (hfates : ((buffer.queue ++ next.pushed : List α) : Multiset α) =
      ret.popped + (ret.droppedOldest + ret.droppedIncoming) + ret.cleared + buffer'.queue)
    (hordered : (ret.popped ++ buffer'.queue).Sublist (buffer.queue ++ next.pushed))
    (holdest : buffer.dropPolicy = .dropOldest →
      buffer'.queue <:+ buffer.queue ++ next.pushed ∧ ret.droppedIncoming = [])
    (hnewest : buffer.dropPolicy = .dropNewest → ret.droppedOldest = [])
    (hcounted : buffer'.stats = countersOf (calls ++ [next]) (returns ++ [ret])) :
    Ledger (calls ++ [next]) buffer' (returns ++ [ret]) where
  bounded := hbounded
  fates := by
    rw [← Multiset.coe_add] at hfates
    simp only [flatMap_concat, ← Multiset.coe_add]
    rw [h.fates, add_assoc, hfates]
    abel
  ordered := by
    rw [flatMap_concat, flatMap_concat, List.append_assoc]
    apply (hordered.append_left _).trans
    rw [← List.append_assoc]
    exact h.ordered.append (.refl _)
  dropOldest hoption := by
    rw [hpolicy] at hoption
    obtain ⟨hsuffix, hnone⟩ := holdest hoption
    obtain ⟨⟨earlier, hpushed⟩, hnever⟩ := h.dropOldest hoption
    rw [flatMap_concat, flatMap_concat, hnever, hnone]
    refine ⟨hsuffix.trans ⟨earlier, ?_⟩, rfl⟩
    rw [← hpushed, List.append_assoc]
  dropNewest hoption := by
    rw [hpolicy] at hoption
    rw [flatMap_concat, h.dropNewest hoption, hnewest hoption]
    rfl
  counted := hcounted

theorem accepted_ledger {item : α} (hroom : buffer.len < buffer.capacity) :
    Ledger (calls ++ [.push item])
      { buffer with queue := buffer.queue ++ [item], stats.pushed := buffer.stats.pushed + 1 }
      (returns ++ [.push .accepted]) := by
  apply h.extend
  · simpa [len, Nat.succ_le_iff] using hroom
  · rfl
  · simp
  · exact .refl _
  · exact fun _ => ⟨List.suffix_rfl, rfl⟩
  · exact fun _ => rfl
  · simp [h.counted, countersOf]

theorem refused_ledger {item : α} (hpolicy : buffer.dropPolicy = .dropNewest) :
    Ledger (calls ++ [.push item])
      { buffer with
        stats.pushed := buffer.stats.pushed + 1
        stats.droppedNewest := buffer.stats.droppedNewest + 1 }
      (returns ++ [.push (.droppedIncoming item)]) := by
  apply h.extend
  · exact h.bounded
  · rfl
  · simp [← Multiset.coe_add, add_comm]
  · exact List.sublist_append_left _ _
  · intro hother
    rw [hpolicy] at hother
    cases hother
  · exact fun _ => rfl
  · simp [h.counted, countersOf]

theorem evicted_ledger {item oldest : α} {rest : List α}
    (hpolicy : buffer.dropPolicy = .dropOldest) (hqueue : buffer.queue = oldest :: rest) :
    Ledger (calls ++ [.push item])
      { buffer with
        queue := rest ++ [item]
        stats.pushed := buffer.stats.pushed + 1
        stats.droppedOldest := buffer.stats.droppedOldest + 1 }
      (returns ++ [.push (.droppedOldest oldest)]) := by
  apply h.extend
  · have hbounded := h.bounded
    rw [len, hqueue] at hbounded
    simpa [len] using hbounded
  · rfl
  · rw [hqueue]
    simp
  · rw [hqueue]
    exact List.sublist_cons_self _ _
  · intro _
    rw [hqueue]
    exact ⟨List.suffix_cons _ _, rfl⟩
  · intro hother
    rw [hpolicy] at hother
    cases hother
  · simp [h.counted, countersOf]

theorem push_ledger (item : α) :
    Ledger (calls ++ [.push item]) (buffer.push item).2
      (returns ++ [.push (buffer.push item).1]) := by
  obtain ⟨hroom, heq⟩ | ⟨hpolicy, heq⟩ | ⟨hpolicy, oldest, rest, hqueue, heq⟩ :=
    push_cases buffer item
  · rw [heq]
    exact accepted_ledger h hroom
  · rw [heq]
    exact refused_ledger h hpolicy
  · rw [heq]
    exact evicted_ledger h hpolicy hqueue

theorem popped_ledger {item : α} {rest : List α} (hqueue : buffer.queue = item :: rest) :
    Ledger (calls ++ [.pop])
      { buffer with queue := rest, stats.popped := buffer.stats.popped + 1 }
      (returns ++ [.pop (some item)]) := by
  apply h.extend
  · have hbounded := h.bounded
    rw [len, hqueue, List.length_cons] at hbounded
    exact Nat.le_of_succ_le hbounded
  · rfl
  · rw [hqueue]
    simp
  · rw [hqueue]
    simp
  · intro _
    rw [hqueue]
    simp
  · exact fun _ => rfl
  · simp [h.counted, countersOf]

theorem missed_ledger :
    Ledger (calls ++ [.pop]) { buffer with stats.underruns := buffer.stats.underruns + 1 }
      (returns ++ [.pop none]) := by
  apply h.extend
  · exact h.bounded
  · rfl
  · simp
  · simp
  · intro _
    simp
  · exact fun _ => rfl
  · simp [h.counted, countersOf]

theorem pop_ledger :
    Ledger (calls ++ [.pop]) buffer.pop.2 (returns ++ [.pop buffer.pop.1]) := by
  unfold pop
  split
  · exact missed_ledger h
  · rename_i item rest hqueue
    exact popped_ledger h hqueue

theorem clear_ledger :
    Ledger (calls ++ [.clear]) buffer.clear (returns ++ [.clear buffer.queue]) := by
  apply h.extend
  · exact Nat.zero_le _
  · rfl
  · simp [clear]
  · simp [clear]
  · intro _
    simp [clear]
  · exact fun _ => rfl
  · simp [h.counted, countersOf, clear]

theorem call_ledger (next : Call α) :
    Ledger (calls ++ [next]) (buffer.call next).1 (returns ++ (buffer.call next).2) := by
  cases next with
  | push item => exact push_ledger h item
  | pop => exact pop_ledger h
  | clear => exact clear_ledger h

end

/-! ## A whole run -/

variable {capacity : Nat} {dropPolicy : DropPolicy} {buffer : JitterBuffer α}

theorem new_ledger (hnew : new capacity dropPolicy = .ok buffer) : Ledger [] buffer [] := by
  unfold new at hnew
  split at hnew
  · cases hnew
  · cases hnew
    exact ⟨Nat.zero_le _, rfl, .refl _, fun _ => ⟨List.nil_suffix, rfl⟩, fun _ => rfl, rfl⟩

theorem run_ledger (hnew : new capacity dropPolicy = .ok buffer) (calls : List (Call α)) :
    Ledger calls (run call buffer calls) (output call buffer calls) :=
  run_history call Ledger (new_ledger hnew) (fun _ _ _ next h => call_ledger h next) calls

theorem call_settings (buffer : JitterBuffer α) (next : Call α) :
    (buffer.call next).1.capacity = buffer.capacity ∧
      (buffer.call next).1.dropPolicy = buffer.dropPolicy := by
  cases next with
  | push item =>
    obtain ⟨-, heq⟩ | ⟨-, heq⟩ | ⟨-, _, _, -, heq⟩ := push_cases buffer item
    all_goals
      rw [call, heq]
      exact ⟨rfl, rfl⟩
  | pop =>
    rw [call, pop]
    split <;> exact ⟨rfl, rfl⟩
  | clear => exact ⟨rfl, rfl⟩

theorem run_settings (hnew : new capacity dropPolicy = .ok buffer) (calls : List (Call α)) :
    (run call buffer calls).capacity = capacity ∧
      (run call buffer calls).dropPolicy = dropPolicy := by
  refine run_invariant call ?_ ?_ calls
    (I := fun b => b.capacity = capacity ∧ b.dropPolicy = dropPolicy)
  · unfold new at hnew
    split at hnew
    · cases hnew
    · cases hnew
      exact ⟨rfl, rfl⟩
  · intro b next h
    obtain ⟨hcapacity, hpolicy⟩ := call_settings b next
    exact ⟨hcapacity.trans h.1, hpolicy.trans h.2⟩

theorem output_length (buffer : JitterBuffer α) (calls : List (Call α)) :
    (output call buffer calls).length = calls.length := by
  induction calls generalizing buffer with
  | nil => rfl
  | cons next calls ih =>
    rw [output_cons, List.length_append, ih, List.length_cons, Nat.add_comm]
    cases next <;> rfl

theorem pushed_length_le (calls : List (Call α)) :
    (calls.flatMap Call.pushed).length ≤ calls.length := by
  induction calls with
  | nil => exact Nat.le_refl _
  | cons next calls ih =>
    rw [List.flatMap_cons, List.length_append, List.length_cons]
    cases next <;> simp only [Call.pushed, List.length_cons, List.length_nil] <;> omega

/-- The fates counted. -/
theorem Ledger.balance {calls : List (Call α)} {buffer : JitterBuffer α}
    {returns : List (Return α)} (h : Ledger calls buffer returns) :
    (calls.flatMap Call.pushed).length =
      (returns.flatMap Return.popped).length +
        ((returns.flatMap Return.droppedOldest).length +
          (returns.flatMap Return.droppedIncoming).length) +
        (returns.flatMap Return.cleared).length + buffer.len := by
  have hcard := congrArg Multiset.card h.fates
  simp only [Multiset.card_add, Multiset.coe_card] at hcard
  exact hcard

/-- **Nothing is lost unaccounted**: the fates of the pushed items, their order, what each policy
keeps, and the counters. -/
theorem run_accounts (hnew : new capacity dropPolicy = .ok buffer) (calls : List (Call α))
    (hcalls : calls.length < 2 ^ 64) :
    let buffer' := run call buffer calls
    let returns := output call buffer calls
    Ledger calls buffer' returns ∧
      buffer'.len ≤ capacity ∧ buffer'.capacity = capacity ∧ buffer'.dropPolicy = dropPolicy ∧
      buffer'.stats.pushed.toNat =
        buffer'.stats.popped.toNat + buffer'.stats.droppedOldest.toNat +
          buffer'.stats.droppedNewest.toNat + buffer'.len +
          (returns.flatMap Return.cleared).length ∧
      buffer'.stats.underruns.toNat = returns.countP Return.isMiss := by
  intro buffer' returns
  have hledger : Ledger calls buffer' returns := run_ledger hnew calls
  obtain ⟨hcapacity, hpolicy⟩ := run_settings hnew calls
  have hbalance := hledger.balance
  have hpushed := pushed_length_le calls
  have hmisses : returns.countP Return.isMiss ≤ calls.length := by
    rw [← output_length buffer calls]
    exact List.countP_le_length
  refine ⟨hledger, hcapacity ▸ hledger.bounded, hcapacity, hpolicy, ?_, ?_⟩
  · rw [hledger.counted]
    simp only [countersOf, UInt64.toNat_ofNat']
    rw [Nat.mod_eq_of_lt, Nat.mod_eq_of_lt, Nat.mod_eq_of_lt, Nat.mod_eq_of_lt] <;> omega
  · rw [hledger.counted]
    simp only [countersOf, UInt64.toNat_ofNat']
    rw [Nat.mod_eq_of_lt]
    omega

/-- An empty buffer of two items that drops its oldest. -/
def pair : JitterBuffer Nat :=
  { capacity := 2, dropPolicy := .dropOldest, queue := [], stats := .default,
    positive := Nat.two_pos }

/-- Three pushes into a buffer of two, and a pop. -/
theorem run_accounts_three :
    Ledger [.push 1, .push 2, .push 3, .pop] (run call pair [.push 1, .push 2, .push 3, .pop])
        (output call pair [.push 1, .push 2, .push 3, .pop]) ∧
      (run call pair [.push 1, .push 2, .push 3, .pop]).queue = [3] := by
  have hnew : new 2 .dropOldest = .ok pair := rfl
  exact ⟨(run_accounts hnew _ (by decide)).1, rfl⟩

end Lxst.JitterBuffer
