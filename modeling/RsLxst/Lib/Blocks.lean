import Mathlib.Data.List.Basic

/-!
# Consecutive blocks of a list

A list cut into blocks of given lengths: `exists_blocks` (there is one where the lengths fit) and
`blocks_unique`; for equal lengths the blocks are the slices at the multiples of the length
(`equalBlocks`).
-/

set_option autoImplicit false

namespace Blocks

variable {α : Type*}

def total : List Nat → Nat
  | [] => 0
  | n :: ns => n + total ns

theorem total_concat (ns : List Nat) (n : Nat) : total (ns ++ [n]) = total ns + n := by
  induction ns with
  | nil => simp [total]
  | cons m ns ih => simp [total, ih, Nat.add_assoc]

theorem total_le {ns : List Nat} {k : Nat} (h : ∀ n ∈ ns, n ≤ k) : total ns ≤ ns.length * k := by
  induction ns with
  | nil => simp [total]
  | cons n ns ih =>
    obtain ⟨hn, hns⟩ := List.forall_mem_cons.mp h
    have := ih hns
    rw [total, List.length_cons, Nat.succ_mul]
    omega

@[simp] theorem total_map_length (blocks : List (List α)) :
    total (blocks.map List.length) = blocks.flatten.length := by
  induction blocks with
  | nil => rfl
  | cons b bs ih => simp [total, ih]

theorem exists_blocks (ns : List Nat) (xs : List α) (h : total ns ≤ xs.length) :
    ∃ blocks : List (List α), blocks.map List.length = ns ∧ blocks.flatten <+: xs := by
  induction ns generalizing xs with
  | nil => exact ⟨[], rfl, List.nil_prefix⟩
  | cons n ns ih =>
    rw [total] at h
    obtain ⟨bs, hlen, t, ht⟩ := ih (xs.drop n) (by rw [List.length_drop]; omega)
    refine ⟨xs.take n :: bs, ?_, t, ?_⟩
    · rw [List.map_cons, hlen, List.length_take_of_le (by omega)]
    · rw [List.flatten_cons, List.append_assoc, ht, List.take_append_drop]

theorem blocks_unique {bs cs : List (List α)} {xs : List α}
    (hlen : bs.map List.length = cs.map List.length) (hb : bs.flatten <+: xs)
    (hc : cs.flatten <+: xs) : bs = cs := by
  induction bs generalizing cs xs with
  | nil => cases cs with
    | nil => rfl
    | cons c cs => cases hlen
  | cons b bs ih => cases cs with
    | nil => cases hlen
    | cons c cs =>
      rw [List.map_cons, List.map_cons, List.cons.injEq] at hlen
      obtain ⟨t, ht⟩ := hb
      obtain ⟨u, hu⟩ := hc
      rw [List.flatten_cons, List.append_assoc] at ht hu
      obtain ⟨rfl, hrest⟩ := List.append_inj (ht.trans hu.symm) hlen.1
      rw [ih hlen.2 ⟨t, rfl⟩ ⟨u, hrest.symm⟩]

/-- Blocks of the given lengths, and a last one that takes what they leave. -/
theorem exists_blocks_concat {ns : List Nat} {xs : List α} (h : total ns ≤ xs.length) :
    ∃ blocks : List (List α), blocks.map List.length = ns ++ [xs.length - total ns] ∧
      blocks.flatten = xs := by
  obtain ⟨blocks, hlen, hpre⟩ := exists_blocks (ns ++ [xs.length - total ns]) xs
    (by rw [total_concat]; omega)
  refine ⟨blocks, hlen, hpre.eq_of_length ?_⟩
  rw [← total_map_length, hlen, total_concat]
  omega

theorem last_length {ns : List Nat} {last : Nat} {blocks : List (List α)}
    (h : blocks.map List.length = ns ++ [last]) : total ns + last = blocks.flatten.length := by
  rw [← total_map_length, h, total_concat]

/-! ## Blocks of one length -/

theorem length_flatten_of_equal {k : Nat} {blocks : List (List α)}
    (h : ∀ b ∈ blocks, b.length = k) : blocks.flatten.length = blocks.length * k := by
  induction blocks with
  | nil => simp
  | cons b bs ih =>
    obtain ⟨hb, hbs⟩ := List.forall_mem_cons.mp h
    rw [List.flatten_cons, List.length_append, List.length_cons, ih hbs, hb, Nat.succ_mul,
      Nat.add_comm]

def equalBlocks (k n : Nat) (xs : List α) : List (List α) :=
  (List.range n).map fun i => (xs.take (i * k + k)).drop (i * k)

theorem equalBlocks_succ (k n : Nat) (xs : List α) :
    equalBlocks k (n + 1) xs = xs.take k :: equalBlocks k n (xs.drop k) := by
  simp only [equalBlocks, List.range_succ_eq_map, List.map_cons, List.map_map, Nat.zero_mul,
    Nat.zero_add, List.drop_zero, Function.comp_def, List.cons.injEq, true_and]
  refine List.map_congr_left fun i _ => ?_
  have hi : (i + 1) * k = k + i * k := by rw [Nat.succ_mul, Nat.add_comm]
  show (xs.take ((i + 1) * k + k)).drop ((i + 1) * k) = _
  rw [hi, Nat.add_assoc, List.take_drop, List.drop_drop]

/-- The blocks of length `k` of a list of length `n * k`. -/
theorem eq_equalBlocks_iff {k n : Nat} {xs : List α} (h : xs.length = n * k)
    (blocks : List (List α)) :
    blocks = equalBlocks k n xs ↔
      blocks.length = n ∧ (∀ b ∈ blocks, b.length = k) ∧ xs = blocks.flatten := by
  induction n generalizing xs blocks with
  | zero =>
    obtain rfl : xs = [] := List.length_eq_zero_iff.1 (by simpa using h)
    constructor
    · rintro rfl
      exact ⟨rfl, nofun, rfl⟩
    · rintro ⟨hl, -, -⟩
      exact List.length_eq_zero_iff.1 hl
  | succ n ih =>
    rw [Nat.succ_mul] at h
    have hrest : (xs.drop k).length = n * k := by
      rw [List.length_drop]
      omega
    have ih := ih hrest
    rw [equalBlocks_succ]
    constructor
    · rintro rfl
      obtain ⟨hl, hk, hx⟩ := (ih _).1 rfl
      refine ⟨by rw [List.length_cons, hl], fun b hb => ?_, ?_⟩
      · rcases List.mem_cons.1 hb with rfl | hb
        · exact List.length_take_of_le (by omega)
        · exact hk b hb
      · rw [List.flatten_cons, ← hx, List.take_append_drop]
    · rintro ⟨hl, hk, hx⟩
      cases blocks with
      | nil => cases hl
      | cons b bs =>
        obtain ⟨hb, hbs⟩ := List.forall_mem_cons.mp hk
        subst hx
        rw [List.flatten_cons, List.take_left' hb, List.drop_left' hb]
        rw [List.flatten_cons, List.drop_left' hb] at ih
        rw [← (ih bs).2 ⟨by simpa using hl, hbs, rfl⟩]

theorem toChunks_go_eq {k : Nat} (hk : 0 < k) {xs : List α} {block : Array α} {n : Nat}
    (out : Array (List α)) (hblock : block.size ≤ k) (h : block.size + xs.length = (n + 1) * k) :
    List.toChunks.go k xs block out =
      out.toList ++ equalBlocks k (n + 1) (block.toList ++ xs) := by
  rw [Nat.succ_mul] at h
  induction xs generalizing block out n with
  | nil =>
    rw [List.length_nil, Nat.add_zero] at h
    obtain rfl : n = 0 := by
      rcases Nat.eq_zero_or_pos n with rfl | hn
      · rfl
      · have := Nat.mul_pos hn hk
        omega
    have hlast : block.toList.take k = block.toList := by
      apply List.take_of_length_le
      rw [Array.length_toList]
      exact hblock
    rw [List.toChunks.go, equalBlocks_succ, List.append_nil, hlast, Array.toList_push]
    rfl
  | cons x xs ih =>
    rw [List.length_cons] at h
    rw [List.toChunks.go]
    by_cases hfull : block.size = k
    · -- the block is complete, so the list holds another one
      rw [if_pos (beq_iff_eq.2 hfull)]
      obtain ⟨n, rfl⟩ : ∃ m, n = m + 1 := by
        rcases n with _ | m
        · omega
        · exact ⟨m, rfl⟩
      have hsize : ((Array.mkEmpty k).push x).size = 1 := rfl
      rw [Nat.succ_mul] at h
      have hrest : ((Array.mkEmpty k).push x).toList ++ xs = x :: xs := rfl
      rw [ih (n := n) (out.push block.toList) (by omega) (by omega), hrest,
        equalBlocks_succ k (n + 1),
        List.take_left' (by simpa using hfull), List.drop_left' (by simpa using hfull),
        Array.toList_push, List.append_assoc]
      rfl
    · rw [if_neg (by simpa using hfull)]
      have hsize : (block.push x).size = block.size + 1 := Array.size_push x
      rw [ih (n := n) out (by omega) (by omega), Array.toList_push, List.append_assoc]
      rfl

/-- Chunks of an exact multiple of their length. -/
theorem toChunks_eq {k n : Nat} (hk : 0 < k) {xs : List α} (h : xs.length = n * k) :
    xs.toChunks k = equalBlocks k n xs := by
  cases xs with
  | nil =>
    obtain rfl : n = 0 := by
      rcases Nat.eq_zero_or_pos n with rfl | hn
      · rfl
      · have := Nat.mul_pos hn hk
        rw [List.length_nil] at h
        omega
    cases k <;> rfl
  | cons x xs =>
    obtain ⟨n, rfl⟩ : ∃ m, n = m + 1 := by
      rcases n with _ | m
      · rw [Nat.zero_mul] at h
        cases h
      · exact ⟨m, rfl⟩
    obtain ⟨k, rfl⟩ := Nat.exists_eq_add_of_lt hk
    show List.toChunks.go _ xs #[x] #[] = _
    rw [List.length_cons, Nat.add_comm] at h
    exact toChunks_go_eq hk #[] (by simp) h

end Blocks
