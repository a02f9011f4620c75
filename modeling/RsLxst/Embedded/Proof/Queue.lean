import RsLxst.Embedded.Queue
import RsLxst.Lib.Ring

/-!
# The embedded media queue is a bounded list

`Backlog` says what the queue is for: the last frames that arrived, oldest first, at most three of
them. `Refines` relates a queue to a backlog, and each method follows the backlog's own
(`MediaQueue.push_refines`, `MediaQueue.pop_refines`), so a run of calls has the backlog's outcomes
(`mediaQueue_refines_list`). In a backlog every accepted frame is accounted for
(`Backlog.balanced`).
-/

set_option autoImplicit false

namespace Lxst.Embedded.Queue

open Lxst.Embedded.Wire (MAX_FRAME_BYTES)

/-! ## The bounded list -/

/-- An encoded frame with its deadline and the stream it belongs to. -/
structure Item where
  bytes : List UInt8
  generation : UInt32
  expires : UInt64

/-- It has expired, or it is of another stream. -/
def Item.stale (nowMs : UInt64) (generation : UInt32) (item : Item) : Bool :=
  item.expires ≤ nowMs ∨ item.generation ≠ generation

/-- The frames that wait, oldest first, and how many were dropped. -/
@[ext] structure Backlog where
  items : List Item
  dropped : Nat
  bounded : items.length ≤ CAPACITY

namespace Backlog

def empty : Backlog := { items := [], dropped := 0, bounded := Nat.zero_le _ }

def clear (self : Backlog) : Backlog := { self with items := [], bounded := Nat.zero_le _ }

/-- The first item goes. -/
def retire (self : Backlog) (dropped : Bool) : Backlog where
  items := self.items.tail
  dropped := if dropped then self.dropped + 1 else self.dropped
  bounded := by
    have := self.bounded
    rw [List.length_tail]
    omega

/-- There is room for another item: the oldest goes if there is none. -/
def makeRoom (self : Backlog) : Backlog :=
  if self.items.length = CAPACITY then self.retire true else self

theorem makeRoom_length (self : Backlog) : self.makeRoom.items.length < CAPACITY := by
  have := self.bounded
  unfold makeRoom
  split
  · show self.items.tail.length < CAPACITY
    rw [List.length_tail]
    have : CAPACITY = 3 := rfl
    omega
  · omega

def append (self : Backlog) (item : Item) : Backlog where
  items := self.makeRoom.items ++ [item]
  dropped := self.makeRoom.dropped
  bounded := by
    rw [List.length_append]
    exact self.makeRoom_length

def push (self : Backlog) (bytes : List UInt8) (generation : UInt32) (nowMs expiresMs : UInt64) :
    Except QueueError Unit × Backlog :=
  if bytes.isEmpty then (.error .emptyPayload, self)
  else if bytes.length > MAX_FRAME_BYTES then (.error .payloadTooLarge, self)
  else if expiresMs ≤ nowMs then (.error .expired, self)
  else (.ok (), self.append { bytes, generation, expires := expiresMs })

/-- The items from the front on that satisfy `p` are dropped. -/
def shed (self : Backlog) (p : Item → Bool) : Backlog where
  items := self.items.dropWhile p
  dropped := self.dropped + (self.items.takeWhile p).length
  bounded := Nat.le_trans (List.dropWhile_sublist p).length_le self.bounded

/-- The first item into the output. -/
def takeFirst (self : Backlog) (output : List UInt8) :
    Except QueueError (Option Nat) × Backlog × List UInt8 :=
  match self.items with
  | [] => (.ok none, self, output)
  | item :: _ =>
    if output.length < item.bytes.length then (.error .outputCapacity, self, output)
    else
      (.ok (some item.bytes.length), self.retire false,
        item.bytes ++ output.drop item.bytes.length)

def pop (self : Backlog) (nowMs : UInt64) (generation : UInt32) (output : List UInt8) :
    Except QueueError (Option Nat) × Backlog × List UInt8 :=
  (self.shed (Item.stale nowMs generation)).takeFirst output

def call (self : Backlog) : Call → Backlog × List Outcome
  | .push bytes generation nowMs expiresMs =>
    let (result, self) := self.push bytes generation nowMs expiresMs
    (self, [.pushed result])
  | .pop nowMs generation output =>
    let (result, self, output) := self.pop nowMs generation output
    (self, [.popped result output])
  | .clear => (self.clear, [.cleared self.items.length])

end Backlog

/-! ## Every accepted frame is accounted for -/

/-- The pushes that succeeded. -/
def accepted (outcomes : List Outcome) : Nat :=
  outcomes.countP fun
    | .pushed (.ok ()) => true
    | _ => false

/-- The frames that `pop` returned. -/
def returned (outcomes : List Outcome) : Nat :=
  outcomes.countP fun
    | .popped (.ok (some _)) _ => true
    | _ => false

/-- The frames that waited when the queue was cleared. -/
def cleared : List Outcome → Nat
  | [] => 0
  | .cleared length :: outcomes => length + cleared outcomes
  | _ :: outcomes => cleared outcomes

theorem accepted_append (xs ys : List Outcome) :
    accepted (xs ++ ys) = accepted xs + accepted ys := List.countP_append

theorem returned_append (xs ys : List Outcome) :
    returned (xs ++ ys) = returned xs + returned ys := List.countP_append

theorem cleared_append (xs ys : List Outcome) :
    cleared (xs ++ ys) = cleared xs + cleared ys := by
  induction xs with
  | nil => simp [cleared]
  | cons x xs ih => cases x <;> simp [cleared, ih, Nat.add_assoc]

namespace Backlog

theorem retire_count {self : Backlog} (h : self.items ≠ []) (dropped : Bool) :
    (self.retire dropped).items.length + 1 = self.items.length ∧
      (self.retire dropped).dropped = self.dropped + if dropped then 1 else 0 := by
  have hpos : 0 < self.items.length := List.length_pos_iff.2 h
  have htail : (self.retire dropped).items.length = self.items.length - 1 := List.length_tail
  refine ⟨by omega, ?_⟩
  cases dropped <;> rfl

theorem makeRoom_count (self : Backlog) :
    self.makeRoom.dropped + self.makeRoom.items.length = self.dropped + self.items.length := by
  unfold makeRoom
  split
  · rename_i hfull
    have hne : self.items ≠ [] := by
      intro h
      rw [h] at hfull
      cases hfull
    obtain ⟨hlength, hdropped⟩ := retire_count hne true
    rw [hdropped, if_pos rfl]
    omega
  · rfl

theorem shed_count (self : Backlog) (p : Item → Bool) :
    (self.shed p).dropped + (self.shed p).items.length = self.dropped + self.items.length := by
  show self.dropped + (self.items.takeWhile p).length + (self.items.dropWhile p).length = _
  have h := congrArg List.length (List.takeWhile_append_dropWhile (p := p) (l := self.items))
  rw [List.length_append] at h
  omega

theorem push_cases (self : Backlog) (bytes : List UInt8) (generation : UInt32)
    (nowMs expiresMs : UInt64) :
    (∃ error, self.push bytes generation nowMs expiresMs = (.error error, self)) ∨
      self.push bytes generation nowMs expiresMs =
        (.ok (), self.append { bytes, generation, expires := expiresMs }) := by
  unfold push
  split
  · exact .inl ⟨_, rfl⟩
  split
  · exact .inl ⟨_, rfl⟩
  split
  · exact .inl ⟨_, rfl⟩
  · exact .inr rfl

theorem takeFirst_cases (self : Backlog) (output : List UInt8) :
    self.takeFirst output = (.ok none, self, output) ∨
      self.takeFirst output = (.error .outputCapacity, self, output) ∨
      ∃ length rest, self.items ≠ [] ∧
        self.takeFirst output = (.ok (some length), self.retire false, rest) := by
  unfold takeFirst
  split
  · exact .inl rfl
  · rename_i item rest hitems
    split
    · exact .inr (.inl rfl)
    · refine .inr (.inr ⟨_, _, ?_, rfl⟩)
      rw [hitems]
      exact List.cons_ne_nil _ _

/-- What comes in with a call is what has gone out with it or is still there. -/
theorem call_count (self : Backlog) (c : Call) :
    accepted (self.call c).2 + (self.dropped + self.items.length) =
      returned (self.call c).2 + cleared (self.call c).2 +
        ((self.call c).1.dropped + (self.call c).1.items.length) := by
  cases c with
  | push bytes generation nowMs expiresMs =>
    rw [call]
    rcases self.push_cases bytes generation nowMs expiresMs with ⟨error, h⟩ | h
    · rw [h]
      simp [accepted, returned, cleared]
    · have hroom := self.makeRoom_count
      rw [h]
      simp [accepted, returned, cleared, append]
      omega
  | pop nowMs generation output =>
    have hshed := self.shed_count (Item.stale nowMs generation)
    rw [call, pop]
    rcases (self.shed (Item.stale nowMs generation)).takeFirst_cases output with
      h | h | ⟨length, rest, hne, h⟩
    · rw [h]
      simp [accepted, returned, cleared]
      omega
    · rw [h]
      simp [accepted, returned, cleared]
      omega
    · obtain ⟨hlength, hdropped⟩ := retire_count hne false
      rw [if_neg Bool.false_ne_true] at hdropped
      rw [h]
      simp [accepted, returned, cleared]
      omega
  | clear =>
    simp [call, clear, accepted, returned, cleared]
    omega

/-- Every accepted frame was returned, dropped or cleared, or still waits. -/
theorem balanced (calls : List Call) :
    accepted (Machine.output call empty calls) =
      returned (Machine.output call empty calls) + cleared (Machine.output call empty calls) +
        ((Machine.run call empty calls).dropped + (Machine.run call empty calls).items.length) := by
  refine Machine.run_history call (fun _ self outcomes => accepted outcomes =
    returned outcomes + cleared outcomes + (self.dropped + self.items.length)) rfl ?_ calls
  intro _ self outcomes c h
  have hcall := self.call_count c
  show accepted (outcomes ++ _) = returned (outcomes ++ _) + cleared (outcomes ++ _) + _
  rw [accepted_append, returned_append, cleared_append]
  omega

/-- A stale first item is dropped. -/
theorem pop_stale {self : Backlog} {item : Item} {rest : List Item} {nowMs : UInt64}
    {generation : UInt32} (hitems : self.items = item :: rest)
    (hstale : item.stale nowMs generation = true) (output : List UInt8) :
    self.pop nowMs generation output = (self.retire true).pop nowMs generation output := by
  have hshed : self.shed (Item.stale nowMs generation) =
      (self.retire true).shed (Item.stale nowMs generation) := by
    ext1
    · show self.items.dropWhile _ = self.items.tail.dropWhile _
      rw [hitems, List.dropWhile_cons_of_pos hstale, List.tail_cons]
    · show self.dropped + (self.items.takeWhile _).length =
        self.dropped + 1 + (self.items.tail.takeWhile _).length
      rw [hitems, List.takeWhile_cons_of_pos hstale, List.tail_cons, List.length_cons]
      omega
  rw [pop, hshed, pop]

/-- Where the first item is not stale nothing is dropped. -/
theorem shed_fresh {self : Backlog} {p : Item → Bool}
    (h : ∀ item ∈ self.items.head?, ¬ p item = true) : self.shed p = self := by
  cases hitems : self.items with
  | nil =>
    ext1
    · show self.items.dropWhile p = self.items
      rw [hitems]
      rfl
    · show self.dropped + (self.items.takeWhile p).length = self.dropped
      rw [hitems]
      rfl
  | cons item rest =>
    have hfresh := h item (by rw [hitems]; rfl)
    ext1
    · show self.items.dropWhile p = self.items
      rw [hitems, List.dropWhile_cons_of_neg hfresh]
    · show self.dropped + (self.items.takeWhile p).length = self.dropped
      rw [hitems, List.takeWhile_cons_of_neg hfresh]
      rfl

end Backlog

/-! ## The queue follows the backlog -/

/-- The frame in a slot. -/
def Slot.item (slot : Slot) : Item where
  bytes := slot.bytes.toList.take slot.length
  generation := slot.generation
  expires := slot.expires

theorem Slot.item_length (slot : Slot) : slot.item.bytes.length = slot.length := by
  show (slot.bytes.toList.take slot.length).length = slot.length
  rw [List.length_take, Vector.length_toList]
  exact Nat.min_eq_left slot.fits

theorem Slot.store_item (slot : Slot) {bytes : List UInt8} (generation : UInt32)
    (expiresMs : UInt64) (h : bytes.length ≤ MAX_FRAME_BYTES) :
    ∃ stored, slot.store bytes generation expiresMs = some stored ∧
      stored.item = { bytes, generation, expires := expiresMs } := by
  refine ⟨_, dif_pos h, ?_⟩
  simp [Slot.item]

/-- The frames in the slots. -/
def MediaQueue.frames (self : MediaQueue) : List Item := self.slots.toList.map Slot.item

structure Refines (queue : MediaQueue) (backlog : Backlog) : Prop where
  ring : Ring.Holds queue.frames queue.head backlog.items
  length : queue.length = backlog.items.length
  dropped : queue.dropped.toNat = min backlog.dropped (UInt64.size - 1)

theorem frames_length (queue : MediaQueue) : queue.frames.length = CAPACITY := by
  unfold MediaQueue.frames
  rw [List.length_map, Vector.length_toList]

theorem frames_get {queue : MediaQueue} {i : Nat} (h : i < CAPACITY) :
    queue.frames[i]? = some (queue.slots[i]).item := by
  unfold MediaQueue.frames
  simp [h]

theorem frames_set {slots : Vector Slot CAPACITY} {i : Nat} (slot : Slot) (h : i < CAPACITY) :
    (slots.set i slot h).toList.map Slot.item = (slots.toList.map Slot.item).set i slot.item := by
  rw [Vector.toList_set, List.map_set]

theorem saturatingAdd_one (n : UInt64) (k : Nat) (h : n.toNat = min k (UInt64.size - 1)) :
    (saturatingAdd n 1).toNat = min (k + 1) (UInt64.size - 1) := by
  have hone : (1 : UInt64).toNat = 1 := rfl
  have hsize : UInt64.size = 2 ^ 64 := rfl
  unfold saturatingAdd
  rw [hone]
  split
  · rw [UInt64.toNat_add, hone, Nat.mod_eq_of_lt (by omega)]
    omega
  · have hmax : (UInt64.ofNat (UInt64.size - 1)).toNat = UInt64.size - 1 := rfl
    rw [hmax]
    omega

namespace Refines

variable {queue : MediaQueue} {backlog : Backlog}

theorem head_lt (h : Refines queue backlog) : queue.head < CAPACITY := by
  have := h.ring.inside
  rwa [frames_length] at this

theorem new : Refines .new .empty where
  ring := by
    apply Ring.holds_nil
    rw [frames_length]
    exact Nat.zero_lt_succ _
  length := rfl
  dropped := rfl

theorem clear (h : Refines queue backlog) : Refines queue.clear backlog.clear where
  ring := by
    apply Ring.holds_nil
    rw [frames_length]
    exact Nat.zero_lt_succ _
  length := rfl
  dropped := h.dropped

theorem retire (h : Refines queue backlog) (hne : backlog.items ≠ []) (dropped : Bool) :
    ∃ next, queue.retire dropped = some next ∧ Refines next (backlog.retire dropped) := by
  obtain ⟨item, rest, hitems⟩ := List.exists_cons_of_ne_nil hne
  have hlength : queue.length = rest.length + 1 := by
    rw [h.length, hitems, List.length_cons]
  have hinside : queue.head < CAPACITY ∧ 1 ≤ queue.length := ⟨h.head_lt, by omega⟩
  refine ⟨_, dif_pos hinside, ?_, ?_, ?_⟩
  · have hring := h.ring
    rw [hitems] at hring
    have hretire := hring.retire Slot.EMPTY.item
    unfold Ring.place at hretire
    rw [frames_length] at hretire
    unfold MediaQueue.frames
    show Ring.Holds (List.map Slot.item (Vector.toList (queue.slots.set _ _ hinside.1)))
      ((queue.head + 1) % CAPACITY) backlog.items.tail
    rw [frames_set _ hinside.1, hitems]
    exact hretire
  · show queue.length - 1 = backlog.items.tail.length
    rw [hitems, List.tail_cons]
    omega
  · cases dropped with
    | false => exact h.dropped
    | true => exact saturatingAdd_one _ _ h.dropped

/-- A frame goes into the slot behind the last. -/
theorem store (h : Refines queue backlog) (hroom : backlog.items.length < CAPACITY) {slot : Slot}
    {item : Item} (hslot : slot.item = item)
    (hplace : (queue.head + queue.length) % CAPACITY < CAPACITY) {next : Backlog}
    (hitems : next.items = backlog.items ++ [item]) (hdropped : next.dropped = backlog.dropped) :
    Refines { queue with
      slots := queue.slots.set ((queue.head + queue.length) % CAPACITY) slot hplace
      length := queue.length + 1 } next where
  ring := by
    have hpush := h.ring.push (by rw [frames_length]; exact hroom) item
    unfold Ring.place at hpush
    rw [frames_length, ← h.length, ← hitems] at hpush
    unfold MediaQueue.frames
    rw [frames_set _ hplace, hslot]
    exact hpush
  length := by
    rw [hitems, List.length_append]
    exact congrArg (· + 1) h.length
  dropped := by
    rw [hdropped]
    exact h.dropped

theorem first (h : Refines queue backlog) {item : Item} {rest : List Item}
    (hitems : backlog.items = item :: rest) (hhead : queue.head < CAPACITY) :
    (queue.slots[queue.head]).item = item := by
  have hring := h.ring
  rw [hitems] at hring
  have hfirst := hring.first
  rw [frames_get hhead] at hfirst
  exact Option.some.inj hfirst

theorem makeRoom (h : Refines queue backlog) :
    ∃ roomy, (if queue.length = CAPACITY then queue.retire true else some queue) = some roomy ∧
      Refines roomy backlog.makeRoom := by
  unfold Backlog.makeRoom
  rw [h.length]
  split
  · rename_i hfull
    apply h.retire
    intro hnil
    rw [hnil] at hfull
    cases hfull
  · exact ⟨queue, rfl, h⟩

end Refines

variable {queue : MediaQueue} {backlog : Backlog}

theorem push_refines (h : Refines queue backlog) (bytes : List UInt8) (generation : UInt32)
    (nowMs expiresMs : UInt64) :
    ∃ next, queue.push bytes generation nowMs expiresMs =
        some ((backlog.push bytes generation nowMs expiresMs).1, next) ∧
      Refines next (backlog.push bytes generation nowMs expiresMs).2 := by
  unfold MediaQueue.push Backlog.push
  split
  · exact ⟨queue, rfl, h⟩
  split
  · exact ⟨queue, rfl, h⟩
  rename_i hfits
  split
  · exact ⟨queue, rfl, h⟩
  obtain ⟨roomy, hroomy, hrefines⟩ := h.makeRoom
  have hplace : (roomy.head + roomy.length) % CAPACITY < CAPACITY :=
    Nat.mod_lt _ (Nat.zero_lt_succ _)
  obtain ⟨stored, hstored, hitem⟩ :=
    (roomy.slots[(roomy.head + roomy.length) % CAPACITY]).store_item generation expiresMs
      (Nat.not_lt.1 hfits)
  refine ⟨_, ?_, hrefines.store backlog.makeRoom_length hitem hplace rfl rfl⟩
  rw [hroomy]
  show dite _ _ _ = _
  rw [dif_pos hplace, hstored]
  rfl

/-- Nothing is copied but the frame. -/
theorem copyOut_eq {slot : Slot} {output : List UInt8} (h : ¬ output.length < slot.length) :
    MediaQueue.copyOut slot output =
      some (slot.item.bytes ++ output.drop slot.item.bytes.length) := by
  rw [Slot.item_length]
  exact if_pos (Nat.not_lt.1 h)

theorem waits (h : Refines queue backlog) {item : Item} {rest : List Item}
    (hitems : backlog.items = item :: rest) : backlog.items ≠ [] ∧ queue.length ≠ 0 := by
  have hne : backlog.items ≠ [] := by
    rw [hitems]
    exact List.cons_ne_nil _ _
  rw [h.length]
  exact ⟨hne, mt List.length_eq_zero_iff.1 hne⟩

/-- The test of the loop is whether the first item is stale. -/
theorem stale_front (h : Refines queue backlog) {item : Item} {rest : List Item}
    (hitems : backlog.items = item :: rest) (nowMs : UInt64) (generation : UInt32)
    (hhead : queue.head < CAPACITY) :
    ((queue.slots[queue.head]).expires ≤ nowMs ∨
      (queue.slots[queue.head]).generation ≠ generation) ↔
        item.stale nowMs generation = true := by
  have hslot := h.first hitems hhead
  rw [← hslot]
  exact decide_eq_true_iff.symm

theorem pop_refines_nil (h : Refines queue backlog) (hitems : backlog.items = [])
    (nowMs : UInt64) (generation : UInt32) (output : List UInt8) :
    queue.pop nowMs generation output =
        some ((backlog.pop nowMs generation output).1, queue,
          (backlog.pop nowMs generation output).2.2) ∧
      (backlog.pop nowMs generation output).2.1 = backlog := by
  have hshed : backlog.shed (Item.stale nowMs generation) = backlog :=
    Backlog.shed_fresh (by rw [hitems]; exact nofun)
  have hpop : backlog.pop nowMs generation output = (.ok none, backlog, output) := by
    rw [Backlog.pop, hshed, Backlog.takeFirst, hitems]
  have hlength : queue.length = 0 := by
    rw [h.length, hitems, List.length_nil]
  rw [hpop, MediaQueue.pop, if_pos hlength]
  exact ⟨rfl, rfl⟩

/-- A first item that is not stale is returned, or it does not fit and stays. -/
theorem pop_refines_fresh (h : Refines queue backlog) {item : Item} {rest : List Item}
    (hitems : backlog.items = item :: rest) (nowMs : UInt64) (generation : UInt32)
    (hfresh : ¬ item.stale nowMs generation = true) (output : List UInt8) :
    ∃ next, queue.pop nowMs generation output =
        some ((backlog.pop nowMs generation output).1, next,
          (backlog.pop nowMs generation output).2.2) ∧
      Refines next (backlog.pop nowMs generation output).2.1 := by
  have hhead := h.head_lt
  have hslot := h.first hitems hhead
  obtain ⟨hne, hwaits⟩ := waits h hitems
  have hshed : backlog.shed (Item.stale nowMs generation) = backlog := by
    apply Backlog.shed_fresh
    intro first hfirst
    rw [hitems] at hfirst
    cases hfirst
    exact hfresh
  have hlength : item.bytes.length = (queue.slots[queue.head]).length := by
    rw [← hslot, Slot.item_length]
  rw [MediaQueue.pop, if_neg hwaits, dif_pos hhead, Backlog.pop, hshed, Backlog.takeFirst, hitems]
  dsimp only
  rw [if_neg (mt (stale_front h hitems nowMs generation hhead).1 hfresh), hlength]
  split
  · exact ⟨queue, rfl, h⟩
  · rename_i hcapacity
    obtain ⟨next, hretire, hnext⟩ := h.retire hne false
    refine ⟨next, ?_, hnext⟩
    rw [copyOut_eq hcapacity, hretire, Slot.item_length, hslot]
    rfl

/-- The loop drops a stale first item and goes on. -/
theorem pop_stale_front (h : Refines queue backlog) {item : Item} {rest : List Item}
    (hitems : backlog.items = item :: rest) {nowMs : UInt64} {generation : UInt32}
    (hstale : item.stale nowMs generation = true) (output : List UInt8) :
    ∃ next, queue.pop nowMs generation output = next.pop nowMs generation output ∧
      Refines next (backlog.retire true) := by
  have hhead := h.head_lt
  obtain ⟨hne, hwaits⟩ := waits h hitems
  obtain ⟨next, hretire, hnext⟩ := h.retire hne true
  refine ⟨next, ?_, hnext⟩
  rw [MediaQueue.pop, if_neg hwaits, dif_pos hhead]
  dsimp only
  rw [if_pos ((stale_front h hitems nowMs generation hhead).2 hstale)]
  split
  · rename_i next' hretire'
    rw [hretire, Option.some.injEq] at hretire'
    rw [hretire']
  · rename_i hretire'
    rw [hretire] at hretire'
    cases hretire'

theorem pop_refines (h : Refines queue backlog) (nowMs : UInt64) (generation : UInt32)
    (output : List UInt8) :
    ∃ next, queue.pop nowMs generation output =
        some ((backlog.pop nowMs generation output).1, next,
          (backlog.pop nowMs generation output).2.2) ∧
      Refines next (backlog.pop nowMs generation output).2.1 := by
  -- on the number of items, which falls with every stale one that is dropped
  generalize hn : backlog.items.length = n
  induction n generalizing queue backlog with
  | zero =>
    have hitems : backlog.items = [] := List.length_eq_zero_iff.1 hn
    obtain ⟨hpop, hsame⟩ := pop_refines_nil h hitems nowMs generation output
    rw [hsame]
    exact ⟨queue, hpop, h⟩
  | succ n ih =>
    obtain ⟨item, rest, hitems⟩ : ∃ item rest, backlog.items = item :: rest :=
      List.exists_cons_of_length_eq_add_one hn
    by_cases hstale : item.stale nowMs generation = true
    · obtain ⟨next, hpop, hnext⟩ := pop_stale_front h hitems hstale output
      have hrest : (backlog.retire true).items.length = n := by
        show backlog.items.tail.length = n
        rw [List.length_tail, hn, Nat.add_sub_cancel]
      rw [hpop, Backlog.pop_stale hitems hstale]
      exact ih hnext hrest
    · exact pop_refines_fresh h hitems nowMs generation hstale output

theorem call_refines (queue : MediaQueue) (backlog : Backlog) (c : Call)
    (h : Refines queue backlog) :
    ∃ next, queue.call c = some (next, (backlog.call c).2) ∧ Refines next (backlog.call c).1 := by
  cases c with
  | push bytes generation nowMs expiresMs =>
    obtain ⟨next, hpush, hnext⟩ := push_refines h bytes generation nowMs expiresMs
    refine ⟨next, ?_, hnext⟩
    rw [MediaQueue.call, hpush]
    rfl
  | pop nowMs generation output =>
    obtain ⟨next, hpop, hnext⟩ := pop_refines h nowMs generation output
    refine ⟨next, ?_, hnext⟩
    rw [MediaQueue.call, hpop]
    rfl
  | clear =>
    refine ⟨queue.clear, ?_, h.clear⟩
    show some (queue.clear, [Outcome.cleared queue.length]) = _
    rw [h.length]
    rfl

/-- **The media queue is a bounded list.** In every run of calls no index, slice or subtraction
leaves its range, each call has the outcome that it has on the list of at most three items, the
slots hold the list's items, and every accepted frame was returned, dropped or cleared or still
waits. The counter `dropped` stops at its largest value. -/
theorem mediaQueue_refines_list (calls : List Call) :
    ∃ queue, Machine.runs? MediaQueue.call .new calls =
        some (queue, Machine.output Backlog.call .empty calls) ∧
      Refines queue (Machine.run Backlog.call .empty calls) ∧
      queue.head < 3 ∧ queue.len ≤ 3 ∧
      accepted (Machine.output Backlog.call .empty calls) =
        returned (Machine.output Backlog.call .empty calls) +
          cleared (Machine.output Backlog.call .empty calls) +
          ((Machine.run Backlog.call .empty calls).dropped + queue.len) := by
  obtain ⟨queue, hrun, h⟩ := Machine.runs?_follows call_refines Refines.new calls
  have hlen : queue.len = (Machine.run Backlog.call .empty calls).items.length := h.length
  have hbounded := (Machine.run Backlog.call .empty calls).bounded
  refine ⟨queue, hrun, h, h.head_lt, ?_, ?_⟩
  · rw [hlen]
    exact hbounded
  · rw [hlen]
    exact Backlog.balanced calls

end Lxst.Embedded.Queue
