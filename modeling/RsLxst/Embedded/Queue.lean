import RsLxst.Embedded.Session
import RsLxst.Embedded.Wire

/-!
# The embedded media queue

`lxst-embedded/src/queue.rs`: a ring of three slots for encoded frames. A method has no value where
an index, a slice or a subtraction would leave its range; otherwise it returns its result with the
queue after it, `pop` with the caller's output buffer too. `MediaQueue.call` is one call of any
operation.
-/

set_option autoImplicit false

namespace Lxst.Embedded.Queue

open Lxst.Embedded.Wire (MAX_FRAME_BYTES)

def CAPACITY : Nat := 3

inductive QueueError
  | emptyPayload
  | payloadTooLarge
  | expired
  | outputCapacity
  deriving DecidableEq, Repr

structure Slot where
  bytes : Vector UInt8 MAX_FRAME_BYTES
  length : Nat
  expires : UInt64
  generation : UInt32
  fits : length ≤ MAX_FRAME_BYTES

namespace Slot

/-- `Slot::EMPTY` -/
def EMPTY : Slot where
  bytes := .replicate MAX_FRAME_BYTES 0
  length := 0
  expires := 0
  generation := 0
  fits := Nat.zero_le _

/-- What `push` writes into a slot; the bytes behind a shorter frame stay. -/
def store (self : Slot) (bytes : List UInt8) (generation : UInt32) (expiresMs : UInt64) :
    Option Slot :=
  if h : bytes.length ≤ MAX_FRAME_BYTES then
    some {
      bytes := ⟨(bytes ++ self.bytes.toList.drop bytes.length).toArray, by simp; omega⟩
      length := bytes.length
      expires := expiresMs
      generation
      fits := h }
  else none

end Slot

structure MediaQueue where
  slots : Vector Slot CAPACITY
  head : Nat
  length : Nat
  dropped : UInt64

namespace MediaQueue

def new : MediaQueue where
  slots := .replicate CAPACITY Slot.EMPTY
  head := 0
  length := 0
  dropped := 0

def len (self : MediaQueue) : Nat := self.length

def clear (self : MediaQueue) : MediaQueue :=
  { self with slots := .replicate CAPACITY Slot.EMPTY, head := 0, length := 0 }

def retire (self : MediaQueue) (dropped : Bool) : Option MediaQueue :=
  if h : self.head < CAPACITY ∧ 1 ≤ self.length then
    some {
      slots := self.slots.set self.head Slot.EMPTY h.1
      head := (self.head + 1) % CAPACITY
      length := self.length - 1
      dropped := if dropped then saturatingAdd self.dropped 1 else self.dropped }
  else none

theorem retire_length {self next : MediaQueue} {dropped : Bool}
    (h : self.retire dropped = some next) : next.length < self.length := by
  unfold retire at h
  split at h
  · cases h
    show self.length - 1 < self.length
    omega
  · cases h

def push (self : MediaQueue) (bytes : List UInt8) (generation : UInt32)
    (nowMs expiresMs : UInt64) : Option (Except QueueError Unit × MediaQueue) :=
  if bytes.isEmpty then some (.error .emptyPayload, self)
  else if bytes.length > MAX_FRAME_BYTES then some (.error .payloadTooLarge, self)
  else if expiresMs ≤ nowMs then some (.error .expired, self)
  else do
    let self ← (if self.length = CAPACITY then self.retire true else some self)
    let place := (self.head + self.length) % CAPACITY
    if h : place < CAPACITY then
      let slot ← (self.slots[place]).store bytes generation expiresMs
      some (.ok (), {
        self with slots := self.slots.set place slot h, length := self.length + 1 })
    else none

/-- `output[..length].copy_from_slice(&slot.bytes[..length])` -/
def copyOut (slot : Slot) (output : List UInt8) : Option (List UInt8) :=
  if slot.length ≤ output.length then
    some (slot.bytes.toList.take slot.length ++ output.drop slot.length)
  else none

def pop (self : MediaQueue) (nowMs : UInt64) (generation : UInt32) (output : List UInt8) :
    Option (Except QueueError (Option Nat) × MediaQueue × List UInt8) :=
  if self.length = 0 then some (.ok none, self, output)
  else if hhead : self.head < CAPACITY then
    let slot := self.slots[self.head]
    if slot.expires ≤ nowMs ∨ slot.generation ≠ generation then
      match h : self.retire true with
      | some next => next.pop nowMs generation output
      | none => none
    else if output.length < slot.length then some (.error .outputCapacity, self, output)
    else do
      let output ← copyOut slot output
      let next ← self.retire false
      some (.ok (some slot.length), next, output)
  else none
termination_by self.length
decreasing_by exact retire_length h

end MediaQueue

/-! ## Calls -/

inductive Call
  | push (bytes : List UInt8) (generation : UInt32) (nowMs expiresMs : UInt64)
  | pop (nowMs : UInt64) (generation : UInt32) (output : List UInt8)
  | clear

/-- What the caller gets back; of `clear`, the `len()` before it. -/
inductive Outcome
  | pushed (result : Except QueueError Unit)
  | popped (result : Except QueueError (Option Nat)) (output : List UInt8)
  | cleared (length : Nat)

def MediaQueue.call (self : MediaQueue) : Call → Option (MediaQueue × List Outcome)
  | .push bytes generation nowMs expiresMs => do
    let (result, self) ← self.push bytes generation nowMs expiresMs
    some (self, [.pushed result])
  | .pop nowMs generation output => do
    let (result, self, output) ← self.pop nowMs generation output
    some (self, [.popped result output])
  | .clear => some (self.clear, [.cleared self.len])

end Lxst.Embedded.Queue
