import RsLxst.Core.Wire

/-!
# Batches of frames and the jitter buffer

`lxst-core/src/stream.rs`: `FramePacketizer` and `JitterBuffer`. Both constructors refuse zero, so
the structures carry that their batch size and capacity are positive. A deque is a list with its
front first, a `usize` a `Nat`; the counters are `u64`s that wrap.
-/

set_option autoImplicit false

namespace Lxst

inductive StreamError
  | invalidBatchSize
  | invalidJitterCapacity
  deriving DecidableEq, Repr

def StreamError.toText : StreamError → String
  | .invalidBatchSize => "frame packetizer batch size must be greater than zero"
  | .invalidJitterCapacity => "jitter buffer capacity must be greater than zero"

/-! ## The packetizer -/

/-- `LxstPacket::frame` -/
def LxstPacket.frame (frame : Frame) : LxstPacket := { signals := [], frames := [frame] }

structure FramePacketizer where
  framesPerPacket : Nat
  positive : 0 < framesPerPacket
  deriving DecidableEq, Repr

namespace FramePacketizer

def new (framesPerPacket : Nat) : Except StreamError FramePacketizer :=
  if h : framesPerPacket = 0 then .error .invalidBatchSize
  else .ok { framesPerPacket, positive := Nat.pos_of_ne_zero h }

end FramePacketizer

/-- The variables of the loop of `packetize`. -/
structure Packing where
  packets : List LxstPacket
  batch : List Frame

namespace FramePacketizer

end FramePacketizer

/-! ## The jitter buffer -/

inductive DropPolicy
  | dropNewest
  | dropOldest
  deriving DecidableEq, Repr

structure JitterStats where
  pushed : UInt64
  popped : UInt64
  droppedOldest : UInt64
  droppedNewest : UInt64
  underruns : UInt64
  deriving DecidableEq, Repr

def JitterStats.default : JitterStats :=
  { pushed := 0, popped := 0, droppedOldest := 0, droppedNewest := 0, underruns := 0 }

inductive JitterPush (α : Type)
  | accepted
  | droppedIncoming (item : α)
  | droppedOldest (item : α)
  deriving DecidableEq, Repr

structure JitterBuffer (α : Type) where
  capacity : Nat
  dropPolicy : DropPolicy
  queue : List α
  stats : JitterStats
  positive : 0 < capacity
  deriving DecidableEq, Repr

namespace JitterBuffer

variable {α : Type}

def new (capacity : Nat) (dropPolicy : DropPolicy) : Except StreamError (JitterBuffer α) :=
  if h : capacity = 0 then .error .invalidJitterCapacity
  else
    .ok { capacity, dropPolicy, queue := [], stats := .default, positive := Nat.pos_of_ne_zero h }

def len (self : JitterBuffer α) : Nat := self.queue.length

/-- What the `expect` of `push` asks for. -/
theorem queue_ne_nil {self : JitterBuffer α} (h : ¬ self.queue.length < self.capacity) :
    self.queue ≠ [] := by
  intro hnil
  apply h
  rw [hnil]
  exact self.positive

def push (self : JitterBuffer α) (item : α) : JitterPush α × JitterBuffer α :=
  let stats := { self.stats with pushed := self.stats.pushed + 1 }
  if h : self.queue.length < self.capacity then
    (.accepted, { self with queue := self.queue ++ [item], stats })
  else
    match self.dropPolicy with
    | .dropNewest =>
      let stats := { stats with droppedNewest := stats.droppedNewest + 1 }
      (.droppedIncoming item, { self with stats })
    | .dropOldest =>
      let stats := { stats with droppedOldest := stats.droppedOldest + 1 }
      let dropped := self.queue.head (queue_ne_nil h)
      (.droppedOldest dropped, { self with queue := self.queue.tail ++ [item], stats })

def pop (self : JitterBuffer α) : Option α × JitterBuffer α :=
  match self.queue with
  | [] => (none, { self with stats.underruns := self.stats.underruns + 1 })
  | item :: queue => (some item, { self with queue, stats.popped := self.stats.popped + 1 })

def clear (self : JitterBuffer α) : JitterBuffer α := { self with queue := [] }

end JitterBuffer

end Lxst
