import RsLxst.Core.Wire

/-!
# The embedded packet decoder

`lxst-embedded/src/wire.rs`: the bounded decoder that borrows from the packet. A method of
`Reader` is a state transformer over the reader; numbers read from at most eight bytes are
`Nat`s, and `Target.usizeMax` is the largest `usize` of the target, which Rust guarantees to hold
sixteen bits. The packet's fixed arrays with their counts are lists.
-/

set_option autoImplicit false

namespace Lxst.Embedded.Wire

open Parsing (P times)

def MAX_PACKET_BYTES : Nat := 512
def MAX_FRAME_BYTES : Nat := 256
def MAX_SIGNALS : Nat := 8
def MAX_FRAMES : Nat := 4
def MAX_FIELDS : Nat := 16
def MAX_DEPTH : Nat := 8

inductive Error
  | truncated
  | shape
  | limit
  | duplicateField
  | trailingData
  | outputCapacity
  | unknownCodec (id : UInt8)
  | unknownCodec2Mode (header : UInt8)
  | emptyFrame
  | nonTransmittableCodec (codec : CodecKind)
  deriving DecidableEq, Repr

/-- The machine the crate is built for. -/
structure Target where
  usizeMax : Nat
  sixteenBits : 65535 ≤ usizeMax

structure Reader where
  bytes : List UInt8
  offset : Nat
  deriving DecidableEq, Repr

abbrev Read (α : Type) := P Reader Error α

variable (target : Target)

/-- `usize::try_from` -/
def tryUsize (value : Nat) : Read Nat :=
  if value > target.usizeMax then throw .limit else pure value

namespace Reader

def take (count : Nat) : Read (List UInt8) := fun self =>
  let stop := self.offset + count
  if stop > target.usizeMax then .error .limit
  else if self.offset ≤ stop ∧ stop ≤ self.bytes.length then
    .ok ((self.bytes.drop self.offset).take count, { self with offset := stop })
  else .error .truncated

def byte : Read UInt8 := do
  let value ← take target 1
  pure (value.headD 0)

def number (size : Nat) : Read Nat := do
  let bytes ← take target size
  pure (bytes.foldl (fun value byte => value <<< 8 ||| byte.toNat) 0)

def uint : Read Nat := do
  let tag ← byte target
  if tag ≤ 127 then pure tag.toNat
  else if tag = 0xcc then number target 1
  else if tag = 0xcd then number target 2
  else if tag = 0xce then number target 4
  else if tag = 0xcf then number target 8
  else if 0xd0 ≤ tag ∧ tag ≤ 0xd3 then do
    let size := 1 <<< (tag - 0xd0).toNat
    let value ← number target size
    if value >>> (size * 8 - 1) ≠ 0 then throw .shape else pure value
  else throw .shape

def mapLen : Read Nat := do
  let tag ← byte target
  if 0x80 ≤ tag ∧ tag ≤ 0x8f then pure (tag &&& 15).toNat
  else if tag = 0xde then number target 2
  else if tag = 0xdf then do
    let count ← number target 4
    tryUsize target count
  else throw .shape

/-- The byte at the cursor, not consumed. -/
def peek : Read UInt8 := fun self =>
  match self.bytes[self.offset]? with
  | some tag => .ok (tag, self)
  | none => .error .truncated

/-- `self.offset += 1` -/
def step : Read Unit := fun self => .ok ((), { self with offset := self.offset + 1 })

def arrayLen : Read (Option Nat) := do
  let tag ← peek
  if 0x90 ≤ tag ∧ tag ≤ 0x9f then do
    step
    pure (some (tag &&& 15).toNat)
  else if tag = 0xdc then do
    step
    let count ← number target 2
    pure (some count)
  else if tag = 0xdd then do
    step
    let count ← number target 4
    let count ← tryUsize target count
    pure (some count)
  else pure none

def binary : Read (List UInt8) := do
  let tag ← byte target
  let count ←
    if tag = 0xc4 then number target 1
    else if tag = 0xc5 then number target 2
    else if tag = 0xc6 then number target 4
    else throw .shape
  let count ← tryUsize target count
  take target count

/-- The `(bytes, children)` of `skip`'s match on the tag. -/
def skipShape (tag : UInt8) : Read (Nat × Nat) :=
  if tag ≤ 0x7f ∨ 0xe0 ≤ tag ∨ tag = 0xc0 ∨ tag = 0xc2 ∨ tag = 0xc3 then pure (0, 0)
  else if 0x80 ≤ tag ∧ tag ≤ 0x8f then pure (0, (tag &&& 15).toNat * 2)
  else if 0x90 ≤ tag ∧ tag ≤ 0x9f then pure (0, (tag &&& 15).toNat)
  else if 0xa0 ≤ tag ∧ tag ≤ 0xbf then pure ((tag &&& 31).toNat, 0)
  else if tag = 0xcc ∨ tag = 0xd0 then pure (1, 0)
  else if tag = 0xcd ∨ tag = 0xd1 then pure (2, 0)
  else if tag = 0xce ∨ tag = 0xd2 ∨ tag = 0xca then pure (4, 0)
  else if tag = 0xcf ∨ tag = 0xd3 ∨ tag = 0xcb then pure (8, 0)
  else if tag = 0xc4 ∨ tag = 0xd9 then do
    let count ← number target 1
    pure (count, 0)
  else if tag = 0xc5 ∨ tag = 0xda then do
    let count ← number target 2
    pure (count, 0)
  else if tag = 0xc6 ∨ tag = 0xdb then do
    let count ← number target 4
    let count ← tryUsize target count
    pure (count, 0)
  else if 0xdc ≤ tag ∧ tag ≤ 0xdf then do
    let count ← number target (if tag &&& 1 = 0 then 2 else 4)
    let count ← tryUsize target count
    let children ← tryUsize target (count * if tag ≥ 0xde then 2 else 1)
    pure (0, children)
  else if 0xd4 ≤ tag ∧ tag ≤ 0xd8 then pure (1 + 1 <<< (tag - 0xd4).toNat, 0)
  else if 0xc7 ≤ tag ∧ tag ≤ 0xc9 then do
    let count ← number target (1 <<< (tag - 0xc7).toNat)
    let count ← tryUsize target count
    let bytes ← tryUsize target (count + 1)
    pure (bytes, 0)
  else throw .shape

/-- `skip` at depth `MAX_DEPTH + 1 - levels`. -/
def skip : Nat → Read Unit
  | 0 => throw .limit
  | levels + 1 => do
    let tag ← byte target
    let (bytes, children) ← skipShape target tag
    if children > MAX_PACKET_BYTES then throw .limit
    else do
      let _ ← take target bytes
      let _ ← times (skip levels) children
      pure ()

end Reader

open Reader

def readSignal : Read Signal := do
  let value ← uint target
  if value ≥ 0x100000000 then throw .shape
  else pure (Signal.fromWire (UInt32.ofNat value))

def readSignals : Read (List Signal) := do
  let count ← arrayLen target
  if count.getD 1 > MAX_SIGNALS then throw .limit
  else times (readSignal target) (count.getD 1)

def readFrame : Read Frame := do
  let bytes ← binary target
  match bytes with
  | [] => throw .emptyFrame
  | codec :: payload =>
    if bytes.length > MAX_FRAME_BYTES then throw .limit
    else
      match CodecKind.fromWire Error.unknownCodec codec with
      | .error e => throw e
      | .ok codec =>
        if !codec.isTransmittable then throw (.nonTransmittableCodec codec)
        else pure { codec, payload }

def readFrames : Read (List Frame) := do
  let count ← arrayLen target
  if count.getD 1 > MAX_FRAMES then throw .limit
  else times (readFrame target) (count.getD 1)

structure Packet where
  signals : List Signal
  frames : List Frame
  deriving DecidableEq, Repr

namespace Packet

/-- One field; `seen` has bit 0 for signals and bit 1 for frames. -/
def readField (packet : Packet) (seen : Nat) : Read (Packet × Nat) := do
  let key ← uint target
  if key > 255 then throw .shape
  else if key = 0 then
    if seen &&& 1 ≠ 0 then throw .duplicateField
    else do
      let signals ← readSignals target
      pure ({ packet with signals }, seen ||| 1)
  else if key = 1 then
    if seen &&& 2 ≠ 0 then throw .duplicateField
    else do
      let frames ← readFrames target
      pure ({ packet with frames }, seen ||| 2)
  else do
    skip target (MAX_DEPTH + 1)
    pure (packet, seen)

def readFields : Nat → Packet → Nat → Read Packet
  | 0, packet, _ => pure packet
  | fields + 1, packet, seen => do
    let (packet, seen) ← packet.readField target seen
    readFields fields packet seen

/-- The packet that the reader of `decode` yields. -/
def readPacket : Read Packet := do
  let fields ← mapLen target
  if fields > MAX_FIELDS then throw .limit
  else readFields target fields { signals := [], frames := [] } 0

def decode (bytes : List UInt8) : Except Error Packet :=
  if bytes.length > MAX_PACKET_BYTES then .error .limit
  else do
    let (packet, reader) ← readPacket target { bytes, offset := 0 }
    if reader.offset ≠ bytes.length then .error .trailingData else .ok packet

end Packet

end Lxst.Embedded.Wire
