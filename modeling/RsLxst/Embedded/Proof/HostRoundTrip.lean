import Mathlib.Algebra.Group.Nat.Defs
import RsLxst.Embedded.Proof.RoundTrip

/-!
# The host round trip

`LxstPacket::decode` reads back what `LxstPacket::encode` has written, with anything behind it: the
same frames, and each signal as its wire value is read. Both have no limits of their own; of the
MessagePack library it is assumed that what it writes is read back as that one value
(`RoundTrips`), and for the failures of `encode` that writing to a vector does not fail.
-/

set_option autoImplicit false

namespace Lxst

open MsgPack (Value)

/-- What the library writes, it reads back: that value only, whatever follows. -/
def RoundTrips (readValue : List UInt8 → Except String Value)
    (writeValue : Value → Except String (List UInt8)) : Prop :=
  ∀ v, MsgPack.Fits v → MsgPack.Within READ_DEPTH v →
    ∃ bytes, writeValue v = .ok bytes ∧ ∀ rest, readValue (bytes ++ rest) = .ok v

/-- The library writes to a vector, which takes everything. -/
def WritesToVector (writeValue : Value → Except String (List UInt8)) : Prop :=
  ∀ v, ∃ bytes, writeValue v = .ok bytes

/-- A reader and a writer of MessagePack are inverse. -/
theorem roundTrips_of_msgPack {readValue : List UInt8 → Except String Value}
    {writeValue : Value → Except String (List UInt8)} (hread : ReadsMsgPack readValue)
    (hwrite : WritesShortest writeValue) : RoundTrips readValue writeValue :=
  fun v hfits hwithin =>
    ⟨_, hwrite v hfits, fun rest => hread v _ rest (MsgPack.encodes_write v hfits) hwithin⟩

namespace Embedded.Wire

/-! ## The encoder -/

theorem toWireBytes_isOk_iff (frame : Frame) :
    (∃ bytes, frame.toWireBytes = .ok bytes) ↔ frame.codec.isTransmittable = true := by
  refine ⟨fun ⟨bytes, h⟩ => ?_, fun h => ⟨_, toWireBytes_eq h⟩⟩
  unfold Frame.toWireBytes at h
  split at h
  · cases h
  · simpa using ‹¬ (!frame.codec.isTransmittable) = true›

theorem transmittable_of_value {frame : Frame} {value : Value}
    (h : Value.binary <$> frame.toWireBytes = .ok value) : frame.codec.isTransmittable = true := by
  rw [← toWireBytes_isOk_iff]
  cases hbytes : frame.toWireBytes with
  | ok bytes => exact ⟨bytes, rfl⟩
  | error error =>
    rw [hbytes] at h
    cases h

theorem isTransmittable_iff (codec : CodecKind) : codec.isTransmittable = true ↔ codec ≠ .null := by
  cases codec <;> simp [CodecKind.isTransmittable]

/-- A packet has a value exactly when it has no null frame. -/
theorem toValue_isOk_iff (signals : List Signal) (frames : List Frame) :
    (∃ value, LxstPacket.toValue { signals, frames } = .ok value) ↔
      ∀ frame ∈ frames, frame.codec.isTransmittable = true := by
  refine ⟨fun ⟨value, h⟩ => ?_, fun h => ⟨_, toValue_eq h⟩⟩
  match frames, h with
  | [], _ => nofun
  | [frame], h =>
    unfold LxstPacket.toValue at h
    dsimp only at h
    rw [List.forall_mem_singleton, ← toWireBytes_isOk_iff]
    cases hbytes : frame.toWireBytes with
    | ok bytes => exact ⟨bytes, rfl⟩
    | error error =>
      rw [hbytes] at h
      cases h
  | first :: second :: rest, h =>
    unfold LxstPacket.toValue at h
    dsimp only at h
    cases hvalues : (first :: second :: rest).mapM fun frame => Value.binary <$> frame.toWireBytes with
    | error error =>
      rw [hvalues] at h
      cases h
    | ok values =>
      have hcodecs := (mapM_eq_ok.1 hvalues).imp fun frame value hvalue =>
        And.intro (transmittable_of_value hvalue) hvalue
      exact ((List.forall₂_and_left _ _).1 hcodecs).1

theorem encode_isOk_iff {writeValue : Value → Except String (List UInt8)}
    (hwrite : WritesToVector writeValue) (p : LxstPacket) :
    (∃ bytes, p.encode writeValue = .ok bytes) ↔
      ∀ frame ∈ p.frames, frame.codec.isTransmittable = true := by
  rw [← toValue_isOk_iff p.signals p.frames]
  unfold LxstPacket.encode
  cases p.toValue with
  | error error =>
    constructor
    · rintro ⟨_, ⟨⟩⟩
    · rintro ⟨_, ⟨⟩⟩
  | ok value =>
    obtain ⟨bytes, hbytes⟩ := hwrite value
    refine ⟨fun _ => ⟨value, rfl⟩, fun _ => ⟨bytes, ?_⟩⟩
    dsimp only [bind, Except.bind]
    rw [hbytes]

/-! ## The decoder -/

theorem foldlM_signalEntries (signals : List Signal) :
    (signalEntries signals).foldlM LxstPacket.addField LxstPacket.new =
      .ok { signals := signals.map fun signal => Signal.fromWire signal.wireValue, frames := [] } := by
  cases signals with
  | nil => rfl
  | cons signal signals =>
    have hkey : LxstPacket.fieldKey (.integer 0) = some FIELD_SIGNALLING := by decide
    simp only [signalEntries, List.isEmpty_cons, Bool.false_eq_true, if_false, List.foldlM_cons,
      List.foldlM_nil, LxstPacket.addField, hkey, if_true, parseSignals_map, LxstPacket.new]
    rfl

theorem foldlM_frameEntries {frames : List Frame}
    (h : ∀ frame ∈ frames, frame.codec.isTransmittable = true) (signals : List Signal) :
    (frameEntries frames).foldlM LxstPacket.addField { signals, frames := [] } =
      .ok { signals, frames } := by
  have hfield (v : Value) (hparse : parseFrames v = .ok frames) :
      [(Value.integer 1, v)].foldlM LxstPacket.addField { signals, frames := [] } =
        .ok { signals, frames } := by
    have hkey : LxstPacket.fieldKey (.integer 1) = some FIELD_FRAMES := by decide
    simp only [List.foldlM_cons, List.foldlM_nil, LxstPacket.addField, hkey, hparse]
    rfl
  rcases frames with _ | ⟨frame, _ | ⟨second, rest⟩⟩
  · rfl
  · refine hfield _ ?_
    rw [parseFrames_eq_ok]
    exact .inr ⟨frame, rfl, fromWireBytes_wireId (h frame List.mem_cons_self)⟩
  · refine hfield _ ?_
    rw [parseFrames, mapM_eq_ok, List.forall₂_map_left_iff, List.forall₂_same]
    exact fun frame hframe => fromWireBytes_wireId (h frame hframe)

theorem fromValue_entries (signals : List Signal) {frames : List Frame}
    (h : ∀ frame ∈ frames, frame.codec.isTransmittable = true) :
    LxstPacket.fromValue (.map (entries signals frames)) =
      .ok { signals := signals.map fun signal => Signal.fromWire signal.wireValue, frames } := by
  rw [LxstPacket.fromValue, entries, List.foldlM_append, foldlM_signalEntries]
  exact foldlM_frameEntries h _

theorem within_array {α : Type} {f : α → Value} (h : ∀ a, (f a).children = []) (as : List α) :
    MsgPack.Within 1 (.array (as.map f)) := by
  intro value hvalue
  obtain ⟨a, -, rfl⟩ := List.mem_map.1 hvalue
  exact h a

/-- The packet's map is far from the reader's limit. -/
theorem within_entries (signals : List Signal) (frames : List Frame) :
    MsgPack.Within READ_DEPTH (.map (entries signals frames)) := by
  have hkey (n : Int) : MsgPack.Within 1 (.integer n) := .of_leaf rfl 1
  have hsignals : ∀ entry ∈ signalEntries signals,
      MsgPack.Within 1 entry.1 ∧ MsgPack.Within 1 entry.2 := by
    unfold signalEntries
    split
    · nofun
    · rw [List.forall_mem_singleton]
      exact ⟨hkey 0, within_array (fun _ => rfl) signals⟩
  have hframes : ∀ entry ∈ frameEntries frames,
      MsgPack.Within 1 entry.1 ∧ MsgPack.Within 1 entry.2 := by
    unfold frameEntries
    split
    · nofun
    · rw [List.forall_mem_singleton]
      exact ⟨hkey 1, .of_leaf rfl 1⟩
    · rw [List.forall_mem_singleton]
      exact ⟨hkey 1, within_array (fun _ => rfl) _⟩
  have hdepth : 2 ≤ READ_DEPTH := by decide
  refine MsgPack.Within.mono hdepth fun value hvalue => ?_
  obtain ⟨entry, hentry, hvalue⟩ := List.mem_flatMap.1 hvalue
  have hboth := (List.mem_append.1 hentry).elim (hsignals entry) (hframes entry)
  rcases List.mem_pair.1 hvalue with rfl | rfl
  · exact hboth.1
  · exact hboth.2

/-! ## The round trip -/

/-- **The host round trip.** -/
theorem decode_encode_host {readValue : List UInt8 → Except String Value}
    {writeValue : Value → Except String (List UInt8)} (hround : RoundTrips readValue writeValue)
    (hwrite : WritesToVector writeValue) (p : LxstPacket) :
    ((∀ frame ∈ p.frames, frame.codec.isTransmittable = true) → p.signals.length < 2 ^ 32 →
      p.frames.length < 2 ^ 32 → (∀ frame ∈ p.frames, frame.payload.length + 1 < 2 ^ 32) →
        ∃ bytes, p.encode writeValue = .ok bytes ∧
          ∀ rest, LxstPacket.decode readValue (bytes ++ rest) =
            .ok { signals := p.signals.map fun signal => Signal.fromWire signal.wireValue,
                  frames := p.frames }) ∧
      ((∃ error, p.encode writeValue = .error error) ↔ ∃ frame ∈ p.frames, frame.codec = .null) := by
  constructor
  · intro hcodecs hsignals hframes hbytes
    have hfits := fits_entries hsignals hframes hbytes
    obtain ⟨bytes, hwritten, hread⟩ := hround _ hfits (within_entries p.signals p.frames)
    refine ⟨bytes, ?_, fun rest => ?_⟩
    · unfold LxstPacket.encode
      rw [toValue_eq hcodecs]
      dsimp only [bind, Except.bind]
      rw [hwritten]
    · rw [LxstPacket.decode, hread]
      exact fromValue_entries p.signals hcodecs
  · have hok := encode_isOk_iff hwrite p
    simp only [isTransmittable_iff] at hok
    have hfails : (∃ error, p.encode writeValue = .error error) ↔
        ¬ ∃ bytes, p.encode writeValue = .ok bytes := by
      cases p.encode writeValue <;> simp
    rw [hfails, hok]
    push Not
    rfl

/-- Two frames and a raw value that is the ringing status's, with a byte behind them. -/
theorem decode_encode_host_alias : ∃ bytes,
    LxstPacket.encode (fun v => .ok (MsgPack.write v))
      { signals := [.raw 4], frames := [⟨.opus, [0x2a]⟩, ⟨.codec2, []⟩] } = .ok bytes ∧
    LxstPacket.decode firstValue (bytes ++ [0xff]) =
      .ok { signals := [.status .ringing], frames := [⟨.opus, [0x2a]⟩, ⟨.codec2, []⟩] } := by
  have hround : RoundTrips firstValue fun v => .ok (MsgPack.write v) :=
    roundTrips_of_msgPack readsMsgPack_firstValue fun _ _ => rfl
  obtain ⟨bytes, hencode, hdecode⟩ := (decode_encode_host hround (fun v => ⟨_, rfl⟩)
    { signals := [.raw 4], frames := [⟨.opus, [0x2a]⟩, ⟨.codec2, []⟩] }).1 (by decide) (by decide)
    (by decide) (by decide)
  exact ⟨bytes, hencode, hdecode [0xff]⟩

end Embedded.Wire

end Lxst
