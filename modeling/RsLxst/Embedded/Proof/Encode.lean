import RsLxst.Embedded.Encode
import RsLxst.Embedded.Proof.Wire

/-!
# What the embedded encoder writes

`encode` writes the shortest MessagePack form of the packet's map (`canonical`), and computes its
length first: `encode_cases` is all it can do.
-/

set_option autoImplicit false

namespace Lxst.Embedded.Wire

open MsgPack (Encodes Value write writeItems writeEntries writeUint beBytes sized containerHeader)
open Writing (Puts puts_pure each)

/-! ## The writer -/

/-- The bytes at the offset, and the offset behind them. -/
def Writer.put (self : Writer) (bytes : List UInt8) : Option Writer :=
  (Writer.bytes bytes self).map Prod.snd

/-- What the output holds after the bytes were put at the offset. -/
theorem Writer.put_eq_some_iff {self writer : Writer} {bytes : List UInt8} :
    self.put bytes = some writer ↔ self.offset + bytes.length ≤ self.output.length ∧
      writer.output = self.output.take self.offset ++ bytes ++
        self.output.drop (self.offset + bytes.length) ∧
      writer.offset = self.offset + bytes.length := by
  obtain ⟨output', offset', hbounds⟩ := writer
  unfold put Writer.bytes
  split
  · rename_i h
    rw [Option.map_some, Option.some_inj, Writer.mk.injEq]
    exact ⟨fun ⟨ho, hn⟩ => ⟨h, ho.symm, hn.symm⟩, fun ⟨_, ho, hn⟩ => ⟨ho.symm, hn.symm⟩⟩
  · rename_i h
    exact ⟨nofun, fun h' => absurd h'.1 h⟩

theorem Writer.put_eq_none_iff {self : Writer} {bytes : List UInt8} :
    self.put bytes = none ↔ self.output.length < self.offset + bytes.length := by
  unfold put Writer.bytes
  split
  · rename_i h
    exact ⟨nofun, fun h' => absurd h (Nat.not_le.2 h')⟩
  · rename_i h
    exact ⟨fun _ => Nat.not_le.1 h, fun _ => rfl⟩

theorem Writer.put_nil (self : Writer) : self.put [] = some self := by
  rw [put_eq_some_iff]
  refine ⟨self.inBounds, ?_, rfl⟩
  rw [List.append_nil, List.length_nil, Nat.add_zero, List.take_append_drop]

theorem Writer.put_append (self : Writer) (xs ys : List UInt8) :
    self.put (xs ++ ys) = (self.put xs).bind fun self => self.put ys := by
  cases hxs : self.put xs with
  | none =>
    rw [put_eq_none_iff] at hxs
    rw [Option.bind_none, put_eq_none_iff, List.length_append]
    omega
  | some between =>
    obtain ⟨hfit, houtput, hoffset⟩ := put_eq_some_iff.1 hxs
    have hlength : between.output.length = self.output.length := by
      rw [houtput]
      simp only [List.length_append, List.length_take, List.length_drop]
      omega
    rw [Option.bind_some]
    cases hys : between.put ys with
    | none =>
      rw [put_eq_none_iff] at hys ⊢
      rw [List.length_append]
      omega
    | some writer =>
      obtain ⟨hfit', houtput', hoffset'⟩ := put_eq_some_iff.1 hys
      rw [put_eq_some_iff, List.length_append]
      refine ⟨by omega, ?_, by omega⟩
      have hprefix : (self.output.take self.offset ++ xs).length = between.offset := by
        rw [List.length_append, List.length_take]
        omega
      have htake : between.output.take between.offset = self.output.take self.offset ++ xs := by
        rw [houtput, ← hprefix, List.take_left]
      have hdrop : between.output.drop (between.offset + ys.length) =
          self.output.drop (self.offset + (xs.length + ys.length)) := by
        rw [← List.drop_drop, houtput, ← hprefix, List.drop_left, List.drop_drop, Nat.add_assoc]
      rw [houtput', htake, hdrop, List.append_assoc (self.output.take self.offset)]

/-- The output of a writer. -/
def sink : Sink Writer UInt8 where
  put := Writer.put
  put_nil := Writer.put_nil
  put_append := Writer.put_append

theorem puts_bytes (bytes : List UInt8) : Puts sink (Writer.bytes bytes) bytes := by
  intro self
  show Writer.bytes bytes self = (self.put bytes).map fun self => ((), self)
  unfold Writer.put
  cases Writer.bytes bytes self <;> rfl

theorem puts_byte (value : UInt8) : Puts sink (Writer.byte value) [value] := by
  have h : Writer.byte value = Writer.bytes [value] := by
    funext self
    unfold Writer.byte Writer.bytes
    by_cases hoffset : self.offset + [value].length ≤ self.output.length
    · have hlt : self.offset < self.output.length := hoffset
      rw [dif_pos hlt, dif_pos hoffset]
      congr
      rw [List.set_eq_take_append_cons_drop, if_pos hlt, List.append_assoc]
      rfl
    · have hge : ¬ self.offset < self.output.length := hoffset
      rw [dif_neg hge, dif_neg hoffset]
  rw [h]
  exact puts_bytes [value]

/-! ## Numbers -/

theorem lowByte16 (value : UInt16) : value.toUInt8 = UInt8.ofNat value.toNat := by
  rw [← UInt8.toNat_inj]
  simp

theorem lowByte32 (value : UInt32) : value.toUInt8 = UInt8.ofNat value.toNat := by
  rw [← UInt8.toNat_inj]
  simp

theorem beBytes16_eq (value : UInt16) : Writer.beBytes16 value = beBytes 2 value.toNat := by
  have hhigh : (value >>> 8).toUInt8 = UInt8.ofNat (value.toNat / 256) := by
    rw [lowByte16, UInt16.toNat_shiftRight, Nat.shiftRight_eq_div_pow]
    rfl
  unfold Writer.beBytes16
  rw [hhigh, lowByte16]
  rfl

theorem beBytes32_eq (value : UInt32) : Writer.beBytes32 value = beBytes 4 value.toNat := by
  have hbyte (shift : UInt32) (n : Nat) (hshift : shift.toNat = n) (hn : n < 32) :
      (value >>> shift).toUInt8 = UInt8.ofNat (value.toNat >>> n) := by
    rw [lowByte32, UInt32.toNat_shiftRight, hshift, Nat.mod_eq_of_lt hn]
  unfold Writer.beBytes32
  rw [hbyte 24 24 rfl (by omega), hbyte 16 16 rfl (by omega), hbyte 8 8 rfl (by omega),
    lowByte32]
  simp only [beBytes, List.nil_append, List.cons_append, Nat.div_div_eq_div_mul,
    Nat.shiftRight_eq_div_pow]

theorem toUInt16_toNat {value : UInt32} (h : value.toNat < 65536) :
    value.toUInt16.toNat = value.toNat := by
  rw [UInt32.toNat_toUInt16]
  omega

/-- The bounds at which the form of a number changes. -/
theorem le_bounds (value : UInt32) : (value ≤ 127 ↔ value.toNat < 128) ∧
    (value ≤ 255 ↔ value.toNat < 256) ∧ (value ≤ 65535 ↔ value.toNat < 65536) :=
  ⟨UInt32.le_iff_toNat_le.trans Nat.lt_succ_iff.symm,
    UInt32.le_iff_toNat_le.trans Nat.lt_succ_iff.symm,
    UInt32.le_iff_toNat_le.trans Nat.lt_succ_iff.symm⟩

theorem puts_uint (value : UInt32) : Puts sink (Writer.uint value) (writeUint value.toNat) := by
  obtain ⟨h127, h255, h65535⟩ := le_bounds value
  unfold Writer.uint writeUint
  simp only [h127, h255, h65535, lowByte32, beBytes32_eq]
  split
  · exact puts_byte _
  split
  · exact (puts_byte 0xcc).andThen (puts_byte _)
  split
  · rename_i hsmall
    rw [beBytes16_eq, toUInt16_toNat hsmall]
    exact (puts_byte 0xcd).andThen (puts_bytes _)
  · rw [if_pos value.toNat_lt]
    exact (puts_byte 0xce).andThen (puts_bytes _)

theorem uintBytes_eq (value : UInt32) : uintBytes value = (writeUint value.toNat).length := by
  obtain ⟨h127, h255, h65535⟩ := le_bounds value
  unfold uintBytes writeUint
  simp only [h127, h255, h65535]
  split
  · rfl
  split
  · rfl
  split
  · rfl
  · rw [if_pos value.toNat_lt]
    rfl

/-! ## Frames and signals -/

/-- A signal and a frame as MessagePack values, and the packet's map. -/
def signalValue (signal : Signal) : Value := .integer signal.wireValue.toNat

def frameValue (frame : Frame) : Value := .binary (frame.codec.wireId :: frame.payload)

def signalEntries (signals : List Signal) : List (Value × Value) :=
  if signals.isEmpty then [] else [(.integer 0, .array (signals.map signalValue))]

def frameEntries : List Frame → List (Value × Value)
  | [] => []
  | [frame] => [(.integer 1, frameValue frame)]
  | frames => [(.integer 1, .array (frames.map frameValue))]

def entries (signals : List Signal) (frames : List Frame) : List (Value × Value) :=
  signalEntries signals ++ frameEntries frames

theorem length_entries (signals : List Signal) (frames : List Frame) :
    (entries signals frames).length ≤ 2 := by
  have hsignals : (signalEntries signals).length ≤ 1 := by
    unfold signalEntries
    split
    · exact Nat.zero_le _
    · exact Nat.le_refl _
  have hframes : (frameEntries frames).length ≤ 1 := by
    unfold frameEntries
    split
    · exact Nat.zero_le _
    · exact Nat.le_refl _
    · exact Nat.le_refl _
  rw [entries, List.length_append]
  omega

/-- The shortest form of the packet. -/
def canonical (signals : List Signal) (frames : List Frame) : List UInt8 :=
  write (.map (entries signals frames))

theorem writeItems_map {α : Type} (f : α → Value) (as : List α) :
    writeItems (as.map f) = as.flatMap fun a => write (f a) := by
  induction as with
  | nil => rfl
  | cons a as ih => rw [List.map_cons, writeItems, ih, List.flatMap_cons]

theorem puts_binaryHeader {length : Nat} (h : length < 65536) :
    Puts sink (writeBinaryHeader length) (sized 0xc4 0xc5 0xc6 length) := by
  unfold writeBinaryHeader sized
  by_cases h256 : length < 256
  · rw [if_pos (Nat.le_of_lt_succ h256), if_pos h256]
    exact (puts_byte 0xc4).andThen (puts_byte _)
  · have hlength : (UInt16.ofNat length).toNat = length := by
      rw [UInt16.toNat_ofNat', Nat.mod_eq_of_lt h]
    rw [if_neg fun hle => h256 (Nat.lt_succ_of_le hle), if_neg h256, if_pos h, beBytes16_eq,
      hlength]
    exact (puts_byte 0xc5).andThen (puts_bytes _)

theorem puts_frame {frame : Frame} (h : frame.payload.length < MAX_FRAME_BYTES) :
    Puts sink (writeFrame frame) (write (frameValue frame)) := by
  unfold MAX_FRAME_BYTES at h
  exact (puts_binaryHeader (by omega)).andThen
    ((puts_byte frame.codec.wireId).andThen (puts_bytes frame.payload))

/-- An array of few values. -/
theorem write_array {items : List Value} (h : items.length < 16) :
    write (.array items) = [0x90 ||| UInt8.ofNat items.length] ++ writeItems items := by
  rw [write, containerHeader, if_pos h]

/-- The bytes of the signals' field. -/
theorem write_signalEntries {signals : List Signal} (h : signals.length ≤ MAX_SIGNALS) :
    writeEntries (signalEntries signals) =
      if signals.isEmpty then []
      else [0] ++ ([0x90 ||| UInt8.ofNat signals.length] ++
        signals.flatMap fun signal => write (signalValue signal)) := by
  unfold MAX_SIGNALS at h
  unfold signalEntries
  split
  · rfl
  · rw [writeEntries, writeEntries, write_array (by rw [List.length_map]; omega),
      List.length_map, writeItems_map, List.append_nil]
    rfl

/-- The bytes of the frames' field: an array only if there are several. -/
theorem write_frameEntries {frames : List Frame} (h : frames.length ≤ MAX_FRAMES) :
    writeEntries (frameEntries frames) =
      if frames.isEmpty then []
      else [1] ++ ((if frames.length > 1 then [0x90 ||| UInt8.ofNat frames.length] else []) ++
        frames.flatMap fun frame => write (frameValue frame)) := by
  unfold MAX_FRAMES at h
  match frames, h with
  | [], _ => rfl
  | [frame], _ =>
    rw [List.flatMap_singleton]
    exact List.append_nil _
  | first :: second :: rest, h =>
    have hentries : frameEntries (first :: second :: rest) =
        [(.integer 1, .array ((first :: second :: rest).map frameValue))] := rfl
    have hmany : (first :: second :: rest).length > 1 := by simp
    rw [hentries, writeEntries, writeEntries, write_array (by rw [List.length_map]; omega),
      List.length_map, writeItems_map, List.append_nil, if_pos hmany]
    rfl

theorem puts_signals {signals : List Signal} (h : signals.length ≤ MAX_SIGNALS) :
    Puts sink (writeSignals signals) (writeEntries (signalEntries signals)) := by
  rw [write_signalEntries h]
  unfold writeSignals
  cases signals.isEmpty with
  | true => exact puts_pure
  | false =>
    exact (puts_byte 0).andThen ((puts_byte _).andThen
      (Puts.each fun signal _ => puts_uint signal.wireValue))

theorem puts_frames {frames : List Frame} (h : frames.length ≤ MAX_FRAMES)
    (hbytes : ∀ frame ∈ frames, frame.payload.length < MAX_FRAME_BYTES) :
    Puts sink (writeFrames frames) (writeEntries (frameEntries frames)) := by
  rw [write_frameEntries h]
  unfold writeFrames
  cases frames.isEmpty with
  | true => exact puts_pure
  | false =>
    exact (puts_byte 1).andThen ((puts_byte _).onlyIf.andThen
      (Puts.each fun frame hframe => puts_frame (hbytes frame hframe)))

theorem writeEntries_append (es fs : List (Value × Value)) :
    writeEntries (es ++ fs) = writeEntries es ++ writeEntries fs := by
  induction es with
  | nil => rfl
  | cons e es ih =>
    obtain ⟨key, value⟩ := e
    rw [List.cons_append, writeEntries, writeEntries, ih]
    simp only [List.append_assoc]

/-- The first byte of a packet counts its fields. -/
theorem write_entries (signals : List Signal) (frames : List Frame) :
    canonical signals frames =
      [0x80 ||| ((if signals.isEmpty then 0 else 1) + if frames.isEmpty then 0 else 1)] ++
        (writeEntries (signalEntries signals) ++ writeEntries (frameEntries frames)) := by
  unfold canonical
  rw [write, ← writeEntries_append]
  match signals, frames with
  | [], [] | [], [_] | [], _ :: _ :: _ | _ :: _, [] | _ :: _, [_] | _ :: _, _ :: _ :: _ => rfl

theorem puts_packet {signals : List Signal} {frames : List Frame}
    (hsignals : signals.length ≤ MAX_SIGNALS) (hframes : frames.length ≤ MAX_FRAMES)
    (hbytes : ∀ frame ∈ frames, frame.payload.length < MAX_FRAME_BYTES) :
    Puts sink (writePacket signals frames) (canonical signals frames) := by
  rw [write_entries]
  exact (puts_byte _).andThen ((puts_signals hsignals).andThen (puts_frames hframes hbytes))

/-! ## Sizes -/

theorem length_write_frame {frame : Frame} (h : frame.payload.length < MAX_FRAME_BYTES) :
    (write (frameValue frame)).length =
      frame.payload.length + 1 + if frame.payload.length + 1 ≤ 255 then 2 else 3 := by
  unfold MAX_FRAME_BYTES at h
  have hheader : (sized 0xc4 0xc5 0xc6 (frame.payload.length + 1)).length =
      if frame.payload.length + 1 ≤ 255 then 2 else 3 := by
    unfold sized
    split
    · rw [if_pos (by omega)]
      rfl
    · rw [if_pos (by omega), if_neg (by omega)]
      rfl
  rw [frameValue, write, List.length_append, List.length_cons, hheader, Nat.add_comm]

/-- The frames are sent and of the documented size, or one of them is not. -/
theorem framesSize_cases (frames : List Frame) (size : Nat) :
    (framesSize frames size =
        .ok (size + (frames.flatMap fun frame => write (frameValue frame)).length) ∧
      ∀ frame ∈ frames,
        frame.codec.isTransmittable = true ∧ frame.payload.length < MAX_FRAME_BYTES) ∨
    ∃ error, framesSize frames size = .error error ∧ error ≠ .outputCapacity ∧
      ∃ frame ∈ frames,
        ¬ (frame.codec.isTransmittable = true ∧ frame.payload.length < MAX_FRAME_BYTES) := by
  induction frames generalizing size with
  | nil => exact .inl ⟨rfl, List.forall_mem_nil _⟩
  | cons frame frames ih =>
    unfold framesSize
    by_cases hcodec : frame.codec.isTransmittable = true
    · rw [hcodec, Bool.not_true, if_neg Bool.false_ne_true]
      by_cases hbytes : frame.payload.length < MAX_FRAME_BYTES
      · rw [if_neg (Nat.not_le.2 hbytes)]
        dsimp only
        rw [← length_write_frame hbytes]
        rcases ih (size + (write (frameValue frame)).length) with
          ⟨hok, hframes⟩ | ⟨error, herror, hne, other, hother, hbad⟩
        · refine .inl ⟨?_, List.forall_mem_cons.2 ⟨⟨hcodec, hbytes⟩, hframes⟩⟩
          rw [hok, List.flatMap_cons, List.length_append, Nat.add_assoc]
        · exact .inr ⟨error, herror, hne, other, List.mem_cons_of_mem _ hother, hbad⟩
      · rw [if_pos (Nat.not_lt.1 hbytes)]
        exact .inr ⟨_, rfl, nofun, frame, List.mem_cons_self, fun h => hbytes h.2⟩
    · rw [Bool.not_eq_true] at hcodec
      rw [hcodec, Bool.not_false, if_pos rfl]
      refine .inr ⟨_, rfl, nofun, frame, List.mem_cons_self, fun h => ?_⟩
      rw [hcodec] at h
      cases h.1

theorem signalsSize_eq (signals : List Signal) :
    signalsSize signals = (signals.flatMap fun signal => write (signalValue signal)).length := by
  induction signals with
  | nil => rfl
  | cons signal signals ih =>
    rw [signalsSize, ih, List.flatMap_cons, List.length_append, uintBytes_eq]
    rfl

theorem length_signalEntries {signals : List Signal} (h : signals.length ≤ MAX_SIGNALS) :
    (writeEntries (signalEntries signals)).length =
      if signals.isEmpty then 0 else 2 + signalsSize signals := by
  rw [write_signalEntries h, signalsSize_eq]
  split
  · rfl
  · simp only [List.length_append, List.length_singleton]
    omega

theorem length_frameEntries {frames : List Frame} (h : frames.length ≤ MAX_FRAMES) :
    (writeEntries (frameEntries frames)).length =
      if frames.isEmpty then 0
      else 1 + (if frames.length > 1 then 1 else 0) +
        (frames.flatMap fun frame => write (frameValue frame)).length := by
  rw [write_frameEntries h]
  split
  · rfl
  · simp only [List.length_append, List.length_singleton, apply_ite List.length, List.length_nil]
    omega

/-- **The size is the packet's**, or a frame is not one that the limits and the codecs allow. -/
theorem packetSize_cases {signals : List Signal} {frames : List Frame}
    (hsignals : signals.length ≤ MAX_SIGNALS) (hframes : frames.length ≤ MAX_FRAMES) :
    (packetSize signals frames = .ok (canonical signals frames).length ∧
      ∀ frame ∈ frames,
        frame.codec.isTransmittable = true ∧ frame.payload.length < MAX_FRAME_BYTES) ∨
    ∃ error, packetSize signals frames = .error error ∧ error ≠ .outputCapacity ∧
      ∃ frame ∈ frames,
        ¬ (frame.codec.isTransmittable = true ∧ frame.payload.length < MAX_FRAME_BYTES) := by
  have hlength := congrArg List.length (write_entries signals frames)
  rw [List.length_append, List.length_append, List.length_singleton, length_signalEntries hsignals,
    length_frameEntries hframes] at hlength
  unfold packetSize
  dsimp only
  split
  · rename_i hempty
    rw [if_pos hempty] at hlength
    obtain rfl := List.isEmpty_iff.1 hempty
    refine .inl ⟨congrArg Except.ok ?_, List.forall_mem_nil _⟩
    rw [hlength]
    split <;> omega
  · rename_i hsome
    rw [if_neg hsome] at hlength
    rcases framesSize_cases frames _ with ⟨hok, hall⟩ | herror
    · refine .inl ⟨hok.trans (congrArg Except.ok ?_), hall⟩
      rw [hlength]
      split <;> omega
    · exact .inr herror

/-! ## Encoding -/

/-- Where it fits, the packet is written, and the writer ends behind it. -/
theorem writePacket_eq {signals : List Signal} {frames : List Frame} {output : List UInt8}
    (hsignals : signals.length ≤ MAX_SIGNALS) (hframes : frames.length ≤ MAX_FRAMES)
    (hbytes : ∀ frame ∈ frames, frame.payload.length < MAX_FRAME_BYTES)
    (hfit : (canonical signals frames).length ≤ output.length) :
    ∃ writer, writePacket signals frames { output, offset := 0, inBounds := Nat.zero_le _ } =
        some ((), writer) ∧ writer.offset = (canonical signals frames).length ∧
      writer.output =
        canonical signals frames ++ output.drop (canonical signals frames).length := by
  have hputs := puts_packet hsignals hframes hbytes
    { output, offset := 0, inBounds := Nat.zero_le _ }
  rw [hputs]
  cases hput : Writer.put { output, offset := 0, inBounds := Nat.zero_le _ }
      (canonical signals frames) with
  | none =>
    rw [Writer.put_eq_none_iff] at hput
    dsimp only at hput
    omega
  | some writer =>
    obtain ⟨-, houtput, hoffset⟩ := Writer.put_eq_some_iff.1 hput
    dsimp only at houtput hoffset
    rw [Nat.zero_add] at houtput hoffset
    exact ⟨writer, congrArg (Option.map _) hput, hoffset, houtput⟩

/-- The packet is one that the documented limits and its codecs allow. -/
structure Encodable (signals : List Signal) (frames : List Frame) : Prop where
  limits : Packet.InLimits { signals, frames }
  transmittable : ∀ frame ∈ frames, frame.codec.isTransmittable = true
  packetBytes : (canonical signals frames).length ≤ MAX_PACKET_BYTES

/-- **What `encode` can do**: the shortest form of the packet and nothing else, an error of its
capacity, or an error of a packet that is not allowed. -/
theorem encode_cases (signals : List Signal) (frames : List Frame) (output : List UInt8) :
    (Encodable signals frames ∧ (canonical signals frames).length ≤ output.length ∧
      encode signals frames output = some (.ok (canonical signals frames).length,
        canonical signals frames ++ output.drop (canonical signals frames).length)) ∨
    (Encodable signals frames ∧ output.length < (canonical signals frames).length ∧
      encode signals frames output = some (.error .outputCapacity, output)) ∨
    ¬ Encodable signals frames ∧ ∃ error, error ≠ .outputCapacity ∧
      encode signals frames output = some (.error error, output) := by
  unfold encode
  by_cases hcount : signals.length > MAX_SIGNALS ∨ frames.length > MAX_FRAMES
  · rw [if_pos hcount]
    refine .inr (.inr ⟨fun h => ?_, .limit, nofun, rfl⟩)
    have hsignals := h.limits.signals
    have hframes := h.limits.frames
    dsimp only at hsignals hframes
    omega
  rw [if_neg hcount]
  rw [not_or, Nat.not_lt, Nat.not_lt] at hcount
  rcases packetSize_cases hcount.1 hcount.2 with
    ⟨hsize, hframes⟩ | ⟨error, hsize, hne, frame, hframe, hbad⟩
  · rw [hsize]
    dsimp only
    by_cases hbytes : (canonical signals frames).length > MAX_PACKET_BYTES
    · rw [if_pos hbytes]
      exact .inr (.inr ⟨fun h => absurd h.packetBytes (Nat.not_le.2 hbytes), .limit, nofun, rfl⟩)
    rw [if_neg hbytes]
    have hencodable : Encodable signals frames :=
      ⟨⟨hcount.1, hcount.2, fun frame hframe => (hframes frame hframe).2⟩,
        fun frame hframe => (hframes frame hframe).1, Nat.not_lt.1 hbytes⟩
    by_cases hcapacity : output.length < (canonical signals frames).length
    · rw [if_pos hcapacity]
      exact .inr (.inl ⟨hencodable, hcapacity, rfl⟩)
    rw [if_neg hcapacity]
    rw [Nat.not_lt] at hcapacity
    refine .inl ⟨hencodable, hcapacity, ?_⟩
    obtain ⟨writer, hwritten, -, houtput⟩ := writePacket_eq hcount.1 hcount.2
      (fun frame hframe => (hframes frame hframe).2) hcapacity
    rw [hwritten, ← houtput]
    rfl
  · rw [hsize]
    refine .inr (.inr ⟨fun h => hbad ⟨h.transmittable frame hframe, ?_⟩, error, hne, rfl⟩)
    exact h.limits.frameBytes frame hframe

/-- **`encode` is atomic and in bounds**: no write of it leaves the output, an error leaves the
output as it was, and a packet overwrites just its own length, which is where the writer ends. -/
theorem encode_atomic (signals : List Signal) (frames : List Frame) (output : List UInt8) :
    ∃ result written, encode signals frames output = some (result, written) ∧
      (∀ error, result = .error error → written = output) ∧
      ∀ n, result = .ok n → n ≤ 512 ∧ n ≤ output.length ∧
        (∃ writer, writePacket signals frames { output, offset := 0, inBounds := Nat.zero_le _ } =
          some ((), writer) ∧ writer.offset = n ∧ writer.output = written) ∧
        ∃ packet : List UInt8, packet.length = n ∧ ∀ output' : List UInt8, n ≤ output'.length →
          encode signals frames output' = some (.ok n, packet ++ output'.drop n) := by
  rcases encode_cases signals frames output with
    ⟨hencodable, hfit, h⟩ | ⟨-, -, h⟩ | ⟨-, error, -, h⟩
  · refine ⟨_, _, h, nofun, fun n hn => ?_⟩
    cases hn
    refine ⟨hencodable.packetBytes, hfit, ?_, canonical signals frames, rfl, ?_⟩
    · exact writePacket_eq hencodable.limits.signals hencodable.limits.frames
        hencodable.limits.frameBytes hfit
    · intro output' hfit'
      rcases encode_cases signals frames output' with ⟨-, -, h'⟩ | ⟨-, hshort, -⟩ | ⟨hnot, -⟩
      · exact h'
      · exact absurd hfit' (Nat.not_le.2 hshort)
      · exact absurd hencodable hnot
  · exact ⟨_, _, h, fun _ _ => rfl, nofun⟩
  · exact ⟨_, _, h, fun _ _ => rfl, nofun⟩

/-! ## The host's encoder -/

theorem toWireBytes_eq {frame : Frame} (h : frame.codec.isTransmittable = true) :
    frame.toWireBytes = .ok (frame.codec.wireId :: frame.payload) := by
  unfold Frame.toWireBytes
  rw [h]
  rfl

theorem toValue_eq {signals : List Signal} {frames : List Frame}
    (h : ∀ frame ∈ frames, frame.codec.isTransmittable = true) :
    LxstPacket.toValue { signals, frames } = .ok (.map (entries signals frames)) := by
  match frames, h with
  | [], _ => rfl
  | [frame], h =>
    have hbytes := toWireBytes_eq (h frame List.mem_cons_self)
    unfold LxstPacket.toValue
    dsimp only
    rw [hbytes]
    rfl
  | first :: second :: rest, h =>
    have hvalues :
        (first :: second :: rest).mapM (fun frame => Value.binary <$> frame.toWireBytes) =
          .ok ((first :: second :: rest).map frameValue) := by
      rw [mapM_eq_ok, List.forall₂_map_right_iff, List.forall₂_same]
      intro frame hframe
      rw [toWireBytes_eq (h frame hframe)]
      rfl
    unfold LxstPacket.toValue
    dsimp only
    rw [hvalues]
    rfl

theorem fitsItems_map {α : Type} {f : α → Value} {as : List α}
    (h : ∀ a ∈ as, MsgPack.Fits (f a)) : MsgPack.FitsItems (as.map f) := by
  induction as with
  | nil => trivial
  | cons a as ih =>
    obtain ⟨ha, has⟩ := List.forall_mem_cons.1 h
    exact ⟨ha, ih has⟩

theorem fitsEntries_append {es fs : List (Value × Value)} (hes : MsgPack.FitsEntries es)
    (hfs : MsgPack.FitsEntries fs) : MsgPack.FitsEntries (es ++ fs) := by
  induction es with
  | nil => exact hfs
  | cons e es ih => exact ⟨hes.1, hes.2.1, ih hes.2.2⟩

theorem fits_key {n : Nat} (h : n ≤ 255) : MsgPack.Fits (.integer n) :=
  ⟨by omega, by omega⟩

/-- A packet's map fits the format if its lists and frames do. -/
theorem fits_entries {signals : List Signal} {frames : List Frame}
    (hsignalCount : signals.length < 0x100000000) (hframeCount : frames.length < 0x100000000)
    (hframe : ∀ frame ∈ frames, frame.payload.length + 1 < 0x100000000) :
    MsgPack.Fits (.map (entries signals frames)) := by
  have hsignal (signal : Signal) : MsgPack.Fits (signalValue signal) := by
    have hlt := signal.wireValue.toNat_lt
    exact ⟨by omega, by omega⟩
  have hsignals : MsgPack.FitsEntries (signalEntries signals) := by
    unfold signalEntries
    split
    · trivial
    · refine ⟨fits_key (Nat.zero_le _), ⟨?_, fitsItems_map fun s _ => hsignal s⟩, trivial⟩
      rwa [List.length_map]
  have hframes : MsgPack.FitsEntries (frameEntries frames) := by
    unfold frameEntries
    split
    · trivial
    · exact ⟨fits_key (n := 1) (by omega), hframe _ List.mem_cons_self, trivial⟩
    · refine ⟨fits_key (n := 1) (by omega), ⟨?_, fitsItems_map hframe⟩, trivial⟩
      rwa [List.length_map]
  have hlength := length_entries signals frames
  exact ⟨by omega, fitsEntries_append hsignals hframes⟩

theorem Packet.InLimits.fits {signals : List Signal} {frames : List Frame}
    (h : Packet.InLimits { signals, frames }) : MsgPack.Fits (.map (entries signals frames)) := by
  have hsignalCount : signals.length ≤ 8 := h.signals
  have hframeCount : frames.length ≤ 4 := h.frames
  refine fits_entries (by omega) (by omega) fun frame hmem => ?_
  have hbytes : frame.payload.length + 1 ≤ 256 := h.frameBytes frame hmem
  omega

theorem encode_host {writeValue : Value → Except String (List UInt8)}
    (hwrite : WritesShortest writeValue) {signals : List Signal} {frames : List Frame}
    (hlimits : Packet.InLimits { signals, frames })
    (hcodecs : ∀ frame ∈ frames, frame.codec.isTransmittable = true) :
    LxstPacket.encode writeValue { signals, frames } = .ok (canonical signals frames) := by
  unfold LxstPacket.encode
  rw [toValue_eq hcodecs]
  dsimp only [bind, Except.bind]
  rw [hwrite _ hlimits.fits]
  rfl

/-- A documented limit is exceeded: on the signals, the frames, a frame's bytes or the packet's
bytes, which are those of the host's encoder. -/
def ExceedsLimit (writeValue : Value → Except String (List UInt8)) (signals : List Signal)
    (frames : List Frame) : Prop :=
  signals.length > MAX_SIGNALS ∨ frames.length > MAX_FRAMES ∨
    (∃ frame ∈ frames, frame.payload.length + 1 > MAX_FRAME_BYTES) ∨
    ∃ bytes, LxstPacket.encode writeValue { signals, frames } = .ok bytes ∧
      bytes.length > MAX_PACKET_BYTES

theorem not_encodable_iff {writeValue : Value → Except String (List UInt8)}
    (hwrite : WritesShortest writeValue) {signals : List Signal} {frames : List Frame} :
    ¬ Encodable signals frames ↔ ExceedsLimit writeValue signals frames ∨
      ∃ frame ∈ frames, frame.codec.isTransmittable = false := by
  constructor
  · intro h
    by_contra hnot
    unfold ExceedsLimit at hnot
    simp only [not_or, not_exists, not_and, Nat.not_lt] at hnot
    obtain ⟨⟨hsignals, hframes, hbytes, hpacket⟩, hcodecs⟩ := hnot
    have hlimits : Packet.InLimits { signals, frames } := ⟨hsignals, hframes, hbytes⟩
    have htransmittable (frame : Frame) (hframe : frame ∈ frames) :
        frame.codec.isTransmittable = true := by
      simpa using hcodecs frame hframe
    exact h ⟨hlimits, htransmittable, hpacket _ (encode_host hwrite hlimits htransmittable)⟩
  · rintro (hexceeds | ⟨frame, hframe, hcodec⟩) h
    · rcases hexceeds with hsignals | hframes | ⟨frame, hframe, hbytes⟩ | ⟨bytes, hbytes, hpacket⟩
      · exact absurd h.limits.signals (Nat.not_le.2 hsignals)
      · exact absurd h.limits.frames (Nat.not_le.2 hframes)
      · exact absurd (h.limits.frameBytes frame hframe) (Nat.not_le.2 hbytes)
      · rw [encode_host hwrite h.limits h.transmittable] at hbytes
        cases hbytes
        exact absurd h.packetBytes (Nat.not_le.2 hpacket)
    · rw [h.transmittable frame hframe] at hcodec
      cases hcodec

/-- **The embedded and the host encoder agree**: what `encode` writes is the host's packet, and an
error other than the buffer's capacity means that a documented limit is exceeded or a codec is not
transmittable. -/
theorem encode_agrees (writeValue : Value → Except String (List UInt8))
    (hwrite : WritesShortest writeValue) (signals : List Signal) (frames : List Frame)
    (output : List UInt8) :
    (∀ n written, encode signals frames output = some (.ok n, written) →
      LxstPacket.encode writeValue { signals, frames } = .ok (written.take n)) ∧
    ∀ error written, encode signals frames output = some (.error error, written) →
      error ≠ .outputCapacity → ExceedsLimit writeValue signals frames ∨
        ∃ frame ∈ frames, frame.codec.isTransmittable = false := by
  rcases encode_cases signals frames output with
    ⟨hencodable, -, h⟩ | ⟨-, -, h⟩ | ⟨hnot, error, -, h⟩
  · rw [h]
    refine ⟨fun n written he => ?_, nofun⟩
    cases he
    rw [List.take_left]
    exact encode_host hwrite hencodable.limits hencodable.transmittable
  · rw [h]
    refine ⟨nofun, fun error written he hne => ?_⟩
    cases he
    exact absurd rfl hne
  · rw [h]
    exact ⟨nofun, fun _ _ _ _ => (not_encodable_iff hwrite).1 hnot⟩

/-- A ringing status and an Opus frame, into a buffer with a byte to spare. -/
theorem encode_agrees_ringing :
    LxstPacket.encode (fun v => .ok (write v))
      { signals := [.status .ringing], frames := [{ codec := .opus, payload := [0x2a] }] } =
        .ok [0x82, 0x00, 0x91, 0x04, 0x01, 0xc4, 0x02, 0x01, 0x2a] := by
  have hwritten : encode [.status .ringing] [{ codec := .opus, payload := [0x2a] }]
      (.replicate 10 0xa5) =
        some (.ok 9, [0x82, 0x00, 0x91, 0x04, 0x01, 0xc4, 0x02, 0x01, 0x2a, 0xa5]) := by
    decide +kernel
  exact (encode_agrees (fun v => .ok (write v)) (fun _ _ => rfl) _ _ _).1 9 _ hwritten

end Lxst.Embedded.Wire
