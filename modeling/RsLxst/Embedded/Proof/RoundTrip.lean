import RsLxst.Embedded.Proof.Encode

/-!
# The embedded round trip

`decode` reads back what `encode` has written: the same frames, and each signal as its wire value
is read (`Signal.fromWire_wireValue_iff`: another signal only for a raw value that is a status's or
a profile's). The fields of the canonical map are run through `Fields`, one after another.
-/

set_option autoImplicit false

namespace Lxst

/-! ## Signals -/

/-- A raw value that is the wire value of a status or of a preferred profile. -/
def Signal.Aliases (signal : Signal) : Prop :=
  ∃ value, signal = .raw value ∧ ((∃ status : SignallingStatus, value = status.wireValue) ∨
    ∃ profile : Profile, value = PREFERRED_PROFILE_BASE + profile.wireValue)

theorem SignallingStatus.fromWire_eq_some_iff {value : UInt32} {status : SignallingStatus} :
    fromWire value = some status ↔ value = status.wireValue := by
  constructor
  · intro h
    unfold fromWire at h
    split at h <;> cases h <;> rfl
  · rintro rfl
    cases status <;> rfl

theorem Profile.fromWire_eq_some_iff {value : UInt32} {profile : Profile} :
    fromWire value = some profile ↔ value = profile.wireValue := by
  constructor
  · intro h
    unfold fromWire at h
    split at h <;> cases h <;> rfl
  · rintro rfl
    cases profile <;> rfl

/-- A raw value is read back as itself unless it aliases another signal. -/
theorem Signal.fromWire_raw_iff (value : UInt32) :
    Signal.fromWire value = .raw value ↔ ¬ Signal.Aliases (.raw value) := by
  have haliases : Signal.Aliases (.raw value) ↔
      (∃ status : SignallingStatus, value = status.wireValue) ∨
        ∃ profile : Profile, value = PREFERRED_PROFILE_BASE + profile.wireValue := by
    refine ⟨fun ⟨_, h, halias⟩ => ?_, fun h => ⟨value, rfl, h⟩⟩
    cases h
    exact halias
  have hbase (profile : Profile) :
      PREFERRED_PROFILE_BASE + profile.wireValue ≥ PREFERRED_PROFILE_BASE ∧
        PREFERRED_PROFILE_BASE + profile.wireValue - PREFERRED_PROFILE_BASE =
          profile.wireValue := by
    cases profile <;> decide
  rw [haliases]
  unfold Signal.fromWire
  split
  · rename_i status hstatus
    exact ⟨nofun, fun h => absurd (.inl ⟨status, SignallingStatus.fromWire_eq_some_iff.1 hstatus⟩) h⟩
  rename_i hstatus
  have hno (status : SignallingStatus) : value ≠ status.wireValue := fun h => by
    rw [SignallingStatus.fromWire_eq_some_iff.2 h] at hstatus
    cases hstatus
  split
  · split
    · rename_i profile hprofile
      refine ⟨nofun, fun h => absurd (.inr ⟨profile, ?_⟩) h⟩
      rw [← Profile.fromWire_eq_some_iff.1 hprofile, UInt32.add_comm, UInt32.sub_add_cancel]
    · rename_i hprofile
      refine ⟨fun _ => ?_, fun _ => rfl⟩
      rintro (⟨status, h⟩ | ⟨profile, h⟩)
      · exact hno status h
      · rw [h, (hbase profile).2, Profile.fromWire_eq_some_iff.2 rfl] at hprofile
        cases hprofile
  · rename_i hless
    refine ⟨fun _ => ?_, fun _ => rfl⟩
    rintro (⟨status, h⟩ | ⟨profile, h⟩)
    · exact hno status h
    · exact hless (h ▸ (hbase profile).1)

theorem Signal.fromWire_wireValue_iff (signal : Signal) :
    Signal.fromWire signal.wireValue = signal ↔ ¬ signal.Aliases := by
  cases signal with
  | status status =>
    refine ⟨fun _ ⟨_, h, _⟩ => (nomatch h), fun _ => ?_⟩
    cases status <;> rfl
  | preferredProfile profile =>
    refine ⟨fun _ ⟨_, h, _⟩ => (nomatch h), fun _ => ?_⟩
    cases profile <;> rfl
  | raw value => exact Signal.fromWire_raw_iff value

namespace Embedded.Wire

open MsgPack (Value Encodes)

/-! ## The canonical fields -/

theorem parseSignals_map (signals : List Signal) :
    parseSignals (.array (signals.map signalValue)) =
      .ok (signals.map fun signal => Signal.fromWire signal.wireValue) := by
  rw [parseSignals, mapM_eq_ok, List.forall₂_map_left_iff, List.forall₂_map_right_iff,
    List.forall₂_same]
  intro signal _
  rw [parseSignal_eq_ok]
  exact ⟨signal.wireValue.toNat, rfl, signal.wireValue.toNat_lt, by rw [UInt32.ofNat_toNat]⟩

theorem fromWireBytes_wireId {frame : Frame} (h : frame.codec.isTransmittable = true) :
    Frame.fromWireBytes (frame.codec.wireId :: frame.payload) = .ok frame := by
  obtain ⟨codec, payload⟩ := frame
  cases codec with
  | null => cases h
  | _ => rfl

/-- The signals' field, if there is one. -/
theorem fields_signals {signals : List Signal} (h : signals.length ≤ MAX_SIGNALS)
    {es : List (Value × Value)} {result : Packet}
    (hrest : ∀ seen, seen &&& 2 = 0 → Fields
      { signals := signals.map fun signal => Signal.fromWire signal.wireValue, frames := [] }
      seen es result) :
    Fields { signals := [], frames := [] } 0 (signalEntries signals ++ es) result := by
  unfold signalEntries
  split
  · rename_i hempty
    obtain rfl := List.isEmpty_iff.1 hempty
    exact hrest 0 rfl
  · have hstep : FieldStep { signals := [], frames := [] } 0 0 (.array (signals.map signalValue))
        ({ signals := signals.map fun signal => Signal.fromWire signal.wireValue, frames := [] },
          1) :=
      ⟨rfl, _, parseSignals_map signals, by rwa [List.length_map], rfl⟩
    exact .cons rfl hstep (hrest 1 rfl)

/-- The frames' field, if there is one, is the last. -/
theorem fields_frames {signals : List Signal} {frames : List Frame} {seen : Nat}
    (hseen : seen &&& 2 = 0) (hlimits : Packet.InLimits { signals, frames })
    (hcodecs : ∀ frame ∈ frames, frame.codec.isTransmittable = true) :
    Fields { signals, frames := [] } seen (frameEntries frames) { signals, frames } := by
  have hfield (v : Value) (hparse : parseFrames v = .ok frames) :
      Fields { signals, frames := [] } seen [(.integer 1, v)] { signals, frames } := by
    have hstep : FieldStep { signals, frames := [] } seen 1 v ({ signals, frames }, seen ||| 2) :=
      ⟨hseen, frames, hparse, hlimits.frames, hlimits.frameBytes, rfl⟩
    exact .cons rfl hstep .nil
  match frames, hcodecs, hfield with
  | [], _, _ => exact .nil
  | [frame], hcodecs, hfield =>
    refine hfield _ ?_
    rw [parseFrames_eq_ok]
    exact .inr ⟨frame, rfl, fromWireBytes_wireId (hcodecs frame List.mem_cons_self)⟩
  | first :: second :: rest, hcodecs, hfield =>
    refine hfield _ ?_
    rw [parseFrames, mapM_eq_ok, List.forall₂_map_left_iff, List.forall₂_same]
    exact fun frame hframe => fromWireBytes_wireId (hcodecs frame hframe)

/-- The canonical packet is accepted. -/
theorem decode_canonical (target : Target) {signals : List Signal} {frames : List Frame}
    (h : Encodable signals frames) :
    Packet.decode target (canonical signals frames) =
      .ok { signals := signals.map fun signal => Signal.fromWire signal.wireValue, frames } := by
  have hlength : (entries signals frames).length ≤ MAX_FIELDS :=
    Nat.le_trans (length_entries signals frames) (by decide)
  refine decode_iff_fields.2 ⟨h.packetBytes, entries signals frames,
    MsgPack.encodes_write _ h.limits.fits, hlength, ?_⟩
  refine fields_signals h.limits.signals fun seen hseen => ?_
  refine fields_frames hseen ⟨?_, h.limits.frames, h.limits.frameBytes⟩ h.transmittable
  show (signals.map _).length ≤ MAX_SIGNALS
  rw [List.length_map]
  exact h.limits.signals

/-- **The embedded round trip**: what `encode` has written is decoded to the same frames, and to
each signal as its wire value is read, which is the signal itself unless it is a raw value that
aliases another. -/
theorem decode_encode (target : Target) {signals : List Signal} {frames : List Frame}
    {output written : List UInt8} {n : Nat}
    (h : encode signals frames output = some (.ok n, written)) :
    Packet.decode target (written.take n) =
        .ok { signals := signals.map fun signal => Signal.fromWire signal.wireValue, frames } ∧
      ∀ signal ∈ signals, Signal.fromWire signal.wireValue = signal ↔ ¬ signal.Aliases := by
  refine ⟨?_, fun signal _ => signal.fromWire_wireValue_iff⟩
  rcases encode_cases signals frames output with
    ⟨hencodable, -, hcase⟩ | ⟨-, -, hcase⟩ | ⟨-, error, -, hcase⟩
  · rw [hcase] at h
    cases h
    rw [List.take_left]
    exact decode_canonical target hencodable
  · rw [hcase] at h
    cases h
  · rw [hcase] at h
    cases h

/-- A raw value that is the ringing status's, and two frames. -/
theorem decode_encode_alias :
    Packet.decode ⟨65535, by decide⟩
      [0x82, 0x00, 0x91, 0x04, 0x01, 0x92, 0xc4, 0x02, 0x01, 0x2a, 0xc4, 0x01, 0x02] =
        .ok { signals := [.status .ringing],
              frames :=
                [{ codec := .opus, payload := [0x2a] }, { codec := .codec2, payload := [] }] } := by
  have hwritten : encode [.raw 4]
      [{ codec := .opus, payload := [0x2a] }, { codec := .codec2, payload := [] }]
      (.replicate 14 0xa5) = some (.ok 13, [0x82, 0x00, 0x91, 0x04, 0x01, 0x92, 0xc4, 0x02, 0x01,
        0x2a, 0xc4, 0x01, 0x02, 0xa5]) := by
    decide +kernel
  exact (decode_encode ⟨65535, by decide⟩ hwritten).1

end Embedded.Wire

end Lxst
