import RsLxst.Core.Codec2
import RsLxst.Lib.Machine

/-!
# Codec2 packets are transparent and fail cleanly

The samples of a packet are a whole number of native frames (`Codec2PacketCodec.sizes`), so the two
loops have the same number of steps. `encodeInto_ok` and `decodeInto_ok` say which native calls a
successful operation made and where their outputs are; `decodeInto_inverts` is the round trip of a
packet and `packets_transparent` that of a stream, here of the codec `lowCodec`. `call_cases` says
how a call can fail, and `rejects_and_latches` what that means for a run of calls.
-/

set_option autoImplicit false

namespace Lxst.Codec2

open Blocks (equalBlocks)

variable {B C : Codec2Backend}

/-! ## The native calls of an operation -/

/-- A native call that succeeded: what it read, what was in the output and what is there now. -/
structure NativeCall (α β : Type) where
  input : List α
  before : List β
  after : List β

/-- The call `c` in the backend's state `s` leaves the state `s'`. -/
def Succeeds {α β : Type}
    (native : B.State → List α → List β → Except B.Error Unit × List β × B.State) (s : B.State)
    (c : NativeCall α β) (s' : B.State) : Prop :=
  native s c.input c.before = (.ok (), c.after, s')

/-- `blocks` are `xs` cut into consecutive windows of `size` items. -/
structure Windows {α : Type} (size : Nat) (xs : List α) (blocks : List (List α)) : Prop where
  whole : blocks.flatten = xs
  sizes : ∀ block ∈ blocks, block.length = size

theorem Windows.length {α : Type} {size : Nat} {xs : List α} {blocks : List (List α)}
    (h : Windows size xs blocks) : xs.length = blocks.length * size := by
  rw [← h.whole, Blocks.length_flatten_of_equal h.sizes]

/-- Two lists of windows of one list are the same. -/
theorem Windows.unique {α : Type} {size : Nat} {xs : List α} {blocks blocks' : List (List α)}
    (hsize : 0 < size) (h : Windows size xs blocks) (h' : Windows size xs blocks') :
    blocks = blocks' := by
  have hcount : blocks.length = blocks'.length :=
    Nat.eq_of_mul_eq_mul_right hsize (h.length.symm.trans h'.length)
  rw [(Blocks.eq_equalBlocks_iff h.length blocks).2 ⟨rfl, h.sizes, h.whole.symm⟩,
    (Blocks.eq_equalBlocks_iff h.length blocks').2 ⟨hcount.symm, h'.sizes, h'.whole.symm⟩]

theorem windows_chunksExact {α : Type} {size count : Nat} {xs : List α} (hsize : 0 < size)
    (h : xs.length = count * size) :
    Windows size xs (chunksExact size xs) ∧ (chunksExact size xs).length = count := by
  have hcount : xs.length / size = count := by
    rw [h, Nat.mul_div_cancel _ hsize]
  unfold chunksExact
  rw [hcount]
  obtain ⟨hlength, hsizes, hwhole⟩ := (Blocks.eq_equalBlocks_iff h _).1 rfl
  exact ⟨⟨hwhole.symm, hsizes⟩, hlength⟩

theorem chunksExact_flatten {α : Type} {size : Nat} (hsize : 0 < size) {blocks : List (List α)}
    (h : ∀ block ∈ blocks, block.length = size) : chunksExact size blocks.flatten = blocks := by
  have hwindows : Windows size blocks.flatten blocks := ⟨rfl, h⟩
  exact (windows_chunksExact hsize hwindows.length).1.unique hsize hwindows

/-- Two lists that are cut into equally many windows are taken window by window. -/
theorem windows_zip {α β : Type} {size size' count : Nat} {xs : List α} {ys : List β}
    (hsize : 0 < size) (hsize' : 0 < size') (h : xs.length = count * size)
    (h' : ys.length = count * size') :
    Windows size xs (((chunksExact size xs).zip (chunksExact size' ys)).map Prod.fst) ∧
      (∀ block ∈ ((chunksExact size xs).zip (chunksExact size' ys)).map Prod.snd,
        block.length = size') ∧
      ((chunksExact size xs).zip (chunksExact size' ys)).length = count := by
  obtain ⟨hinputs, hcount⟩ := windows_chunksExact hsize h
  obtain ⟨houtputs, hcount'⟩ := windows_chunksExact hsize' h'
  rw [List.map_fst_zip (by omega), List.map_snd_zip (by omega), List.length_zip, hcount, hcount',
    Nat.min_self]
  exact ⟨hinputs, houtputs.sizes, rfl⟩

namespace Codec2PacketCodec

/-! ## The sizes of a profile -/

/-- How many native frames a packet has. -/
def frameCount (self : Codec2PacketCodec B) : Nat := self.sampleFrames / self.nativeSamples

/-- The native frames take up a packet's samples, and none is empty. -/
theorem sizes (self : Codec2PacketCodec B) :
    0 < self.nativeSamples ∧ 0 < self.nativeBytes ∧ 0 < self.frameCount ∧
      self.sampleFrames = self.frameCount * self.nativeSamples := by
  have hframed := self.framed
  unfold frameCount sampleFrames
  generalize self.profile = profile at hframed ⊢
  generalize self.nativeSamples = samples at hframed ⊢
  generalize self.nativeBytes = bytes at hframed ⊢
  cases profile with
  | bandwidthUltraLow => cases hframed; decide
  | bandwidthVeryLow => cases hframed; decide
  | bandwidthLow => cases hframed; decide
  | qualityMedium => cases hframed
  | qualityHigh => cases hframed
  | qualityMax => cases hframed
  | latencyUltraLow => cases hframed
  | latencyLow => cases hframed

/-- Codecs of one profile have the same sizes and header. -/
theorem same_sizes {self : Codec2PacketCodec B} {other : Codec2PacketCodec C}
    (h : other.profile = self.profile) :
    other.mode = self.mode ∧ other.nativeSamples = self.nativeSamples ∧
      other.nativeBytes = self.nativeBytes ∧ other.sampleFrames = self.sampleFrames ∧
      other.payloadBytes = self.payloadBytes := by
  have hmode := other.matching
  rw [h, self.matching, AudioCodec.codec2.injEq] at hmode
  have hframed := other.framed
  rw [h, self.framed, Option.some.injEq, Prod.mk.injEq] at hframed
  have hsamples : other.sampleFrames = self.sampleFrames := by
    unfold sampleFrames
    rw [h]
  refine ⟨hmode.symm, hframed.1.symm, hframed.2.symm, hsamples, ?_⟩
  unfold payloadBytes
  rw [hsamples, hframed.1, hframed.2]

/-! ## A loop that succeeds -/

variable {α β : Type}
  {native : B.State → List α → List β → Except B.Error Unit × List β × B.State}

theorem nativeCalls_cons_ok {self : Codec2PacketCodec B} {input : List α} {output after : List β}
    {backend : B.State} (h : native self.backend input output = (.ok (), after, backend))
    (blocks : List (List α × List β)) :
    self.nativeCalls native ((input, output) :: blocks) =
      ((nativeCalls native { self with backend } blocks).1,
        after :: (nativeCalls native { self with backend } blocks).2.1,
        (nativeCalls native { self with backend } blocks).2.2) := by
  rw [nativeCalls, h]

theorem nativeCalls_cons_error {self : Codec2PacketCodec B} {input : List α}
    {output after : List β} {error : B.Error} {backend : B.State}
    (h : native self.backend input output = (.error error, after, backend))
    (blocks : List (List α × List β)) :
    self.nativeCalls native ((input, output) :: blocks) =
      (.error (.backend error), after :: blocks.map Prod.snd,
        { self with backend, failed := true }) := by
  rw [nativeCalls, h]

theorem nativeCalls_ok {self self' : Codec2PacketCodec B} {blocks : List (List α × List β)}
    {outputs : List (List β)} (h : self.nativeCalls native blocks = (.ok (), outputs, self')) :
    ∃ calls, Machine.Trace (Succeeds native) self.backend calls self'.backend ∧
      calls.map (·.input.input) = blocks.map Prod.fst ∧
      calls.map (·.input.before) = blocks.map Prod.snd ∧
      calls.map (·.input.after) = outputs ∧
      self' = { self with backend := self'.backend } := by
  induction blocks generalizing self outputs with
  | nil =>
    cases h
    exact ⟨[], .nil _, rfl, rfl, rfl, rfl⟩
  | cons block blocks ih =>
    obtain ⟨input, output⟩ := block
    rcases hnative : native self.backend input output with ⟨_ | _, after, backend⟩
    · rw [nativeCalls_cons_error hnative] at h
      cases h
    · rw [nativeCalls_cons_ok hnative] at h
      obtain ⟨hresult, houtputs, hself⟩ : _ ∧ _ ∧ _ := by simpa only [Prod.mk.injEq] using h
      obtain ⟨calls, htrace, hinputs, hbefore, hafter, hkept⟩ :=
        ih (Prod.ext hresult (Prod.ext rfl hself))
      refine ⟨⟨self.backend, ⟨input, output, after⟩, backend⟩ :: calls, .cons hnative htrace,
        ?_, ?_, ?_, hkept⟩
      · rw [List.map_cons, hinputs, List.map_cons]
      · rw [List.map_cons, hbefore, List.map_cons]
      · rw [List.map_cons, hafter, houtputs]

/-- The outputs of a loop over windows are windows of the same size. -/
theorem outputs_sizes {s s' : B.State} {calls : List (Machine.Transition B.State (NativeCall α β))}
    (hlength : ∀ s input output, (native s input output).2.1.length = output.length)
    (h : Machine.Trace (Succeeds native) s calls s') {size : Nat}
    (hbefore : ∀ block ∈ calls.map (·.input.before), block.length = size) :
    ∀ block ∈ calls.map (·.input.after), block.length = size := by
  have hcalls := Machine.Trace.transition (I := fun _ => True) (G := fun _ _ => True)
    (fun _ _ _ _ _ _ => trivial) h trivial (fun _ _ => trivial)
  intro block hblock
  obtain ⟨call, hcall, rfl⟩ := List.mem_map.1 hblock
  obtain ⟨-, hsucceeds, -⟩ := hcalls call hcall
  have hsame := hlength call.before call.input.input call.input.before
  rw [hsucceeds] at hsame
  exact hsame.trans (hbefore _ (List.mem_map_of_mem hcall))

/-- A loop over the windows of a list that succeeds. -/
theorem nativeCalls_windows {self self' : Codec2PacketCodec B} {blocks : List (List α × List β)}
    {outputs : List (List β)} {size size' count : Nat} {xs : List α}
    (hlength : ∀ s input output, (native s input output).2.1.length = output.length)
    (hwindows : Windows size xs (blocks.map Prod.fst))
    (hsizes : ∀ block ∈ blocks.map Prod.snd, block.length = size') (hcount : blocks.length = count)
    (h : self.nativeCalls native blocks = (.ok (), outputs, self')) :
    self' = { self with backend := self'.backend } ∧ outputs.flatten.length = count * size' ∧
      ∃ calls, Machine.Trace (Succeeds native) self.backend calls self'.backend ∧
        Windows size xs (calls.map (·.input.input)) ∧
        (∀ block ∈ calls.map (·.input.after), block.length = size') ∧ calls.length = count ∧
        calls.map (·.input.after) = outputs := by
  obtain ⟨calls, htrace, hinputs, hbefore, hafter, hkept⟩ := nativeCalls_ok h
  rw [← hinputs] at hwindows
  rw [← hbefore] at hsizes
  have hsizes' := outputs_sizes hlength htrace hsizes
  have hcalls : calls.length = count := by
    rw [← hcount, ← List.length_map (·.input.input), hinputs, List.length_map]
  refine ⟨hkept, ?_, calls, htrace, hwindows, hsizes', hcalls, hafter⟩
  rw [← hafter, Blocks.length_flatten_of_equal hsizes', List.length_map, hcalls]

theorem nativeCalls_error {self self' : Codec2PacketCodec B} {blocks : List (List α × List β)}
    {error : Codec2PacketError B.Error} {outputs : List (List β)}
    (h : self.nativeCalls native blocks = (.error error, outputs, self')) :
    self'.failed = true ∧ ∃ cause, error = .backend cause := by
  induction blocks generalizing self outputs with
  | nil => cases h
  | cons block blocks ih =>
    obtain ⟨input, output⟩ := block
    rcases hnative : native self.backend input output with ⟨cause | _, after, backend⟩
    · rw [nativeCalls_cons_error hnative] at h
      cases h
      exact ⟨rfl, cause, rfl⟩
    · rw [nativeCalls_cons_ok hnative] at h
      obtain ⟨hresult, -, hself⟩ : _ ∧ _ ∧ _ := by simpa only [Prod.mk.injEq] using h
      exact ih (Prod.ext hresult (Prod.ext rfl hself))

/-! ## The two operations -/

theorem ready_error {self : Codec2PacketCodec B} {error : Codec2PacketError B.Error}
    (h : self.ready = .error error) (cause : B.Error) : error ≠ .backend cause := by
  unfold ready at h
  split at h
  · cases h
    nofun
  split at h
  · cases h
    nofun
  · cases h

theorem ready_of_failed {self : Codec2PacketCodec B} (h : self.failed = true) :
    self.ready = .error .failed := by
  unfold ready
  rw [if_pos h]

/-- It is refused before the backend is called, or the backend fails, or it succeeds. -/
theorem encodeInto_cases (self : Codec2PacketCodec B) (pcm : List Int16) (output : List UInt8) :
    (∃ error, (∀ cause, error ≠ .backend cause) ∧
      self.encodeInto pcm output = (.error error, output, self)) ∨
    (∃ cause written self', self'.failed = true ∧
      self.encodeInto pcm output = (.error (.backend cause), written, self')) ∨
    (pcm.length = self.sampleFrames ∧ self.payloadBytes ≤ output.length ∧
      ∃ bytes self', self.nativeCalls B.encodeNative (self.encodeBlocks pcm output) =
          (.ok (), bytes, self') ∧
        self.encodeInto pcm output =
          (.ok self.payloadBytes, (overwrite 1 bytes output).set 0 self'.mode.header, self')) := by
  unfold encodeInto
  cases hready : self.ready with
  | error error => exact .inl ⟨error, ready_error hready, rfl⟩
  | ok _ =>
    dsimp only
    split
    · exact .inl ⟨_, (fun _ h => by cases h), rfl⟩
    rename_i hsamples
    split
    · exact .inl ⟨_, (fun _ h => by cases h), rfl⟩
    rename_i hcapacity
    rw [ne_eq, Decidable.not_not] at hsamples
    split
    · rename_i error bytes self' hcalls
      obtain ⟨hfailed, cause, rfl⟩ := nativeCalls_error hcalls
      exact .inr (.inl ⟨cause, _, self', hfailed, rfl⟩)
    · rename_i bytes self' hcalls
      exact .inr (.inr ⟨hsamples, Nat.not_lt.1 hcapacity, bytes, self', hcalls, rfl⟩)

theorem decodeInto_cases (self : Codec2PacketCodec B) (payload : List UInt8)
    (output : List Int16) :
    (∃ error, (∀ cause, error ≠ .backend cause) ∧
      self.decodeInto payload output = (.error error, output, self)) ∨
    (∃ cause decoded self', self'.failed = true ∧
      self.decodeInto payload output = (.error (.backend cause), decoded, self')) ∨
    (payload.length = self.payloadBytes ∧ self.sampleFrames ≤ output.length ∧
      ∃ samples self', self.nativeCalls B.decodeNative (self.decodeBlocks payload output) =
          (.ok (), samples, self') ∧
        self.decodeInto payload output =
          (.ok self.sampleFrames, overwrite 0 samples output, self')) := by
  unfold decodeInto
  cases hready : self.ready with
  | error error => exact .inl ⟨error, ready_error hready, rfl⟩
  | ok _ =>
    dsimp only
    split
    · exact .inl ⟨_, (fun _ h => by cases h), rfl⟩
    rename_i hlength
    split
    · exact .inl ⟨_, (fun _ h => by cases h), rfl⟩
    split
    · exact .inl ⟨_, (fun _ h => by cases h), rfl⟩
    rename_i hcapacity
    rw [ne_eq, Decidable.not_not] at hlength
    split
    · rename_i error samples self' hcalls
      obtain ⟨hfailed, cause, rfl⟩ := nativeCalls_error hcalls
      exact .inr (.inl ⟨cause, _, self', hfailed, rfl⟩)
    · rename_i samples self' hcalls
      exact .inr (.inr ⟨hlength, Nat.not_lt.1 hcapacity, samples, self', hcalls, rfl⟩)

theorem encodeInto_failed {self : Codec2PacketCodec B} (h : self.failed = true)
    (pcm : List Int16) (output : List UInt8) :
    self.encodeInto pcm output = (.error .failed, output, self) := by
  unfold encodeInto
  rw [ready_of_failed h]

theorem decodeInto_failed {self : Codec2PacketCodec B} (h : self.failed = true)
    (payload : List UInt8) (output : List Int16) :
    self.decodeInto payload output = (.error .failed, output, self) := by
  unfold decodeInto
  rw [ready_of_failed h]

/-- Where the blocks of a packet are, in a buffer that has room for it. -/
theorem encodeBlocks_windows (self : Codec2PacketCodec B) {pcm : List Int16} {output : List UInt8}
    (hpcm : pcm.length = self.sampleFrames) (houtput : self.payloadBytes ≤ output.length) :
    Windows self.nativeSamples pcm ((self.encodeBlocks pcm output).map Prod.fst) ∧
      (∀ block ∈ (self.encodeBlocks pcm output).map Prod.snd, block.length = self.nativeBytes) ∧
      (self.encodeBlocks pcm output).length = self.frameCount := by
  obtain ⟨hsamples, hbytes, -, hframes⟩ := self.sizes
  have hlength : ((output.take self.payloadBytes).drop 1).length =
      self.frameCount * self.nativeBytes := by
    rw [List.length_drop, List.length_take_of_le houtput]
    exact Nat.add_sub_cancel_left 1 _
  exact windows_zip hsamples hbytes (hpcm.trans hframes) hlength

theorem decodeBlocks_windows (self : Codec2PacketCodec B) {payload : List UInt8}
    {output : List Int16} (hpayload : payload.length = self.payloadBytes)
    (houtput : self.sampleFrames ≤ output.length) :
    Windows self.nativeBytes (payload.drop 1) ((self.decodeBlocks payload output).map Prod.fst) ∧
      (∀ block ∈ (self.decodeBlocks payload output).map Prod.snd,
        block.length = self.nativeSamples) ∧
      (self.decodeBlocks payload output).length = self.frameCount := by
  obtain ⟨hsamples, hbytes, -, hframes⟩ := self.sizes
  have hlength : (payload.drop 1).length = self.frameCount * self.nativeBytes := by
    rw [List.length_drop, hpayload]
    exact Nat.add_sub_cancel_left 1 _
  have hbuffer : (output.take self.sampleFrames).length = self.frameCount * self.nativeSamples :=
    (List.length_take_of_le houtput).trans hframes
  exact windows_zip hbytes hsamples hlength hbuffer

/-- A successful `encode_into` made its native calls on the windows of the PCM, in order; the
payload is the header and their outputs. -/
theorem encodeInto_ok {self self' : Codec2PacketCodec B} {pcm : List Int16}
    {output written : List UInt8} {n : Nat}
    (h : self.encodeInto pcm output = (.ok n, written, self')) :
    n = self.payloadBytes ∧ self' = { self with backend := self'.backend } ∧
      ∃ calls, Machine.Trace (Succeeds B.encodeNative) self.backend calls self'.backend ∧
        Windows self.nativeSamples pcm (calls.map (·.input.input)) ∧
        (∀ block ∈ calls.map (·.input.after), block.length = self.nativeBytes) ∧
        calls.length = self.frameCount ∧
        written = self.mode.header :: (calls.map (·.input.after)).flatten ++ output.drop n := by
  rcases self.encodeInto_cases pcm output with
    ⟨error, -, hcase⟩ | ⟨cause, _, _, -, hcase⟩ | ⟨hpcm, houtput, bytes, codec, hcalls, hcase⟩
  · rw [hcase] at h
    cases h
  · rw [hcase] at h
    cases h
  rw [hcase] at h
  cases h
  obtain ⟨hwindows, hsizes, hcount⟩ := self.encodeBlocks_windows hpcm houtput
  obtain ⟨hkept, hflat, calls, htrace, hinputs, houtputs, hlength, hafter⟩ :=
    nativeCalls_windows B.encodeNative_length hwindows hsizes hcount hcalls
  refine ⟨rfl, hkept, calls, htrace, hinputs, houtputs, hlength, ?_⟩
  have hmode : self'.mode = self.mode := by
    rw [hkept]
  cases output with
  | nil =>
    unfold payloadBytes at houtput
    rw [List.length_nil] at houtput
    omega
  | cons first rest =>
    unfold overwrite payloadBytes
    rw [hafter, hflat, hmode]
    rfl

/-- A successful `decode_into` made its native calls on the windows of the payload behind the
header, in order; the PCM is their outputs. -/
theorem decodeInto_ok {self self' : Codec2PacketCodec B} {payload : List UInt8}
    {output decoded : List Int16} {n : Nat}
    (h : self.decodeInto payload output = (.ok n, decoded, self')) :
    n = self.sampleFrames ∧
      ∃ calls, Machine.Trace (Succeeds B.decodeNative) self.backend calls self'.backend ∧
        Windows self.nativeBytes (payload.drop 1) (calls.map (·.input.input)) ∧
        (∀ block ∈ calls.map (·.input.after), block.length = self.nativeSamples) ∧
        calls.length = self.frameCount ∧
        decoded = (calls.map (·.input.after)).flatten ++ output.drop n := by
  rcases self.decodeInto_cases payload output with
    ⟨error, -, hcase⟩ | ⟨cause, _, _, -, hcase⟩ |
      ⟨hpayload, houtput, samples, codec, hcalls, hcase⟩
  · rw [hcase] at h
    cases h
  · rw [hcase] at h
    cases h
  rw [hcase] at h
  cases h
  obtain ⟨hwindows, hsizes, hcount⟩ := self.decodeBlocks_windows hpayload houtput
  obtain ⟨-, hflat, calls, htrace, hinputs, houtputs, hlength, hafter⟩ :=
    nativeCalls_windows B.decodeNative_length hwindows hsizes hcount hcalls
  refine ⟨rfl, calls, htrace, hinputs, houtputs, hlength, ?_⟩
  rw [← self.sizes.2.2.2] at hflat
  unfold overwrite
  rw [hafter, hflat, Nat.zero_add]
  rfl

theorem decodeInto_of_calls {self self' : Codec2PacketCodec B} {payload : List UInt8}
    {output : List Int16} {samples : List (List Int16)} (hready : self.ready = .ok ())
    (hpayload : payload.length = self.payloadBytes)
    (hheader : payload.head? = some self.mode.header)
    (houtput : self.sampleFrames ≤ output.length)
    (hcalls : self.nativeCalls B.decodeNative (self.decodeBlocks payload output) =
      (.ok (), samples, self')) :
    self.decodeInto payload output =
      (.ok self.sampleFrames, overwrite 0 samples output, self') := by
  have hlength : ¬ payload.length ≠ self.payloadBytes := not_not_intro hpayload
  have hhead : ¬ payload.head (ne_nil_of_length hlength) ≠ self.mode.header := by
    rw [List.head?_eq_some_head (ne_nil_of_length hlength), Option.some.injEq] at hheader
    exact not_not_intro hheader
  unfold decodeInto
  rw [hready]
  dsimp only
  rw [dif_neg hlength, if_neg hhead, if_neg (Nat.not_lt.2 houtput), hcalls]

/-- A loop whose native calls all succeed. -/
theorem nativeCalls_accepts {α β : Type} {size size' : Nat}
    {native : B.State → List α → List β → Except B.Error Unit × List β × B.State}
    (h : ∀ s input output, input.length = size → output.length = size' →
      ∃ after s', native s input output = (.ok (), after, s')) (self : Codec2PacketCodec B)
    {blocks : List (List α × List β)}
    (hinputs : ∀ block ∈ blocks.map Prod.fst, block.length = size)
    (houtputs : ∀ block ∈ blocks.map Prod.snd, block.length = size') :
    ∃ outputs backend, self.nativeCalls native blocks =
      (.ok (), outputs, { self with backend }) := by
  induction blocks generalizing self with
  | nil => exact ⟨[], self.backend, rfl⟩
  | cons block blocks ih =>
    rw [List.map_cons, List.forall_mem_cons] at hinputs houtputs
    obtain ⟨input, output⟩ := block
    obtain ⟨after, backend, hnative⟩ := h self.backend input output hinputs.1 houtputs.1
    obtain ⟨outputs, backend', hcalls⟩ := ih { self with backend } hinputs.2 houtputs.2
    refine ⟨after :: outputs, backend', ?_⟩
    rw [nativeCalls_cons_ok hnative, hcalls]

/-- Where the backend accepts every frame, every packet is encoded. -/
theorem encodeInto_accepts {self : Codec2PacketCodec B}
    (h : ∀ s input output, input.length = self.nativeSamples →
      output.length = self.nativeBytes →
      ∃ after s', B.encodeNative s input output = (.ok (), after, s'))
    (hready : self.ready = .ok ()) {pcm : List Int16} {output : List UInt8}
    (hpcm : pcm.length = self.sampleFrames) (houtput : self.payloadBytes ≤ output.length) :
    ∃ written backend, self.encodeInto pcm output =
      (.ok self.payloadBytes, written, { self with backend }) := by
  obtain ⟨hwindows, hsizes, -⟩ := self.encodeBlocks_windows hpcm houtput
  obtain ⟨bytes, backend, hcalls⟩ := nativeCalls_accepts h self hwindows.sizes hsizes
  refine ⟨(overwrite 1 bytes output).set 0 self.mode.header, backend, ?_⟩
  unfold encodeInto
  rw [hready]
  dsimp only
  rw [if_neg (not_not_intro hpcm), if_neg (Nat.not_lt.2 houtput), hcalls]

end Codec2PacketCodec

/-! ## Streams -/

/-- From the states `s` and `t` on, `C` decodes the `bytes` bytes that `B` encodes of each of the
frames, one after another, into these frames. -/
def Inverts (B C : Codec2Backend) (bytes : Nat) : List (List Int16) → B.State → C.State → Prop
  | [], _, _ => True
  | pcm :: frames, s, t =>
    ∀ before encoded s', before.length = bytes →
      B.encodeNative s pcm before = (.ok (), encoded, s') →
      ∀ output : List Int16, output.length = pcm.length →
        ∃ t', C.decodeNative t encoded output = (.ok (), pcm, t') ∧
          Inverts B C bytes frames s' t'

/-- A packet's PCM and the buffers of its two operations. -/
structure Packet where
  pcm : List Int16
  payload : List UInt8
  decoded : List Int16

/-- A packet is encoded and what was written is decoded. -/
def Carries (s : Codec2PacketCodec B × Codec2PacketCodec C) (packet : Packet)
    (s' : Codec2PacketCodec B × Codec2PacketCodec C) : Prop :=
  ∃ n written, s.1.encodeInto packet.pcm packet.payload = (.ok n, written, s'.1) ∧
    s'.2 = (s.2.decodeInto (written.take n) packet.decoded).2.2

namespace Codec2PacketCodec

/-- The decoder's loop over what the encoder's loop wrote. -/
theorem nativeCalls_inverts {s s' : B.State}
    {calls : List (Machine.Transition B.State (NativeCall Int16 UInt8))}
    (htrace : Machine.Trace (Succeeds B.encodeNative) s calls s') {frames : List (List Int16)}
    {size bytes : Nat} {outputs : List (List Int16)} (decoder : Codec2PacketCodec C)
    (hinverts : Inverts B C bytes (calls.map (·.input.input) ++ frames) s decoder.backend)
    (hbytes : ∀ block ∈ calls.map (·.input.after), block.length = bytes)
    (hinputs : ∀ block ∈ calls.map (·.input.input), block.length = size)
    (houtputs : ∀ block ∈ outputs, block.length = size) (hcount : outputs.length = calls.length) :
    ∃ t', decoder.nativeCalls C.decodeNative ((calls.map (·.input.after)).zip outputs) =
        (.ok (), calls.map (·.input.input), { decoder with backend := t' }) ∧
      Inverts B C bytes frames s' t' := by
  induction htrace generalizing decoder outputs with
  | nil s => exact ⟨decoder.backend, rfl, hinverts⟩
  | cons head tail ih =>
    rename_i s _ _ call calls
    cases outputs with
    | nil => cases hcount
    | cons output outputs =>
      rw [List.map_cons, List.forall_mem_cons] at hinputs hbytes
      rw [List.forall_mem_cons] at houtputs
      -- the call kept the length of its buffer
      have hkept := B.encodeNative_length s call.input call.before
      rw [head] at hkept
      obtain ⟨t, hdecode, hrest⟩ := hinverts _ _ _ (hkept.symm.trans hbytes.1) head output
        (houtputs.1.trans hinputs.1.symm)
      obtain ⟨t', hcalls, hfuture⟩ := ih { decoder with backend := t } hrest hbytes.2 hinputs.2
        houtputs.2 (Nat.succ.inj hcount)
      refine ⟨t', ?_, hfuture⟩
      rw [List.map_cons, List.zip_cons_cons, nativeCalls_cons_ok hdecode, hcalls]
      rfl

/-- The payload is the header and the native outputs. -/
theorem payload_of_blocks (self : Codec2PacketCodec B) {blocks : List (List UInt8)}
    (hsizes : ∀ block ∈ blocks, block.length = self.nativeBytes)
    (hcount : blocks.length = self.frameCount) (rest : List UInt8) :
    (self.mode.header :: blocks.flatten).length = self.payloadBytes ∧
      (self.mode.header :: blocks.flatten ++ rest).take self.payloadBytes =
        self.mode.header :: blocks.flatten := by
  have hlength : (self.mode.header :: blocks.flatten).length = self.payloadBytes := by
    rw [List.length_cons, Blocks.length_flatten_of_equal hsizes, hcount, Nat.add_comm]
    rfl
  exact ⟨hlength, List.take_left' hlength⟩

/-- A packet that was encoded is decoded into its PCM. -/
theorem decodeInto_inverts {encoder encoder' : Codec2PacketCodec B} {decoder : Codec2PacketCodec C}
    (hprofile : decoder.profile = encoder.profile) (hready : decoder.ready = .ok ())
    {pcm : List Int16} {output written : List UInt8} {n : Nat}
    (h : encoder.encodeInto pcm output = (.ok n, written, encoder')) {frames : List (List Int16)}
    (hinverts : Inverts B C encoder.nativeBytes (chunksExact encoder.nativeSamples pcm ++ frames)
      encoder.backend decoder.backend) {decoded : List Int16}
    (hroom : decoder.sampleFrames ≤ decoded.length) :
    ∃ t', decoder.decodeInto (written.take n) decoded =
        (.ok decoder.sampleFrames, pcm ++ decoded.drop decoder.sampleFrames,
          { decoder with backend := t' }) ∧
      Inverts B C encoder.nativeBytes frames encoder'.backend t' := by
  obtain ⟨hmode, hsamples, hbytes, hframes, hpayload⟩ := same_sizes hprofile
  obtain ⟨hn, -, calls, htrace, hinputs, hsizes, hcount, rfl⟩ := encodeInto_ok h
  obtain ⟨hpos, hposBytes, -, hwhole⟩ := encoder.sizes
  have hafter : (calls.map (·.input.after)).length = encoder.frameCount := by
    rw [List.length_map, hcount]
  obtain ⟨hlength, htake⟩ := encoder.payload_of_blocks hsizes hafter (output.drop n)
  rw [hn] at htake ⊢
  rw [htake]
  have hpcm : pcm.length = encoder.frameCount * encoder.nativeSamples := by
    rw [hinputs.length, List.length_map, hcount]
  have hchunks : calls.map (·.input.input) = chunksExact encoder.nativeSamples pcm :=
    hinputs.unique hpos (windows_chunksExact hpos hpcm).1
  rw [← hchunks] at hinverts
  have hbuffer : (decoded.take decoder.sampleFrames).length =
      encoder.frameCount * encoder.nativeSamples := by
    rw [List.length_take_of_le hroom, hframes, hwhole]
  obtain ⟨houtputs, houtputCount⟩ := windows_chunksExact hpos hbuffer
  obtain ⟨t', hcalls, hfuture⟩ := nativeCalls_inverts htrace decoder hinverts hsizes
    hinputs.sizes houtputs.sizes (houtputCount.trans hcount.symm)
  have hblocks : decoder.decodeBlocks
      (encoder.mode.header :: (calls.map (·.input.after)).flatten) decoded =
        (calls.map (·.input.after)).zip
          (chunksExact encoder.nativeSamples (decoded.take decoder.sampleFrames)) := by
    have hflat := Blocks.length_flatten_of_equal hsizes
    have hencoded : chunksExact encoder.nativeBytes (calls.map (·.input.after)).flatten =
        calls.map (·.input.after) :=
      (windows_chunksExact hposBytes hflat).1.unique hposBytes ⟨rfl, hsizes⟩
    unfold decodeBlocks
    rw [hbytes, hsamples, List.drop_one, List.tail_cons, hencoded]
  rw [← hblocks] at hcalls
  refine ⟨t', ?_, hfuture⟩
  rw [decodeInto_of_calls hready ?_ ?_ hroom hcalls]
  · unfold overwrite
    rw [hinputs.whole, List.take_zero, List.nil_append, Nat.zero_add, hpcm, hframes, hwhole]
  · rw [hpayload, hlength]
  · rw [hmode]
    rfl

theorem ready_of_mode {self : Codec2PacketCodec B} (hfailed : self.failed = false)
    (hmode : B.mode self.backend = self.mode) : self.ready = .ok () := by
  unfold ready
  rw [hfailed, if_neg Bool.false_ne_true, if_neg (not_not_intro hmode)]

/-- Every packet of a stream is decoded into its PCM. -/
theorem stream_inverts {s s' : Codec2PacketCodec B × Codec2PacketCodec C}
    {packets : List (Machine.Transition _ Packet)} (h : Machine.Trace Carries s packets s')
    (hprofile : s.2.profile = s.1.profile) (hfailed : s.2.failed = false)
    (hmode : ∀ t, C.mode t = s.2.mode)
    (hinverts : Inverts B C s.1.nativeBytes (packets.flatMap fun packet =>
      chunksExact s.1.nativeSamples packet.input.pcm) s.1.backend s.2.backend)
    (hroom : ∀ packet ∈ packets, s.2.sampleFrames ≤ packet.input.decoded.length) :
    ∀ packet ∈ packets, ∃ n written,
      packet.before.1.encodeInto packet.input.pcm packet.input.payload =
        (.ok n, written, packet.after.1) ∧
      packet.before.2.decodeInto (written.take n) packet.input.decoded =
        (.ok s.2.sampleFrames, packet.input.pcm ++ packet.input.decoded.drop s.2.sampleFrames,
          packet.after.2) := by
  induction h with
  | nil s => exact fun _ hmem => absurd hmem List.not_mem_nil
  | cons head tail ih =>
    rename_i s middle _ packet packets
    obtain ⟨n, written, hencode, hdecoder⟩ := head
    rw [List.flatMap_cons] at hinverts
    rw [List.forall_mem_cons] at hroom
    obtain ⟨t', hdecode, hfuture⟩ := decodeInto_inverts hprofile
      (ready_of_mode hfailed (hmode _)) hencode hinverts hroom.1
    obtain ⟨-, hkept, -⟩ := encodeInto_ok hencode
    have hsame : middle.1.profile = s.1.profile ∧
        middle.1.nativeSamples = s.1.nativeSamples ∧
        middle.1.nativeBytes = s.1.nativeBytes := by
      rw [hkept]
      exact ⟨rfl, rfl, rfl⟩
    obtain ⟨encoder, codec⟩ := middle
    obtain rfl : codec = { s.2 with backend := t' } := by
      rw [hdecode] at hdecoder
      exact hdecoder
    have hrest := ih (hprofile.trans hsame.1.symm) hfailed hmode
      (by rw [hsame.2.1, hsame.2.2]; exact hfuture) hroom.2
    exact List.forall_mem_cons.2 ⟨⟨n, written, hencode, hdecode⟩, hrest⟩

end Codec2PacketCodec

/-! ## A backend of mode 3200 -/

/-- A frame of 160 samples that begins with the given bytes and ends in silence. -/
def lowFrame (bytes : List UInt8) : List Int16 :=
  bytes.map (fun byte => byte.toUInt16.toInt16) ++ List.replicate (160 - bytes.length) 0

/-- The low bytes of a frame's first eight samples, moved by the number of the frame. Buffers of
other than the native sizes are refused. -/
def encodeLow (count : UInt8) (pcm : List Int16) (encoded : List UInt8) :
    Except Unit Unit × List UInt8 × UInt8 :=
  if pcm.length = 160 ∧ encoded.length = 8 then
    (.ok (), (pcm.take 8).map fun sample => sample.toUInt16.toUInt8 + count, count + 1)
  else (.error (), encoded, count)

def decodeLow (count : UInt8) (encoded : List UInt8) (pcm : List Int16) :
    Except Unit Unit × List Int16 × UInt8 :=
  if encoded.length = 8 ∧ pcm.length = 160 then
    (.ok (), lowFrame (encoded.map fun byte => byte - count), count + 1)
  else (.error (), pcm, count)

theorem lowFrame_length {bytes : List UInt8} (h : bytes.length = 8) :
    (lowFrame bytes).length = 160 := by
  simp [lowFrame, h]

theorem encodeLow_lowFrame {bytes before : List UInt8} (h : bytes.length = 8)
    (hbefore : before.length = 8) (count : UInt8) :
    encodeLow count (lowFrame bytes) before =
      (.ok (), bytes.map (fun byte => byte + count), count + 1) := by
  rw [encodeLow, if_pos ⟨lowFrame_length h, hbefore⟩, lowFrame, List.take_left' (by simpa using h)]
  simp

theorem decodeLow_moved {bytes : List UInt8} (h : bytes.length = 8) (count : UInt8)
    {output : List Int16} (houtput : output.length = 160) :
    decodeLow count (bytes.map fun byte => byte + count) output =
      (.ok (), lowFrame bytes, count + 1) := by
  have hback : (bytes.map fun byte => byte + count).map (fun byte => byte - count) = bytes := by
    simp [Function.comp_def]
  rw [decodeLow, if_pos ⟨by simpa using h, houtput⟩, hback]

/-- A backend that counts its frames. -/
def lowBytes : Codec2Backend where
  State := UInt8
  Error := Unit
  mode _ := .mode3200
  encodeNative := encodeLow
  decodeNative := decodeLow
  encodeNative_length := by
    intro count pcm encoded
    unfold encodeLow
    split
    · rename_i h
      simp [h.1, h.2]
    · rfl
  decodeNative_length := by
    intro count encoded pcm
    unfold decodeLow
    split
    · rename_i h
      rw [h.2]
      exact lowFrame_length (by simpa using h.1)
    · rfl

/-- It inverts itself on these frames, as long as both ends count alike. -/
theorem lowBytes_inverts {frames : List (List UInt8)} (h : ∀ bytes ∈ frames, bytes.length = 8)
    (count : UInt8) : Inverts lowBytes lowBytes 8 (frames.map lowFrame) count count := by
  induction frames generalizing count with
  | nil => trivial
  | cons bytes frames ih =>
    rw [List.forall_mem_cons] at h
    intro before encoded s' hbefore hencode output houtput
    have hencoded := (encodeLow_lowFrame h.1 hbefore count).symm.trans hencode
    cases hencoded
    exact ⟨count + 1, decodeLow_moved h.1 count (houtput.trans (lowFrame_length h.1)),
      ih h.2 (count + 1)⟩

/-- It encodes every frame. -/
theorem lowBytes_accepts (count : UInt8) (pcm : List Int16) (encoded : List UInt8)
    (hpcm : pcm.length = 160) (hencoded : encoded.length = 8) :
    ∃ after count', lowBytes.encodeNative count pcm encoded = (.ok (), after, count') :=
  ⟨_, _, if_pos ⟨hpcm, hencoded⟩⟩

/-- A codec of mode 3200 with this backend. -/
def lowCodec (count : UInt8) : Codec2PacketCodec lowBytes where
  backend := count
  profile := .bandwidthLow
  mode := .mode3200
  nativeSamples := 160
  nativeBytes := 8
  failed := false
  matching := rfl
  framed := rfl

theorem lowCodec_sampleFrames (count : UInt8) : (lowCodec count).sampleFrames = 1600 := by
  show Profile.sampleFramesPerPacket .bandwidthLow = 1600
  decide

theorem lowCodec_encodes (count : UInt8) {pcm : List Int16} (hpcm : pcm.length = 1600) :
    ∃ written count', (lowCodec count).encodeInto pcm (List.replicate 81 0) =
      (.ok 81, written, lowCodec count') := by
  have hbytes : (lowCodec count).payloadBytes = 81 := by
    show 1 + (lowCodec count).sampleFrames / 160 * 8 = 81
    rw [lowCodec_sampleFrames]
  have hroom : (lowCodec count).payloadBytes ≤ (List.replicate 81 (0 : UInt8)).length := by
    simp [hbytes]
  obtain ⟨written, count', h⟩ := Codec2PacketCodec.encodeInto_accepts lowBytes_accepts rfl
    (hpcm.trans (lowCodec_sampleFrames count).symm) hroom
  rw [hbytes] at h
  exact ⟨written, count', h⟩

open Codec2PacketCodec in
/-- **Packets are transparent.** What a successful `encode_into` writes is the mode header and the
outputs of the native calls on the consecutive windows of the PCM; a successful `decode_into` of it
makes its native calls on these outputs, in order, and its PCM is theirs. The buffers are as they
were behind what is returned. So where the decoding backend inverts the encoding one along a stream
of packets, each is decoded into its PCM. -/
theorem packets_transparent (encoder : Codec2PacketCodec B) (decoder : Codec2PacketCodec C) :
    (∀ pcm output n written encoder',
      encoder.encodeInto pcm output = (.ok n, written, encoder') →
      n = encoder.payloadBytes ∧
      ∃ calls, Machine.Trace (Succeeds B.encodeNative) encoder.backend calls encoder'.backend ∧
        Windows encoder.nativeSamples pcm (calls.map (·.input.input)) ∧
        (∀ block ∈ calls.map (·.input.after), block.length = encoder.nativeBytes) ∧
        written = encoder.mode.header :: (calls.map (·.input.after)).flatten ++ output.drop n ∧
        (decoder.profile = encoder.profile → ∀ buffer m decoded decoder',
          decoder.decodeInto (written.take n) buffer = (.ok m, decoded, decoder') →
          m = decoder.sampleFrames ∧ ∃ calls',
            Machine.Trace (Succeeds C.decodeNative) decoder.backend calls' decoder'.backend ∧
            calls'.map (·.input.input) = calls.map (·.input.after) ∧
            (∀ block ∈ calls'.map (·.input.after), block.length = decoder.nativeSamples) ∧
            decoded = (calls'.map (·.input.after)).flatten ++ buffer.drop m)) ∧
    (decoder.profile = encoder.profile → decoder.failed = false →
      (∀ t, C.mode t = decoder.mode) → ∀ packets s',
        Machine.Trace Carries (encoder, decoder) packets s' →
        Inverts B C encoder.nativeBytes (packets.flatMap fun packet =>
          chunksExact encoder.nativeSamples packet.input.pcm) encoder.backend decoder.backend →
        (∀ packet ∈ packets, decoder.sampleFrames ≤ packet.input.decoded.length) →
        ∀ packet ∈ packets, ∃ n written,
          packet.before.1.encodeInto packet.input.pcm packet.input.payload =
            (.ok n, written, packet.after.1) ∧
          packet.before.2.decodeInto (written.take n) packet.input.decoded =
            (.ok decoder.sampleFrames,
              packet.input.pcm ++ packet.input.decoded.drop decoder.sampleFrames,
              packet.after.2)) := by
  refine ⟨fun pcm output n written encoder' h => ?_, fun hprofile hfailed hmode packets s' h =>
    stream_inverts h hprofile hfailed hmode⟩
  obtain ⟨hn, -, calls, htrace, hwindows, hsizes, hcount, hwritten⟩ := encodeInto_ok h
  refine ⟨hn, calls, htrace, hwindows, hsizes, hwritten, ?_⟩
  intro hprofile buffer m decoded decoder' hdecode
  obtain ⟨hm, calls', htrace', hwindows', hsizes', hcount', hdecoded⟩ := decodeInto_ok hdecode
  refine ⟨hm, calls', htrace', ?_, hsizes', hdecoded⟩
  obtain ⟨-, -, hbytes, -, -⟩ := same_sizes hprofile
  have hpayload : (written.take n).drop 1 = (calls.map (·.input.after)).flatten := by
    have hafter : (calls.map (·.input.after)).length = encoder.frameCount := by
      rw [List.length_map, hcount]
    obtain ⟨-, htake⟩ := encoder.payload_of_blocks hsizes hafter (output.drop n)
    rw [hn] at htake
    rw [hwritten, hn, htake]
    rfl
  rw [hpayload, hbytes] at hwindows'
  exact hwindows'.unique encoder.sizes.2.1 ⟨rfl, hsizes⟩

/-- Two packets of ten frames each. -/
theorem packets_transparent_low :
    let frames (byte : UInt8) := List.replicate 10 ((List.range 8).map fun i => byte + .ofNat i)
    let packet (byte : UInt8) : Packet :=
      { pcm := ((frames byte).map lowFrame).flatten, payload := List.replicate 81 0,
        decoded := List.replicate 1602 7 }
    Codec2PacketCodec.new .bandwidthLow (lowCodec 250).backend = .ok (lowCodec 250) ∧
    ∃ packets s', Machine.Trace Carries (lowCodec 250, lowCodec 250) packets s' ∧
      packets.map (·.input) = [packet 3, packet 200] ∧
      ∀ packet ∈ packets, ∃ n written,
        packet.before.1.encodeInto packet.input.pcm packet.input.payload =
          (.ok n, written, packet.after.1) ∧
        packet.before.2.decodeInto (written.take n) packet.input.decoded =
          (.ok 1600, packet.input.pcm ++ packet.input.decoded.drop 1600, packet.after.2) := by
  intro frames packet
  have hheads (byte : UInt8) : ∀ head ∈ frames byte, head.length = 8 := by
    intro head hhead
    rw [List.eq_of_mem_replicate hhead]
    simp
  have hsizes (byte : UInt8) : ∀ frame ∈ (frames byte).map lowFrame, frame.length = 160 := by
    intro frame hframe
    obtain ⟨head, hhead, rfl⟩ := List.mem_map.1 hframe
    exact lowFrame_length (hheads byte head hhead)
  have hpcm (byte : UInt8) : (packet byte).pcm.length = 1600 := by
    show (((frames byte).map lowFrame).flatten).length = 1600
    rw [Blocks.length_flatten_of_equal (hsizes byte)]
    simp [frames]
  obtain ⟨written, count, hfirst⟩ := lowCodec_encodes 250 (hpcm 3)
  obtain ⟨written', count', hsecond⟩ := lowCodec_encodes count (hpcm 200)
  let decoder := ((lowCodec 250).decodeInto (written.take 81) (packet 3).decoded).2.2
  let decoder' := (decoder.decodeInto (written'.take 81) (packet 200).decoded).2.2
  have htrace : Machine.Trace Carries (lowCodec 250, lowCodec 250)
      [⟨(lowCodec 250, lowCodec 250), packet 3, (lowCodec count, decoder)⟩,
        ⟨(lowCodec count, decoder), packet 200, (lowCodec count', decoder')⟩]
      (lowCodec count', decoder') :=
    .cons ⟨81, written, hfirst, rfl⟩ (.cons ⟨81, written', hsecond, rfl⟩ (.nil _))
  have hinverts : Inverts lowBytes lowBytes 8
      ([packet 3, packet 200].flatMap fun packet => chunksExact 160 packet.pcm)
      (250 : UInt8) (250 : UInt8) := by
    have hframes := lowBytes_inverts (List.forall_mem_append.2 ⟨hheads 3, hheads 200⟩) 250
    rw [List.map_append] at hframes
    simp only [List.flatMap_cons, List.flatMap_nil, List.append_nil]
    show Inverts _ _ _ (chunksExact 160 ((frames 3).map lowFrame).flatten ++
      chunksExact 160 ((frames 200).map lowFrame).flatten) _ _
    rw [chunksExact_flatten (by decide) (hsizes 3), chunksExact_flatten (by decide) (hsizes 200)]
    exact hframes
  refine ⟨rfl, _, _, htrace, rfl, ?_⟩
  have hroom (byte : UInt8) : (lowCodec 250).sampleFrames ≤ (packet byte).decoded.length := by
    rw [lowCodec_sampleFrames, List.length_replicate]
    decide
  rw [← lowCodec_sampleFrames 250]
  apply (packets_transparent (lowCodec 250) (lowCodec 250)).2 rfl rfl (fun _ => rfl) _ _ htrace
    hinverts
  simp only [List.forall_mem_cons]
  exact ⟨hroom 3, hroom 200, fun _ hmem => absurd hmem List.not_mem_nil⟩

/-! ## Runs of calls -/

/-- The call's outcome when it fails and its buffer is as it was. -/
def Call.refused {ε : Type} (error : Codec2PacketError ε) : Call → Outcome ε
  | .encode _ output => .encoded (.error error) output
  | .decode _ output => .decoded (.error error) output

def Outcome.error? {ε : Type} : Outcome ε → Option (Codec2PacketError ε)
  | .encoded (.error error) _ => some error
  | .decoded (.error error) _ => some error
  | _ => none

namespace Codec2PacketCodec

theorem call_encode (self : Codec2PacketCodec B) (pcm : List Int16) (output : List UInt8) :
    self.call (.encode pcm output) = ((self.encodeInto pcm output).2.2,
      [.encoded (self.encodeInto pcm output).1 (self.encodeInto pcm output).2.1]) := rfl

theorem call_decode (self : Codec2PacketCodec B) (payload : List UInt8) (output : List Int16) :
    self.call (.decode payload output) = ((self.decodeInto payload output).2.2,
      [.decoded (self.decodeInto payload output).1 (self.decodeInto payload output).2.1]) := rfl

theorem call_cases (self : Codec2PacketCodec B) (c : Call) :
    (∃ error, (∀ cause, error ≠ .backend cause) ∧ self.call c = (self, [c.refused error])) ∨
    (∃ cause outcome self', self'.failed = true ∧ outcome.error? = some (.backend cause) ∧
      self.call c = (self', [outcome])) ∨
    ∃ outcome self', outcome.error? = none ∧ self.call c = (self', [outcome]) := by
  cases c with
  | encode pcm output =>
    rw [call_encode]
    rcases self.encodeInto_cases pcm output with
      ⟨error, herror, h⟩ | ⟨cause, written, self', hfailed, h⟩ | ⟨-, -, bytes, self', -, h⟩
    · rw [h]
      exact .inl ⟨error, herror, rfl⟩
    · rw [h]
      exact .inr (.inl ⟨cause, _, self', hfailed, rfl, rfl⟩)
    · rw [h]
      exact .inr (.inr ⟨_, self', rfl, rfl⟩)
  | decode payload output =>
    rw [call_decode]
    rcases self.decodeInto_cases payload output with
      ⟨error, herror, h⟩ | ⟨cause, decoded, self', hfailed, h⟩ | ⟨-, -, samples, self', -, h⟩
    · rw [h]
      exact .inl ⟨error, herror, rfl⟩
    · rw [h]
      exact .inr (.inl ⟨cause, _, self', hfailed, rfl, rfl⟩)
    · rw [h]
      exact .inr (.inr ⟨_, self', rfl, rfl⟩)

theorem call_failed {self : Codec2PacketCodec B} (h : self.failed = true) (c : Call) :
    self.call c = (self, [c.refused .failed]) := by
  cases c with
  | encode pcm output =>
    rw [call_encode, encodeInto_failed h]
    rfl
  | decode payload output =>
    rw [call_decode, decodeInto_failed h]
    rfl

/-- A failed codec stays as it is. -/
theorem run_failed {self : Codec2PacketCodec B} (h : self.failed = true) (cs : List Call) :
    Machine.run call self cs = self ∧
      Machine.output call self cs = cs.map (Call.refused .failed) := by
  induction cs with
  | nil => exact ⟨rfl, rfl⟩
  | cons c cs ih =>
    rw [Machine.run_cons, Machine.output_cons, call_failed h]
    exact ⟨ih.1, congrArg (Call.refused .failed c :: ·) ih.2⟩

end Codec2PacketCodec

/-! ## The record of the native calls -/

/-- What a native call read and what it left in its output. -/
inductive NativeRecord
  | encode (pcm : List Int16) (encoded : List UInt8)
  | decode (encoded : List UInt8) (pcm : List Int16)

/-- The backend `B`, which also keeps a record of the native calls. -/
def Codec2Backend.recording (B : Codec2Backend) : Codec2Backend where
  State := B.State × List NativeRecord
  Error := B.Error
  mode s := B.mode s.1
  encodeNative s pcm encoded :=
    let (result, encoded, state) := B.encodeNative s.1 pcm encoded
    (result, encoded, state, s.2 ++ [.encode pcm encoded])
  decodeNative s encoded pcm :=
    let (result, pcm, state) := B.decodeNative s.1 encoded pcm
    (result, pcm, state, s.2 ++ [.decode encoded pcm])
  encodeNative_length s := B.encodeNative_length s.1
  decodeNative_length s := B.decodeNative_length s.1

namespace Codec2PacketCodec

def erase (self : Codec2PacketCodec B.recording) : Codec2PacketCodec B :=
  { self with backend := self.backend.1 }

theorem ready_erase (self : Codec2PacketCodec B.recording) : self.erase.ready = self.ready := rfl

theorem nativeCalls_erase {α β : Type}
    (native : B.State → List α → List β → Except B.Error Unit × List β × B.State)
    (recorded : B.recording.State → List α → List β →
      Except B.Error Unit × List β × B.recording.State)
    (h : ∀ s input output, native s.1 input output =
      ((recorded s input output).1, (recorded s input output).2.1,
        (recorded s input output).2.2.1))
    (self : Codec2PacketCodec B.recording) (blocks : List (List α × List β)) :
    self.erase.nativeCalls native blocks =
      ((self.nativeCalls recorded blocks).1, (self.nativeCalls recorded blocks).2.1,
        (self.nativeCalls recorded blocks).2.2.erase) := by
  induction blocks generalizing self with
  | nil => rfl
  | cons block blocks ih =>
    obtain ⟨input, output⟩ := block
    have hnative := h self.backend input output
    rcases hrecorded : recorded self.backend input output with ⟨error | _, after, backend⟩
    · rw [hrecorded] at hnative
      rw [nativeCalls_cons_error hrecorded, nativeCalls_cons_error hnative]
      rfl
    · rw [hrecorded] at hnative
      rw [nativeCalls_cons_ok hrecorded, nativeCalls_cons_ok hnative]
      have hrest := ih { self with backend }
      have herase : erase { self with backend } = { self.erase with backend := backend.1 } := rfl
      rw [herase] at hrest
      rw [hrest]
      rfl

theorem encodeInto_erase (self : Codec2PacketCodec B.recording) (pcm : List Int16)
    (output : List UInt8) :
    self.erase.encodeInto pcm output = ((self.encodeInto pcm output).1,
      (self.encodeInto pcm output).2.1, (self.encodeInto pcm output).2.2.erase) := by
  have hblocks : self.erase.encodeBlocks pcm output = self.encodeBlocks pcm output := rfl
  have hcalls := nativeCalls_erase B.encodeNative B.recording.encodeNative
    (fun _ _ _ => rfl) self (self.encodeBlocks pcm output)
  unfold encodeInto
  rw [ready_erase]
  cases self.ready with
  | error error => rfl
  | ok _ =>
    dsimp only
    by_cases hsamples : pcm.length ≠ self.sampleFrames
    · rw [if_pos hsamples]
      exact if_pos hsamples
    rw [if_neg hsamples]
    by_cases hcapacity : output.length < self.payloadBytes
    · rw [if_pos hcapacity]
      exact (if_neg hsamples).trans (if_pos hcapacity)
    rw [if_neg hcapacity]
    refine (if_neg hsamples).trans ((if_neg hcapacity).trans ?_)
    rw [hblocks, hcalls]
    rcases self.nativeCalls B.recording.encodeNative (self.encodeBlocks pcm output) with
      ⟨error | _, blocks, self'⟩
    · rfl
    · rfl

theorem decodeInto_erase (self : Codec2PacketCodec B.recording) (payload : List UInt8)
    (output : List Int16) :
    self.erase.decodeInto payload output = ((self.decodeInto payload output).1,
      (self.decodeInto payload output).2.1, (self.decodeInto payload output).2.2.erase) := by
  have hblocks : self.erase.decodeBlocks payload output = self.decodeBlocks payload output := rfl
  have hcalls := nativeCalls_erase B.decodeNative B.recording.decodeNative
    (fun _ _ _ => rfl) self (self.decodeBlocks payload output)
  unfold decodeInto
  rw [ready_erase]
  cases self.ready with
  | error error => rfl
  | ok _ =>
    dsimp only
    by_cases hlength : payload.length ≠ self.payloadBytes
    · rw [dif_pos hlength]
      exact dif_pos hlength
    rw [dif_neg hlength]
    refine (dif_neg hlength).trans ?_
    by_cases hheader : payload.head (ne_nil_of_length hlength) ≠ self.mode.header
    · rw [if_pos hheader]
      exact if_pos hheader
    rw [if_neg hheader]
    refine (if_neg hheader).trans ?_
    by_cases hcapacity : output.length < self.sampleFrames
    · rw [if_pos hcapacity]
      exact if_pos hcapacity
    rw [if_neg hcapacity]
    refine (if_neg hcapacity).trans ?_
    rw [hblocks, hcalls]
    rcases self.nativeCalls B.recording.decodeNative (self.decodeBlocks payload output) with
      ⟨error | _, blocks, self'⟩
    · rfl
    · rfl

theorem call_erase (self : Codec2PacketCodec B.recording) (c : Call) :
    self.erase.call c = ((self.call c).1.erase, (self.call c).2) := by
  cases c with
  | encode pcm output =>
    rw [call_encode, call_encode, encodeInto_erase]
    rfl
  | decode payload output =>
    rw [call_decode, call_decode, decodeInto_erase]
    rfl

end Codec2PacketCodec

open Codec2PacketCodec in
/-- **A rejected call changes nothing and a backend failure latches.** Let `outcome` be that of
`c` after the calls `before`, an error. If the error is not of the backend, the call's buffer, the
codec and the record of native calls are as they were, and the calls `after` have the results that
they have without `c`. If it is, each call of `after` fails with `Failed`, leaves its buffer as it
was and makes no native call. The record changes no result. -/
theorem rejects_and_latches (self : Codec2PacketCodec B.recording) (before : List Call) (c : Call)
    (after : List Call) (outcome : Outcome B.recording.Error)
    (error : Codec2PacketError B.recording.Error) :
    (((Machine.run call self before).call c).2 = [outcome] → outcome.error? = some error →
      ((∀ cause, error ≠ .backend cause) →
        outcome = c.refused error ∧
        Machine.run call self (before ++ [c]) = Machine.run call self before ∧
        Machine.run call self (before ++ c :: after) = Machine.run call self (before ++ after) ∧
        ∃ results,
          Machine.output call self (before ++ after) =
            Machine.output call self before ++ results ∧
          Machine.output call self (before ++ c :: after) =
            Machine.output call self before ++ outcome :: results) ∧
      ((∃ cause, error = .backend cause) →
        Machine.run call self (before ++ c :: after) = Machine.run call self (before ++ [c]) ∧
        Machine.output call self (before ++ c :: after) =
          Machine.output call self before ++ outcome :: after.map (Call.refused .failed))) ∧
    Machine.run call self.erase before = (Machine.run call self before).erase ∧
    Machine.output call self.erase before = Machine.output call self before := by
  refine ⟨fun houtcome herror => ?_, Machine.run_project call call_erase self before⟩
  simp only [Machine.run_append, Machine.output_append, Machine.run_cons, Machine.output_cons,
    Machine.run_nil]
  rcases (Machine.run call self before).call_cases c with
    ⟨error', hrejected, h⟩ | ⟨cause, outcome', self', hfailed, hcause, h⟩ |
      ⟨outcome', self', hok, h⟩
  · rw [h, List.cons.injEq] at houtcome
    obtain ⟨rfl, -⟩ := houtcome
    have herror' : (c.refused error').error? = some error' := by cases c <;> rfl
    obtain rfl : error' = error := Option.some.inj (herror'.symm.trans herror)
    rw [h]
    refine ⟨fun _ => ⟨rfl, rfl, rfl, _, rfl, rfl⟩, fun ⟨cause, hcause⟩ => ?_⟩
    exact absurd hcause (hrejected cause)
  · rw [h, List.cons.injEq] at houtcome
    obtain ⟨rfl, -⟩ := houtcome
    obtain rfl : .backend cause = error := Option.some.inj (hcause.symm.trans herror)
    rw [h]
    obtain ⟨hrun, houtput⟩ := run_failed hfailed after
    refine ⟨fun hnot => absurd rfl (hnot cause), fun _ => ⟨hrun, ?_⟩⟩
    rw [houtput]
    rfl
  · rw [h, List.cons.injEq] at houtcome
    obtain ⟨rfl, -⟩ := houtcome
    rw [hok] at herror
    cases herror

end Lxst.Codec2
