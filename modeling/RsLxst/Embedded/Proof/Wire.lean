import RsLxst.Embedded.Proof.Reader

/-!
# The embedded decoder against the host's

`Packet.decode` reads fields one after another; `FieldStep` is what one field does, over the
values that its bytes encode, and `Fields` a run of fields. The host folds `addField` over the
same entries (`fields_iff`). Together they characterise the accepted packets
(`decode_eq_ok_iff`).
-/

set_option autoImplicit false

namespace Lxst.Embedded.Wire

open MsgPack Parsing Reader

variable {target : Target}

/-! ## Signals and frames -/

theorem integerValue_eq_some {v : Value} {n : Nat} :
    integerValue v = some n ↔ v = .integer n := by
  cases v with
  | integer m =>
    simp only [integerValue, asU64, asI64, Value.integer.injEq]
    by_cases hm : 0 ≤ m
    · rw [if_pos hm, Option.some_or, Option.some.injEq]
      omega
    · rw [if_neg hm, Option.none_or]
      refine ⟨fun h => ?_, fun h => by omega⟩
      rw [Option.bind_eq_some_iff] at h
      obtain ⟨k, hk, hn⟩ := h
      split at hk
      · cases hk
        rw [if_neg hm] at hn
        cases hn
      · cases hk
  | _ => simp [integerValue, asU64, asI64]

theorem parseSignal_eq_ok {v : Value} {s : Signal} :
    parseSignal v = .ok s ↔
      ∃ n : Nat, v = .integer n ∧ n < 0x100000000 ∧ s = Signal.fromWire (UInt32.ofNat n) := by
  unfold parseSignal
  split
  · rename_i raw h
    rw [Option.filter_eq_some_iff, integerValue_eq_some, decide_eq_true_eq] at h
    rw [Except.ok.injEq]
    refine ⟨fun hs => ⟨raw, h.1, h.2, hs.symm⟩, ?_⟩
    rintro ⟨n, hv, -, rfl⟩
    obtain ⟨rfl, -⟩ := h
    rw [Value.integer.injEq] at hv
    obtain rfl : raw = n := by omega
    rfl
  · rename_i h
    refine ⟨nofun, ?_⟩
    rintro ⟨n, hv, hn, -⟩
    rw [integerValue_eq_some.2 hv, Option.filter_eq_none_iff] at h
    exact absurd (decide_eq_true hn) (h n rfl)

theorem parseFrame_eq_ok {v : Value} {f : Frame} :
    parseFrame v = .ok f ↔ ∃ data, v = .binary data ∧ Frame.fromWireBytes data = .ok f := by
  cases v with
  | binary data => simp [parseFrame]
  | _ => simp [parseFrame]

theorem exact_readSignal : Exact cursor (readSignal target) fun s bs =>
    ∃ v, Encodes [v] bs ∧ parseSignal v = .ok s := by
  refine (exact_uint.bind fun value => (exact_pure _).guard).congr fun _ _ s bs _ => ?_
  simp only [parseSignal_eq_ok]
  constructor
  · rintro ⟨n, bs₁, _, hn, ⟨hlt, rfl, rfl⟩, rfl⟩
    exact ⟨_, by rwa [List.append_nil], n, rfl, Nat.not_le.1 hlt, rfl⟩
  · rintro ⟨_, hv, n, rfl, hlt, rfl⟩
    exact ⟨n, bs, [], hv, ⟨Nat.not_le.2 hlt, rfl, rfl⟩, (List.append_nil bs).symm⟩

/-- What `readFrame` makes of a binary's bytes. -/
def frameOf (bytes : List UInt8) : Read Frame :=
  match bytes with
  | [] => throw .emptyFrame
  | codec :: payload =>
    if bytes.length > MAX_FRAME_BYTES then throw .limit
    else
      match CodecKind.fromWire Error.unknownCodec codec with
      | .error e => throw e
      | .ok codec =>
        if !codec.isTransmittable then throw (.nonTransmittableCodec codec)
        else pure { codec, payload }

/-- Both codecs know the same codec identifiers. -/
theorem fromWire_ok_iff {ε ε' : Type} (unknown : UInt8 → ε) (unknown' : UInt8 → ε') {id : UInt8}
    {codec : CodecKind} :
    CodecKind.fromWire unknown id = .ok codec ↔ CodecKind.fromWire unknown' id = .ok codec := by
  unfold CodecKind.fromWire
  split <;> simp

theorem fromWireBytes_cons {id : UInt8} {payload : List UInt8} {f : Frame} :
    Frame.fromWireBytes (id :: payload) = .ok f ↔
      ∃ codec, CodecKind.fromWire Error.unknownCodec id = .ok codec ∧
        codec.isTransmittable = true ∧ f = { codec, payload } := by
  refine Iff.trans ?_ (exists_congr fun codec => and_congr_left' (fromWire_ok_iff
    Lxst.Wire.Error.unknownCodec Error.unknownCodec))
  unfold Frame.fromWireBytes
  cases h : CodecKind.fromWire Lxst.Wire.Error.unknownCodec id with
  | error e => simp [bind, Except.bind, h]
  | ok codec =>
    cases ht : codec.isTransmittable with
    | false => simp [bind, Except.bind, h, ht]
    | true => simpa [bind, Except.bind, h, ht] using eq_comm

theorem exact_frameOf (bytes : List UInt8) : Exact cursor (frameOf bytes) fun f bs =>
    (Frame.fromWireBytes bytes = .ok f ∧ f.payload.length + 1 ≤ MAX_FRAME_BYTES) ∧ bs = [] := by
  cases bytes with
  | nil => exact (exact_throw Error.emptyFrame).congr fun _ _ f bs _ => by simp [Frame.fromWireBytes]
  | cons id payload =>
    have hcodec : Exact cursor
        (match CodecKind.fromWire Error.unknownCodec id with
          | .error e => throw e
          | .ok codec =>
            if !codec.isTransmittable then throw (Error.nonTransmittableCodec codec)
            else pure { codec, payload } : Read Frame)
        fun f bs => Frame.fromWireBytes (id :: payload) = .ok f ∧ bs = [] := by
      simp only [fromWireBytes_cons]
      cases h : CodecKind.fromWire Error.unknownCodec id with
      | error e =>
        refine (exact_throw e).congr fun _ _ f bs _ => ⟨False.elim, ?_⟩
        rintro ⟨⟨codec, hc, -⟩, -⟩
        cases hc
      | ok codec =>
        refine (exact_pure _).guard.congr fun _ _ f bs _ => ?_
        constructor
        · rintro ⟨ht, rfl, rfl⟩
          exact ⟨⟨codec, rfl, by simpa using ht, rfl⟩, rfl⟩
        · rintro ⟨⟨_, hc, ht, rfl⟩, rfl⟩
          obtain rfl := Except.ok.inj hc
          exact ⟨by simp [ht], rfl, rfl⟩
    refine hcodec.guard.congr fun _ _ f bs _ => ?_
    rw [Nat.not_lt, and_comm, and_right_comm]
    refine and_congr_left fun _ => and_congr_right fun hf => ?_
    obtain ⟨codec, -, -, rfl⟩ := fromWireBytes_cons.1 hf
    rfl

theorem exact_readFrame : Exact cursor (readFrame target) fun f bs =>
    ∃ v, Encodes [v] bs ∧ parseFrame v = .ok f ∧ f.payload.length + 1 ≤ MAX_FRAME_BYTES := by
  refine (exact_binary.bind exact_frameOf).congr fun _ _ f bs _ => ?_
  simp only [parseFrame_eq_ok]
  constructor
  · rintro ⟨data, bs₁, _, hd, ⟨⟨hf, hl⟩, rfl⟩, rfl⟩
    exact ⟨_, by rwa [List.append_nil], ⟨data, rfl, hf⟩, hl⟩
  · rintro ⟨_, hv, ⟨data, rfl, hf⟩, hl⟩
    exact ⟨data, bs, [], hv, ⟨⟨hf, hl⟩, rfl⟩, (List.append_nil bs).symm⟩

/-- The first byte of an item that is no array. -/
theorem not_array_tag {v : Value} {bs : List UInt8} (h : Encodes [v] bs)
    (hv : ∀ items, v ≠ .array items) : ∃ tag t, bs = tag :: t ∧
      (format tag).all (fun f => decide (f.kind ≠ .array)) = true := by
  obtain ⟨tag, f, len, data, items, body, hf, -, -, -, -, rfl, rfl⟩ := encodes_one_iff.1 h
  refine ⟨tag, _, rfl, ?_⟩
  rw [hf, Option.all_some, decide_eq_true_eq]
  intro hk
  rw [hk] at hv
  exact hv items rfl

theorem mapM_eq_ok {α β ε : Type} {p : α → Except ε β} {vs : List α} {as : List β} :
    vs.mapM p = .ok as ↔ List.Forall₂ (fun v a => p v = .ok a) vs as := by
  induction vs generalizing as with
  | nil =>
    rw [List.mapM_nil, List.forall₂_nil_left_iff]
    exact ⟨fun h => by cases h; rfl, fun h => by rw [h]; rfl⟩
  | cons v vs ih =>
    rw [List.mapM_cons, List.forall₂_cons_left_iff]
    constructor
    · intro h
      cases hv : p v with
      | error e => rw [hv] at h; cases h
      | ok a =>
        cases hvs : vs.mapM p with
        | error e => rw [hv, hvs] at h; cases h
        | ok as' =>
          rw [hv, hvs] at h
          cases h
          exact ⟨a, as', rfl, ih.1 hvs, rfl⟩
    · rintro ⟨a, as', hv, hvs, rfl⟩
      rw [hv, ih.2 hvs]
      rfl

/-- A counted field: an array of items, or one item. -/
theorem exact_items {α : Type} {item : Read α} {C : Value → α → Prop}
    (hitem : Exact cursor item fun a bs => ∃ v, Encodes [v] bs ∧ C v a) {max : Nat}
    (hmax : 1 ≤ max) (hmax16 : max ≤ 65535) (hC : ∀ {v a}, C v a → ∀ items, v ≠ .array items) :
    Exact cursor (counted target item max) fun as bs => as.length ≤ max ∧ ∃ v, Encodes [v] bs ∧
      ((∃ vs, v = .array vs ∧ List.Forall₂ C vs as) ∨ ∃ a, as = [a] ∧ C v a) := by
  refine (exact_counted hitem hmax hmax16 fun a bs ⟨v, hv, hc⟩ => not_array_tag hv (hC hc)).congr
    fun _ _ as bs _ => and_congr_right fun _ => ?_
  constructor
  · rintro (⟨h, body, hh, he, rfl⟩ | ⟨a, rfl, v, hv, hc⟩)
    · obtain ⟨vs, hvs, hf⟩ := each_encodes_iff.1 he
      exact ⟨_, encodes_array_iff.2 ⟨h, body, hf.length_eq ▸ hh, hvs, rfl⟩, .inl ⟨vs, rfl, hf⟩⟩
    · exact ⟨v, hv, .inr ⟨a, rfl, hc⟩⟩
  · rintro ⟨v, hv, ⟨vs, rfl, hf⟩ | ⟨a, rfl, hc⟩⟩
    · obtain ⟨h, body, hh, hvs, rfl⟩ := encodes_array_iff.1 hv
      exact .inl ⟨h, body, hf.length_eq ▸ hh, each_encodes_iff.2 ⟨vs, hvs, hf⟩, rfl⟩
    · exact .inr ⟨a, rfl, v, hv, hc⟩

theorem map_single_eq_ok {α ε : Type} {x : Except ε α} {as : List α} :
    (do let a ← x; Except.ok [a]) = .ok as ↔ ∃ a, as = [a] ∧ x = .ok a := by
  cases x with
  | error e =>
    refine ⟨nofun, ?_⟩
    rintro ⟨a, -, h⟩
    cases h
  | ok a =>
    constructor
    · rintro ⟨⟩
      exact ⟨a, rfl, rfl⟩
    · rintro ⟨a', rfl, h⟩
      cases h
      rfl

/-- An array of signals, or one signal. -/
theorem parseSignals_eq_ok {v : Value} {S : List Signal} : parseSignals v = .ok S ↔
    (∃ vs, v = .array vs ∧ List.Forall₂ (fun v s => parseSignal v = .ok s) vs S) ∨
      ∃ s, S = [s] ∧ parseSignal v = .ok s := by
  cases v with
  | array vs =>
    rw [parseSignals, mapM_eq_ok]
    constructor
    · exact fun h => .inl ⟨vs, rfl, h⟩
    · rintro (⟨vs', h, hf⟩ | ⟨s, -, h⟩)
      · cases h
        exact hf
      · obtain ⟨n, hn, -⟩ := parseSignal_eq_ok.1 h
        cases hn
  | _ => exact map_single_eq_ok.trans ⟨.inr, fun h => h.resolve_left (by rintro ⟨vs, h, -⟩; cases h)⟩

theorem parseFrames_eq_ok {v : Value} {F : List Frame} : parseFrames v = .ok F ↔
    (∃ vs, v = .array vs ∧ List.Forall₂ (fun v f => parseFrame v = .ok f) vs F) ∨
      ∃ f, F = [f] ∧ parseFrame v = .ok f := by
  cases v with
  | array vs =>
    rw [parseFrames, mapM_eq_ok]
    constructor
    · exact fun h => .inl ⟨vs, rfl, h⟩
    · rintro (⟨vs', h, hf⟩ | ⟨f, -, h⟩)
      · cases h
        exact hf
      · cases h
  | binary data =>
    exact map_single_eq_ok.trans ⟨.inr, fun h => h.resolve_left (by rintro ⟨vs, h, -⟩; cases h)⟩
  | _ => simp [parseFrames, parseFrame]

theorem exact_readSignals : Exact cursor (readSignals target) fun S bs =>
    ∃ v, Encodes [v] bs ∧ parseSignals v = .ok S ∧ S.length ≤ MAX_SIGNALS := by
  refine (exact_items exact_readSignal (by decide) (by decide) fun h items hv => ?_).congr
    fun _ _ S bs _ => ?_
  · obtain ⟨n, hn, -⟩ := parseSignal_eq_ok.1 h
    rw [hn] at hv
    cases hv
  · simp only [parseSignals_eq_ok]
    exact ⟨fun ⟨hl, v, hv, h⟩ => ⟨v, hv, h, hl⟩, fun ⟨v, hv, h, hl⟩ => ⟨hl, v, hv, h⟩⟩

/-- A bound on every item of a list that is related to another. -/
theorem forall₂_and_right {α β : Type} {C : α → β → Prop} {q : β → Prop} {as : List α}
    {bs : List β} :
    List.Forall₂ (fun a b => C a b ∧ q b) as bs ↔ List.Forall₂ C as bs ∧ ∀ b ∈ bs, q b := by
  constructor
  · intro h
    induction h with
    | nil => exact ⟨.nil, nofun⟩
    | cons hab _ ih => exact ⟨.cons hab.1 ih.1, List.forall_mem_cons.2 ⟨hab.2, ih.2⟩⟩
  · rintro ⟨h, hq⟩
    induction h with
    | nil => exact .nil
    | cons hab _ ih =>
      obtain ⟨hb, hbs⟩ := List.forall_mem_cons.1 hq
      exact .cons ⟨hab, hb⟩ (ih hbs)

theorem exact_readFrames : Exact cursor (readFrames target) fun F bs =>
    ∃ v, Encodes [v] bs ∧ parseFrames v = .ok F ∧ F.length ≤ MAX_FRAMES ∧
      ∀ f ∈ F, f.payload.length + 1 ≤ MAX_FRAME_BYTES := by
  refine (exact_items exact_readFrame (by decide) (by decide) fun h items hv => ?_).congr
    fun _ _ F bs _ => ?_
  · obtain ⟨data, hd, -⟩ := parseFrame_eq_ok.1 h.1
    rw [hd] at hv
    cases hv
  · simp only [parseFrames_eq_ok]
    constructor
    · rintro ⟨hl, v, hv, ⟨vs, hvs, hf⟩ | ⟨f, rfl, hf, hb⟩⟩
      · obtain ⟨hf, hb⟩ := forall₂_and_right.1 hf
        exact ⟨v, hv, .inl ⟨vs, hvs, hf⟩, hl, hb⟩
      · exact ⟨v, hv, .inr ⟨f, rfl, hf⟩, hl, by simpa using hb⟩
    · rintro ⟨v, hv, ⟨vs, hvs, hf⟩ | ⟨f, rfl, hf⟩, hl, hb⟩
      · exact ⟨hl, v, hv, .inl ⟨vs, hvs, forall₂_and_right.2 ⟨hf, hb⟩⟩⟩
      · exact ⟨hl, v, hv, .inr ⟨f, rfl, hf, by simpa using hb⟩⟩

/-! ## Fields -/

/-- One field after `packet` and `seen`. -/
def FieldStep (packet : Packet) (seen : Nat) (field : Nat) (v : Value) (r : Packet × Nat) : Prop :=
  if field = 0 then
    seen &&& 1 = 0 ∧ ∃ S, parseSignals v = .ok S ∧ S.length ≤ MAX_SIGNALS ∧
      r = ({ packet with signals := S }, seen ||| 1)
  else if field = 1 then
    seen &&& 2 = 0 ∧ ∃ F, parseFrames v = .ok F ∧ F.length ≤ MAX_FRAMES ∧
      (∀ f ∈ F, f.payload.length + 1 ≤ MAX_FRAME_BYTES) ∧
      r = ({ packet with frames := F }, seen ||| 2)
  else Within MAX_DEPTH v ∧ r = (packet, seen)

/-- The fields `entries` after `packet` and `seen`. -/
inductive Fields : Packet → Nat → List (Value × Value) → Packet → Prop
  | nil {packet : Packet} {seen : Nat} : Fields packet seen [] packet
  | cons {packet packet' result : Packet} {seen seen' field : Nat} {k v : Value}
      {entries : List (Value × Value)} : LxstPacket.fieldKey k = some field →
      FieldStep packet seen field v (packet', seen') → Fields packet' seen' entries result →
      Fields packet seen ((k, v) :: entries) result

theorem fieldKey_eq_some {k : Value} {field : Nat} :
    LxstPacket.fieldKey k = some field ↔ k = .integer field ∧ field ≤ 255 := by
  rw [LxstPacket.fieldKey, Option.filter_eq_some_iff, integerValue_eq_some, decide_eq_true_eq]

/-- The value part of a field. -/
theorem exact_fieldValue (packet : Packet) (seen field : Nat) :
    Exact cursor
      (if field = 0 then
        if seen &&& 1 ≠ 0 then throw Error.duplicateField
        else do
          let signals ← readSignals target
          pure ({ packet with signals }, seen ||| 1)
      else if field = 1 then
        if seen &&& 2 ≠ 0 then throw Error.duplicateField
        else do
          let frames ← readFrames target
          pure ({ packet with frames }, seen ||| 2)
      else do
        skip target (MAX_DEPTH + 1)
        pure (packet, seen) : Read (Packet × Nat))
      fun r bs => ∃ v, Encodes [v] bs ∧ FieldStep packet seen field v r := by
  unfold FieldStep
  by_cases h0 : field = 0
  · simp only [if_pos h0]
    refine Exact.congr (exact_readSignals.bind fun S =>
      exact_pure ({ packet with signals := S }, seen ||| 1)).guard fun _ _ r bs _ => ?_
    constructor
    · rintro ⟨hs, S, bs₁, _, ⟨v, hv, hS, hl⟩, ⟨rfl, rfl⟩, rfl⟩
      exact ⟨v, by rwa [List.append_nil], not_not.1 hs, S, hS, hl, rfl⟩
    · rintro ⟨v, hv, hs, S, hS, hl, rfl⟩
      exact ⟨not_not.2 hs, S, bs, [], ⟨v, hv, hS, hl⟩, ⟨rfl, rfl⟩, (List.append_nil bs).symm⟩
  by_cases h1 : field = 1
  · simp only [if_neg h0, if_pos h1]
    refine Exact.congr (exact_readFrames.bind fun F =>
      exact_pure ({ packet with frames := F }, seen ||| 2)).guard fun _ _ r bs _ => ?_
    constructor
    · rintro ⟨hs, F, bs₁, _, ⟨v, hv, hF, hl, hb⟩, ⟨rfl, rfl⟩, rfl⟩
      exact ⟨v, by rwa [List.append_nil], not_not.1 hs, F, hF, hl, hb, rfl⟩
    · rintro ⟨v, hv, hs, F, hF, hl, hb, rfl⟩
      exact ⟨not_not.2 hs, F, bs, [], ⟨v, hv, hF, hl, hb⟩, ⟨rfl, rfl⟩, (List.append_nil bs).symm⟩
  · simp only [if_neg h0, if_neg h1]
    refine ((exact_skip MAX_DEPTH).bind fun _ => exact_pure (packet, seen)).congr
      fun _ _ r bs _ => ?_
    constructor
    · rintro ⟨_, bs₁, _, ⟨v, hv, hw⟩, ⟨rfl, rfl⟩, rfl⟩
      exact ⟨v, by rwa [List.append_nil], hw, rfl⟩
    · rintro ⟨v, hv, hw, rfl⟩
      exact ⟨(), bs, [], ⟨v, hv, hw⟩, ⟨rfl, rfl⟩, (List.append_nil bs).symm⟩

theorem exact_readField (packet : Packet) (seen : Nat) :
    Exact cursor (packet.readField target seen) fun r bs =>
      ∃ k v field, Encodes [k, v] bs ∧ LxstPacket.fieldKey k = some field ∧
        FieldStep packet seen field v r := by
  refine (exact_uint.bind fun key => (exact_fieldValue packet seen key).guard).congr
    fun _ _ r bs _ => ?_
  constructor
  · rintro ⟨key, bs₁, bs₂, hk, ⟨hle, v, hv, hstep⟩, rfl⟩
    exact ⟨_, v, key, encodes_cons_iff.2 ⟨bs₁, bs₂, hk, hv, rfl⟩,
      fieldKey_eq_some.2 ⟨rfl, Nat.not_lt.1 hle⟩, hstep⟩
  · rintro ⟨k, v, field, he, hk, hstep⟩
    obtain ⟨rfl, hle⟩ := fieldKey_eq_some.1 hk
    obtain ⟨bs₁, bs₂, hk', hv, rfl⟩ := encodes_cons_iff.1 he
    exact ⟨field, bs₁, bs₂, hk', ⟨Nat.not_lt.2 hle, v, hv, hstep⟩, rfl⟩

theorem exact_readFields (n : Nat) (packet : Packet) (seen : Nat) :
    Exact cursor (Packet.readFields target n packet seen) fun result bs =>
      ∃ entries, entries.length = n ∧ Encodes (flatten entries) bs ∧
        Fields packet seen entries result := by
  induction n generalizing packet seen with
  | zero =>
    refine (exact_pure packet).congr fun _ _ result bs _ => ?_
    constructor
    · rintro ⟨rfl, rfl⟩
      exact ⟨[], rfl, .nil, .nil⟩
    · rintro ⟨entries, hl, he, hf⟩
      obtain rfl := List.length_eq_zero_iff.1 hl
      cases hf
      exact ⟨rfl, encodes_nil_iff.1 he⟩
  | succ n ih =>
    refine ((exact_readField packet seen).bind fun r => ih r.1 r.2).congr
      fun _ _ result bs _ => ?_
    constructor
    · rintro ⟨⟨packet', seen'⟩, bs₁, bs₂, ⟨k, v, field, he, hk, hstep⟩, ⟨es, hl, hes, hf⟩, rfl⟩
      exact ⟨(k, v) :: es, by simp [hl], encodes_append_iff.2 ⟨bs₁, bs₂, he, hes, rfl⟩,
        .cons hk hstep hf⟩
    · rintro ⟨entries, hl, he, hf⟩
      cases hf with
      | nil => cases hl
      | @cons _ packet' _ _ seen' field k v es hk hstep hf =>
        obtain ⟨bs₁, bs₂, hkv, hes, rfl⟩ :=
          encodes_append_iff.1 (he : Encodes ([k, v] ++ flatten es) _)
        exact ⟨(packet', seen'), bs₁, bs₂, ⟨k, v, field, hkv, hk, hstep⟩,
          ⟨es, by simpa using hl, hes, hf⟩, rfl⟩

/-! ## The host's fold -/

def Packet.toHost (packet : Packet) : LxstPacket :=
  { signals := packet.signals, frames := packet.frames }

/-- How many entries have the key `field`. -/
def keyCount (field : Nat) (entries : List (Value × Value)) : Nat :=
  entries.countP fun e => decide (LxstPacket.fieldKey e.1 = some field)

structure Packet.InLimits (packet : Packet) : Prop where
  signals : packet.signals.length ≤ MAX_SIGNALS
  frames : packet.frames.length ≤ MAX_FRAMES
  frameBytes : ∀ f ∈ packet.frames, f.payload.length + 1 ≤ MAX_FRAME_BYTES

theorem keyCount_cons {k v : Value} {field : Nat} (hk : LxstPacket.fieldKey k = some field)
    (n : Nat) (es : List (Value × Value)) :
    keyCount n ((k, v) :: es) = keyCount n es + if field = n then 1 else 0 := by
  rw [keyCount, List.countP_cons, hk]
  simp [keyCount]

theorem addField_eq {packet : LxstPacket} {k v : Value} {field : Nat}
    (hk : LxstPacket.fieldKey k = some field) :
    packet.addField (k, v) =
      if field = 0 then do
        let signals ← parseSignals v
        .ok { packet with signals := packet.signals ++ signals }
      else if field = 1 then do
        let frames ← parseFrames v
        .ok { packet with frames := packet.frames ++ frames }
      else .ok packet := by
  unfold LxstPacket.addField
  rw [hk]
  rfl

/-- The fold only appends. -/
theorem prefix_of_foldlM_addField {entries : List (Value × Value)} {packet result : LxstPacket}
    (h : entries.foldlM LxstPacket.addField packet = .ok result) :
    packet.signals <+: result.signals ∧ packet.frames <+: result.frames := by
  induction entries generalizing packet with
  | nil =>
    cases h
    exact ⟨List.prefix_rfl, List.prefix_rfl⟩
  | cons e es ih =>
    obtain ⟨k, v⟩ := e
    rw [List.foldlM_cons] at h
    cases hk : LxstPacket.fieldKey k with
    | none => simp [LxstPacket.addField, hk, bind, Except.bind] at h
    | some field =>
      rw [addField_eq hk] at h
      split at h
      · cases hS : parseSignals v with
        | error e => rw [hS] at h; cases h
        | ok S =>
          rw [hS] at h
          exact ⟨(List.prefix_append _ _).trans (ih h).1, (ih h).2⟩
      split at h
      · cases hF : parseFrames v with
        | error e => rw [hF] at h; cases h
        | ok F =>
          rw [hF] at h
          exact ⟨(ih h).1, (List.prefix_append _ _).trans (ih h).2⟩
      · exact ih h

theorem fields_cons_iff {packet result : Packet} {seen : Nat} {k v : Value}
    {es : List (Value × Value)} :
    Fields packet seen ((k, v) :: es) result ↔
      ∃ field r, LxstPacket.fieldKey k = some field ∧ FieldStep packet seen field v r ∧
        Fields r.1 r.2 es result := by
  constructor
  · intro h
    cases h with
    | @cons _ packet' _ _ seen' field _ _ _ hk hstep hf =>
      exact ⟨field, (packet', seen'), hk, hstep, hf⟩
  · rintro ⟨field, r, hk, hstep, hf⟩
    exact .cons hk hstep hf

theorem or_and_self {seen bit : Nat} (hb : bit ≠ 0) : ¬ (seen ||| bit) &&& bit = 0 := by
  rw [Nat.and_or_distrib_right, Nat.and_self]
  exact fun h => hb (Nat.or_eq_zero_iff.1 h).2

theorem or_and_other {seen bit other : Nat} (h : bit &&& other = 0) :
    (seen ||| bit) &&& other = seen &&& other := by
  rw [Nat.and_or_distrib_right, h, Nat.or_zero]

/-- A field that may come once comes first here. -/
theorem keyCount_once {k v : Value} {field seen bit : Nat} {es : List (Value × Value)}
    (hk : LxstPacket.fieldKey k = some field) (hb : bit ≠ 0) :
    keyCount field ((k, v) :: es) ≤ (if seen &&& bit = 0 then 1 else 0) ↔
      seen &&& bit = 0 ∧ keyCount field es ≤ if (seen ||| bit) &&& bit = 0 then 1 else 0 := by
  rw [keyCount_cons hk, if_pos rfl, if_neg (or_and_self hb)]
  split
  · rename_i hseen
    rw [Nat.add_le_add_iff_right, and_iff_right hseen]
  · rename_i hseen
    exact ⟨fun h => absurd h (Nat.not_succ_le_zero _), fun h => absurd h.1 hseen⟩

theorem keyCount_other {k v : Value} {field other : Nat} {es : List (Value × Value)}
    (hk : LxstPacket.fieldKey k = some field) (h : field ≠ other) :
    keyCount other ((k, v) :: es) = keyCount other es := by
  rw [keyCount_cons hk, if_neg h, Nat.add_zero]

/-- The host's fold over the entries, with a known field at most once and within the limits. -/
structure HostFields (packet : Packet) (seen : Nat) (entries : List (Value × Value))
    (result : Packet) : Prop where
  fold : entries.foldlM LxstPacket.addField packet.toHost = .ok result.toHost
  signalsOnce : keyCount 0 entries ≤ if seen &&& 1 = 0 then 1 else 0
  framesOnce : keyCount 1 entries ≤ if seen &&& 2 = 0 then 1 else 0
  limits : result.InLimits
  nesting : ∀ e ∈ entries, LxstPacket.fieldKey e.1 ≠ some 0 → LxstPacket.fieldKey e.1 ≠ some 1 →
    Within MAX_DEPTH e.2

section
variable {packet result : Packet} {seen : Nat} {k v : Value} {es : List (Value × Value)}

theorem hostFields_nil_iff (hl : packet.InLimits) :
    HostFields packet seen [] result ↔ result = packet := by
  constructor
  · intro h
    obtain ⟨S, F⟩ := packet
    obtain ⟨S', F'⟩ := result
    cases h.fold
    rfl
  · rintro rfl
    exact ⟨rfl, Nat.zero_le _, Nat.zero_le _, hl, nofun⟩

theorem hostFields_signals_iff (hk : LxstPacket.fieldKey k = some 0)
    (hs : seen &&& 1 = 0 → packet.signals = []) :
    HostFields packet seen ((k, v) :: es) result ↔
      seen &&& 1 = 0 ∧ ∃ S, parseSignals v = .ok S ∧ S.length ≤ MAX_SIGNALS ∧
        HostFields { packet with signals := S } (seen ||| 1) es result := by
  have hframes : (seen ||| 1) &&& 2 = seen &&& 2 := or_and_other (by decide)
  have hfold (hseen : seen &&& 1 = 0) : ((k, v) :: es).foldlM LxstPacket.addField packet.toHost =
      (parseSignals v).bind fun S =>
        es.foldlM LxstPacket.addField (Packet.toHost { packet with signals := S }) := by
    rw [List.foldlM_cons, addField_eq hk, if_pos rfl]
    cases parseSignals v with
    | error e => rfl
    | ok S =>
      show es.foldlM _ (⟨packet.signals ++ S, packet.frames⟩ : LxstPacket) = _
      rw [hs hseen]
      rfl
  constructor
  · intro h
    obtain ⟨hseen, hsignals⟩ := (keyCount_once hk (by decide)).1 h.signalsOnce
    have hrest := (hfold hseen).symm.trans h.fold
    cases hS : parseSignals v with
    | error e => rw [hS] at hrest; cases hrest
    | ok S =>
      rw [hS] at hrest
      have hpre : S <+: result.signals := (prefix_of_foldlM_addField hrest).1
      refine ⟨hseen, S, rfl, Nat.le_trans hpre.length_le h.limits.signals, hrest, hsignals, ?_,
        h.limits, (List.forall_mem_cons.1 h.nesting).2⟩
      rw [hframes, ← keyCount_other hk (by decide)]
      exact h.framesOnce
  · rintro ⟨hseen, S, hS, -, h⟩
    refine ⟨?_, (keyCount_once hk (by decide)).2 ⟨hseen, h.signalsOnce⟩, ?_, h.limits,
      List.forall_mem_cons.2 ⟨fun h0 => absurd hk h0, h.nesting⟩⟩
    · rw [hfold hseen, hS]
      exact h.fold
    · rw [keyCount_other hk (by decide), ← hframes]
      exact h.framesOnce

theorem hostFields_frames_iff (hk : LxstPacket.fieldKey k = some 1)
    (hf : seen &&& 2 = 0 → packet.frames = []) :
    HostFields packet seen ((k, v) :: es) result ↔
      seen &&& 2 = 0 ∧ ∃ F, parseFrames v = .ok F ∧ F.length ≤ MAX_FRAMES ∧
        (∀ f ∈ F, f.payload.length + 1 ≤ MAX_FRAME_BYTES) ∧
          HostFields { packet with frames := F } (seen ||| 2) es result := by
  have hsignals : (seen ||| 2) &&& 1 = seen &&& 1 := or_and_other (by decide)
  have hfold (hseen : seen &&& 2 = 0) : ((k, v) :: es).foldlM LxstPacket.addField packet.toHost =
      (parseFrames v).bind fun F =>
        es.foldlM LxstPacket.addField (Packet.toHost { packet with frames := F }) := by
    rw [List.foldlM_cons, addField_eq hk, if_neg (by decide), if_pos rfl]
    cases parseFrames v with
    | error e => rfl
    | ok F =>
      show es.foldlM _ (⟨packet.signals, packet.frames ++ F⟩ : LxstPacket) = _
      rw [hf hseen]
      rfl
  constructor
  · intro h
    obtain ⟨hseen, hframes⟩ := (keyCount_once hk (by decide)).1 h.framesOnce
    have hrest := (hfold hseen).symm.trans h.fold
    cases hF : parseFrames v with
    | error e => rw [hF] at hrest; cases hrest
    | ok F =>
      rw [hF] at hrest
      have hpre : F <+: result.frames := (prefix_of_foldlM_addField hrest).2
      refine ⟨hseen, F, rfl, Nat.le_trans hpre.length_le h.limits.frames,
        fun f hmem => h.limits.frameBytes f (hpre.subset hmem), hrest, ?_, hframes, h.limits,
        (List.forall_mem_cons.1 h.nesting).2⟩
      rw [hsignals, ← keyCount_other hk (by decide)]
      exact h.signalsOnce
  · rintro ⟨hseen, F, hF, -, -, h⟩
    refine ⟨?_, ?_, (keyCount_once hk (by decide)).2 ⟨hseen, h.framesOnce⟩, h.limits,
      List.forall_mem_cons.2 ⟨fun _ h1 => absurd hk h1, h.nesting⟩⟩
    · rw [hfold hseen, hF]
      exact h.fold
    · rw [keyCount_other hk (by decide), ← hsignals]
      exact h.signalsOnce

theorem hostFields_other_iff {field : Nat} (hk : LxstPacket.fieldKey k = some field)
    (h0 : field ≠ 0) (h1 : field ≠ 1) :
    HostFields packet seen ((k, v) :: es) result ↔
      Within MAX_DEPTH v ∧ HostFields packet seen es result := by
  have hfold : ((k, v) :: es).foldlM LxstPacket.addField packet.toHost =
      es.foldlM LxstPacket.addField packet.toHost := by
    rw [List.foldlM_cons, addField_eq hk, if_neg h0, if_neg h1]
    rfl
  have hk0 : LxstPacket.fieldKey k ≠ some 0 := by simpa [hk] using h0
  have hk1 : LxstPacket.fieldKey k ≠ some 1 := by simpa [hk] using h1
  constructor
  · rintro ⟨hh, hs, hf, hl, hn⟩
    rw [hfold] at hh
    rw [keyCount_other hk h0] at hs
    rw [keyCount_other hk h1] at hf
    obtain ⟨hw, hn⟩ := List.forall_mem_cons.1 hn
    exact ⟨hw hk0 hk1, hh, hs, hf, hl, hn⟩
  · rintro ⟨hw, h⟩
    refine ⟨hfold.trans h.fold, ?_, ?_, h.limits, List.forall_mem_cons.2 ⟨fun _ _ => hw, h.nesting⟩⟩
    · rw [keyCount_other hk h0]
      exact h.signalsOnce
    · rw [keyCount_other hk h1]
      exact h.framesOnce

theorem not_hostFields (hk : LxstPacket.fieldKey k = none) :
    ¬ HostFields packet seen ((k, v) :: es) result := fun h => by
  have hfold := h.fold
  rw [List.foldlM_cons, LxstPacket.addField, hk] at hfold
  cases hfold

end

/-- **A run of fields is the host's fold**, with a known field at most once and within the
limits. A field not seen yet is still empty. -/
theorem fields_iff {entries : List (Value × Value)} {packet result : Packet} {seen : Nat}
    (hs : seen &&& 1 = 0 → packet.signals = []) (hf : seen &&& 2 = 0 → packet.frames = [])
    (hl : packet.InLimits) :
    Fields packet seen entries result ↔ HostFields packet seen entries result := by
  induction entries generalizing packet seen with
  | nil =>
    rw [hostFields_nil_iff hl]
    constructor
    · intro h
      cases h
      rfl
    · rintro rfl
      exact .nil
  | cons e es ih =>
    obtain ⟨k, v⟩ := e
    rw [fields_cons_iff]
    cases hk : LxstPacket.fieldKey k with
    | none => exact ⟨fun ⟨_, _, h, _⟩ => (nomatch h), fun h => absurd h (not_hostFields hk)⟩
    | some field =>
      simp only [Option.some.injEq, exists_and_left, exists_eq_left']
      unfold FieldStep
      by_cases h0 : field = 0
      · subst h0
        have hframes : (seen ||| 1) &&& 2 = seen &&& 2 := or_and_other (by decide)
        have hrest (S : List Signal) (hlen : S.length ≤ MAX_SIGNALS) :=
          @ih { packet with signals := S } (seen ||| 1)
            (fun h => absurd h (or_and_self (by decide))) (fun h => hf (hframes ▸ h))
            ⟨hlen, hl.frames, hl.frameBytes⟩
        rw [hostFields_signals_iff hk hs]
        simp only [if_true]
        constructor
        · rintro ⟨_, ⟨hseen, S, hS, hlen, rfl⟩, h⟩
          exact ⟨hseen, S, hS, hlen, (hrest S hlen).1 h⟩
        · rintro ⟨hseen, S, hS, hlen, h⟩
          exact ⟨_, ⟨hseen, S, hS, hlen, rfl⟩, (hrest S hlen).2 h⟩
      by_cases h1 : field = 1
      · subst h1
        have hsignals : (seen ||| 2) &&& 1 = seen &&& 1 := or_and_other (by decide)
        have hrest (F : List Frame) (hlen : F.length ≤ MAX_FRAMES)
            (hbytes : ∀ f ∈ F, f.payload.length + 1 ≤ MAX_FRAME_BYTES) :=
          @ih { packet with frames := F } (seen ||| 2) (fun h => hs (hsignals ▸ h))
            (fun h => absurd h (or_and_self (by decide))) ⟨hl.signals, hlen, hbytes⟩
        rw [hostFields_frames_iff hk hf]
        simp only [if_neg h0, if_true]
        constructor
        · rintro ⟨_, ⟨hseen, F, hF, hlen, hbytes, rfl⟩, h⟩
          exact ⟨hseen, F, hF, hlen, hbytes, (hrest F hlen hbytes).1 h⟩
        · rintro ⟨hseen, F, hF, hlen, hbytes, h⟩
          exact ⟨_, ⟨hseen, F, hF, hlen, hbytes, rfl⟩, (hrest F hlen hbytes).2 h⟩
      · rw [hostFields_other_iff hk h0 h1]
        simp only [if_neg h0, if_neg h1]
        constructor
        · rintro ⟨_, ⟨hw, rfl⟩, h⟩
          exact ⟨hw, (ih hs hf hl).1 h⟩
        · rintro ⟨hw, h⟩
          exact ⟨_, ⟨hw, rfl⟩, (ih hs hf hl).2 h⟩

/-! ## Packets -/

theorem exact_readPacket : Exact cursor (Packet.readPacket target) fun packet bs =>
    ∃ entries, Encodes [.map entries] bs ∧ entries.length ≤ MAX_FIELDS ∧
      Fields { signals := [], frames := [] } 0 entries packet := by
  have h16 := target.sixteenBits
  refine (exact_mapLen.bind fun fields => (exact_readFields fields _ 0).guard).congr
    fun _ _ packet bs _ => ?_
  constructor
  · rintro ⟨n, h, body, ⟨hh, -⟩, ⟨hle, entries, rfl, he, hf⟩, rfl⟩
    exact ⟨entries, encodes_map_iff.2 ⟨h, body, hh, he, rfl⟩, Nat.not_lt.1 hle, hf⟩
  · rintro ⟨entries, hv, hle, hf⟩
    obtain ⟨h, body, hh, he, rfl⟩ := encodes_map_iff.1 hv
    simp only [MAX_FIELDS] at hle
    exact ⟨entries.length, h, body, ⟨hh, by omega⟩,
      ⟨Nat.not_lt.2 hle, entries, rfl, he, hf⟩, rfl⟩

/-- **Accepted packets**: `decode` reads one map of fields and nothing more. -/
theorem decode_iff_fields {bytes : List UInt8} {packet : Packet} :
    Packet.decode target bytes = .ok packet ↔ bytes.length ≤ MAX_PACKET_BYTES ∧
      ∃ entries, Encodes [.map entries] bytes ∧ entries.length ≤ MAX_FIELDS ∧
        Fields { signals := [], frames := [] } 0 entries packet := by
  unfold Packet.decode
  by_cases hlen : bytes.length > MAX_PACKET_BYTES
  · rw [if_pos hlen]
    exact ⟨nofun, fun h => absurd h.1 (Nat.not_le.2 hlen)⟩
  rw [if_neg hlen]
  rw [Nat.not_lt] at hlen
  have hexact := @exact_readPacket target { bytes, offset := 0 } ⟨Nat.zero_le _, hlen⟩
  constructor
  · intro h
    refine ⟨hlen, ?_⟩
    cases hp : Packet.readPacket target { bytes, offset := 0 } with
    | error e => rw [hp] at h; cases h
    | ok r =>
      obtain ⟨packet', reader⟩ := r
      obtain ⟨bs, hbs, hpre, rfl⟩ := (hexact packet' reader).1 hp
      rw [hp] at h
      replace h : (if 0 + bs.length ≠ bytes.length then Except.error Error.trailingData
        else .ok packet') = .ok packet := h
      split at h
      · cases h
      · rename_i hoff
        cases h
        obtain rfl : bs = bytes := hpre.eq_of_length (show bs.length = bytes.length by omega)
        exact hbs
  · rintro ⟨-, h⟩
    rw [(hexact packet _).2 ⟨bytes, h, List.prefix_rfl, rfl⟩]
    show (if 0 + bytes.length ≠ bytes.length then Except.error Error.trailingData
      else .ok packet) = .ok packet
    rw [if_neg (by omega)]

/-- The embedded decoder's limits on a packet and the entries of its map. -/
structure WithinLimits (entries : List (Value × Value)) (signals : List Signal)
    (frames : List Frame) : Prop where
  fields : entries.length ≤ MAX_FIELDS
  signalsOnce : keyCount FIELD_SIGNALLING entries ≤ 1
  framesOnce : keyCount FIELD_FRAMES entries ≤ 1
  signalCount : signals.length ≤ MAX_SIGNALS
  frameCount : frames.length ≤ MAX_FRAMES
  frameBytes : ∀ f ∈ frames, f.payload.length + 1 ≤ MAX_FRAME_BYTES
  nesting : ∀ e ∈ entries, LxstPacket.fieldKey e.1 ≠ some FIELD_SIGNALLING →
    LxstPacket.fieldKey e.1 ≠ some FIELD_FRAMES → Within MAX_DEPTH e.2

/-- **The embedded decoder accepts exactly the host's packets within its limits**, with the same
signals and frames. -/
theorem decode_eq_ok_iff (readValue : List UInt8 → Except String Value)
    (hread : ReadsMsgPack readValue) (target : Target) (bytes : List UInt8)
    (signals : List Signal) (frames : List Frame) :
    Packet.decode target bytes = .ok { signals, frames } ↔
      bytes.length ≤ MAX_PACKET_BYTES ∧ ∃ entries, Encodes [.map entries] bytes ∧
        LxstPacket.decode readValue bytes = .ok { signals, frames } ∧
        WithinLimits entries signals frames := by
  rw [decode_iff_fields]
  refine and_congr_right fun hlen => exists_congr fun entries => and_congr_right fun henc => ?_
  have hhost : LxstPacket.decode readValue bytes =
      entries.foldlM LxstPacket.addField (Packet.toHost { signals := [], frames := [] }) := by
    have hr := hread (.map entries) bytes [] henc
      ((henc.within _ (List.mem_singleton.2 rfl)).mono hlen)
    rw [List.append_nil] at hr
    rw [LxstPacket.decode, hr]
    rfl
  have hempty : Packet.InLimits { signals := [], frames := [] } :=
    ⟨Nat.zero_le _, Nat.zero_le _, List.forall_mem_nil _⟩
  rw [hhost, fields_iff (fun _ => rfl) (fun _ => rfl) hempty]
  constructor
  · rintro ⟨hf, h⟩
    exact ⟨h.fold, hf, h.signalsOnce, h.framesOnce, h.limits.signals, h.limits.frames,
      h.limits.frameBytes, h.nesting⟩
  · rintro ⟨hh, hw⟩
    exact ⟨hw.fields, hh, hw.signalsOnce, hw.framesOnce,
      ⟨hw.signalCount, hw.frameCount, hw.frameBytes⟩, hw.nesting⟩

/-- A packet with a ringing status and an Opus frame. -/
theorem decode_eq_ok_iff_example :
    ∃ entries, Encodes [.map entries] [0x82, 0x00, 0x91, 0x04, 0x01, 0xc4, 0x02, 0x01, 0x2a] ∧
      LxstPacket.decode firstValue [0x82, 0x00, 0x91, 0x04, 0x01, 0xc4, 0x02, 0x01, 0x2a] =
        .ok { signals := [.status .ringing], frames := [{ codec := .opus, payload := [0x2a] }] } ∧
      WithinLimits entries [.status .ringing] [{ codec := .opus, payload := [0x2a] }] :=
  ((decode_eq_ok_iff firstValue readsMsgPack_firstValue ⟨65535, by decide⟩ _ _ _).1 rfl).2

end Lxst.Embedded.Wire
