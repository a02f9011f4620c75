import RsLxst.Embedded.Wire

/-!
# What the embedded reader accepts

Each operation of `Reader` is an exact parser (`Parsing.Exact`) of what it stands for: `uint` of
the non-negative integers, `binary` of the binaries, `mapLen` and `arrayLen` of the container
headers, and `skip` of every MessagePack value that nests at most so deep (`exact_skip`).
-/

set_option autoImplicit false
-- the tables of tags are checked tag by tag
set_option maxRecDepth 20000

namespace Lxst.Embedded.Wire

open MsgPack Parsing

/-- The unread bytes of a reader inside a packet of bounded size. -/
def cursor : Cursor Reader UInt8 where
  good r := r.offset ≤ r.bytes.length ∧ r.bytes.length ≤ MAX_PACKET_BYTES
  rest r := r.bytes.drop r.offset
  advance r n := { r with offset := r.offset + n }
  advance_zero _ := rfl
  advance_add _ m n := by simp [Nat.add_assoc]
  rest_advance r n hg hn := by
    rw [List.length_drop] at hn
    exact ⟨⟨by have := hg.1; dsimp only; omega, hg.2⟩, by simp⟩

/-- A prefix of the unread bytes is no longer than a packet. -/
theorem prefix_length_le {r : Reader} (hg : cursor.good r) {bs : List UInt8}
    (h : bs <+: cursor.rest r) : bs.length ≤ MAX_PACKET_BYTES := by
  have h1 : bs.length ≤ r.bytes.length - r.offset := by
    rw [← List.length_drop]
    exact h.length_le
  have := hg.2
  omega

variable {target : Target}

namespace Reader

/-! ## Bytes and numbers -/

theorem exact_take (count : Nat) :
    Exact cursor (take target count) fun v bs => v = bs ∧ bs.length = count := by
  intro r hg v r'
  have h16 := target.sixteenBits
  have hlen : r.bytes.length ≤ 512 := hg.2
  unfold take
  dsimp only
  constructor
  · intro h
    split at h
    · cases h
    · split at h
      · rename_i hin
        cases h
        refine ⟨_, ⟨rfl, ?_⟩, List.take_prefix _ _, ?_⟩
        · rw [List.length_take, List.length_drop]
          omega
        · rw [List.length_take, List.length_drop, Nat.min_eq_left (by omega)]
          rfl
      · cases h
  · rintro ⟨bs, ⟨rfl, hl⟩, hpre, rfl⟩
    have hle : v.length ≤ r.bytes.length - r.offset := by
      rw [← List.length_drop]
      exact hpre.length_le
    have hoff := hg.1
    rw [if_neg (by omega), if_pos (by omega), ← hl]
    rw [show (r.bytes.drop r.offset).take v.length = v from (List.prefix_iff_eq_take.1 hpre).symm]
    rfl

theorem exact_byte : Exact cursor (byte target) fun b bs => bs = [b] := by
  refine ((exact_take 1).bind fun v => exact_pure (v.headD 0)).congr fun _ _ b bs _ => ?_
  constructor
  · rintro ⟨v, bs₁, _, ⟨rfl, hl⟩, ⟨rfl, rfl⟩, rfl⟩
    match v, hl with
    | [_], _ => rfl
  · rintro rfl
    exact ⟨[b], [b], [], ⟨rfl, rfl⟩, ⟨rfl, rfl⟩, rfl⟩

/-- A tag, and a parser for what follows it. -/
theorem exact_tagged {α : Type} {f : UInt8 → Read α} {R : α → List UInt8 → Prop}
    (hf : ∀ tag, Exact cursor (f tag) fun a bs => R a (tag :: bs)) (hnil : ∀ a, ¬ R a []) :
    Exact cursor (byte target >>= f) R := by
  refine (exact_byte.bind hf).congr fun _ _ a bs _ => ?_
  constructor
  · rintro ⟨tag, _, bs₂, rfl, h, rfl⟩
    exact h
  · intro h
    cases bs with
    | nil => exact absurd h (hnil a)
    | cons tag bs => exact ⟨tag, [tag], bs, rfl, h, rfl⟩

theorem fold_eq_beNat (bs : List UInt8) :
    bs.foldl (fun value byte => value <<< 8 ||| byte.toNat) 0 = beNat bs := by
  unfold beNat
  congr 1
  funext v b
  rw [← Nat.shiftLeft_add_eq_or_of_lt (show b.toNat < 2 ^ 8 from b.toNat_lt), Nat.shiftLeft_eq]

theorem exact_number (size : Nat) :
    Exact cursor (number target size) fun n bs => bs.length = size ∧ n = beNat bs := by
  refine ((exact_take size).bind fun bytes => exact_pure _).congr fun _ _ n bs _ => ?_
  constructor
  · rintro ⟨v, bs₁, _, ⟨rfl, hl⟩, ⟨rfl, rfl⟩, rfl⟩
    simpa [fold_eq_beNat] using hl
  · rintro ⟨hl, rfl⟩
    exact ⟨bs, bs, [], ⟨rfl, hl⟩, ⟨(fold_eq_beNat bs).symm, rfl⟩, by simp⟩

theorem exact_tryUsize (value : Nat) :
    Exact cursor (tryUsize target value) fun n bs =>
      value ≤ target.usizeMax ∧ n = value ∧ bs = [] := by
  have h : Exact cursor (tryUsize target value) fun n bs =>
    ¬ value > target.usizeMax ∧ n = value ∧ bs = [] := (exact_pure value).guard
  exact h.congr fun _ _ _ _ _ => and_congr_left fun _ => Nat.not_lt

/-! ## Integers -/

theorem not_encodes_nil {v : Value} : ¬ Encodes [v] [] := fun h => by
  have := h.length_le
  simp at this

/-- A non-negative integer may follow this first byte. -/
def startsInteger (tag : UInt8) : Bool :=
  match format tag with
  | some ⟨.fixint n, _, _⟩ => decide (0 ≤ n)
  | some ⟨.uint, _, _⟩ | some ⟨.int, _, _⟩ => true
  | _ => false

theorem not_encodes_integer {tag : UInt8} (h : startsInteger tag = false) (n : Nat)
    (bs : List UInt8) : ¬ Encodes [.integer n] (tag :: bs) := fun he => by
  obtain ⟨tag', f, len, data, items, body, hf, -, -, -, -, hv, ht⟩ := encodes_one_iff.1 he
  cases ht
  unfold startsInteger at h
  rw [hf] at h
  obtain ⟨k, ls, fx⟩ := f
  cases k with
  | fixint m =>
    simp only [Kind.value, Value.integer.injEq] at hv
    subst hv
    simp at h
  | uint => cases h
  | int => cases h
  | _ => simp [Kind.value] at hv

theorem integer_tags (tag : UInt8) : startsInteger tag = true ↔
    tag ≤ 127 ∨ tag = 0xcc ∨ tag = 0xcd ∨ tag = 0xce ∨ tag = 0xcf ∨ 0xd0 ≤ tag ∧ tag ≤ 0xd3 := by
  revert tag
  exact forall_tag (by decide)

theorem format_fixint (tag : UInt8) : tag ≤ 127 → format tag = some ⟨.fixint tag.toNat, 0, 0⟩ := by
  revert tag
  exact forall_tag (by decide)

theorem format_int (tag : UInt8) : 0xd0 ≤ tag ∧ tag ≤ 0xd3 →
    format tag = some ⟨.int, 0, 1 <<< (tag - 0xd0).toNat⟩ := by
  revert tag
  exact forall_tag (by decide)

/-- A number of `size` bytes behind an unsigned tag. -/
theorem exact_unsigned {tag : UInt8} {size : Nat} (hf : format tag = some ⟨.uint, 0, size⟩) :
    Exact cursor (number target size) fun n bs => Encodes [.integer (n : Nat)] (tag :: bs) := by
  refine (exact_number size).congr fun _ _ n bs _ => ?_
  rw [encodes_fixed_iff hf fun _ => rfl]
  refine and_congr_right fun _ => ⟨fun h => by rw [h]; rfl, fun h => ?_⟩
  simp only [Kind.value, Value.integer.injEq] at h
  omega

/-- A number of `size` bytes behind a signed tag: accepted if its sign bit is clear. -/
theorem exact_signed {tag : UInt8} {size : Nat} (hf : format tag = some ⟨.int, 0, size⟩) :
    Exact cursor
      (do
        let value ← number target size
        if value >>> (size * 8 - 1) ≠ 0 then throw Error.shape else pure value)
      fun n bs => Encodes [.integer (n : Nat)] (tag :: bs) := by
  refine ((exact_number size).bind fun value => (exact_pure value).guard).congr
    fun _ _ n bs _ => ?_
  rw [encodes_fixed_iff hf fun _ => rfl]
  simp only [Kind.value, Value.integer.injEq, Kind.dataSize]
  constructor
  · rintro ⟨_, bs₁, _, ⟨hl, rfl⟩, ⟨hs, rfl, rfl⟩, rfl⟩
    rw [List.append_nil]
    exact ⟨hl, (beInt_eq_natCast.2 ⟨by rw [hl]; exact not_not.1 hs, rfl⟩).symm⟩
  · rintro ⟨hl, hv⟩
    obtain ⟨hs, rfl⟩ := beInt_eq_natCast.1 hv.symm
    rw [hl] at hs
    exact ⟨beNat bs, bs, [], ⟨hl, rfl⟩, ⟨not_not.2 hs, rfl, rfl⟩, by simp⟩

/-- **`uint` accepts exactly the non-negative integers**, in every form. -/
theorem exact_uint : Exact cursor (uint target) fun n bs => Encodes [.integer (n : Nat)] bs := by
  refine exact_tagged (fun tag => ?_) fun n => not_encodes_nil
  by_cases h0 : tag ≤ 127
  · rw [if_pos h0]
    refine (exact_pure tag.toNat).congr fun _ _ n bs _ => ?_
    rw [encodes_fixed_iff (format_fixint tag h0) fun _ => rfl]
    simp only [Kind.value, Value.integer.injEq, Kind.dataSize, List.length_eq_zero_iff]
    constructor
    · rintro ⟨rfl, rfl⟩
      exact ⟨rfl, rfl⟩
    · rintro ⟨rfl, h⟩
      exact ⟨by omega, rfl⟩
  rw [if_neg h0]
  by_cases h1 : tag = 0xcc
  · rw [if_pos h1, h1]; exact exact_unsigned rfl
  rw [if_neg h1]
  by_cases h2 : tag = 0xcd
  · rw [if_pos h2, h2]; exact exact_unsigned rfl
  rw [if_neg h2]
  by_cases h3 : tag = 0xce
  · rw [if_pos h3, h3]; exact exact_unsigned rfl
  rw [if_neg h3]
  by_cases h4 : tag = 0xcf
  · rw [if_pos h4, h4]; exact exact_unsigned rfl
  rw [if_neg h4]
  by_cases h5 : 0xd0 ≤ tag ∧ tag ≤ 0xd3
  · rw [if_pos h5]; exact exact_signed (format_int tag h5)
  rw [if_neg h5]
  have hno : startsInteger tag = false := by
    rw [← Bool.not_eq_true, integer_tags]
    tauto
  exact (exact_throw Error.shape).congr fun _ _ n bs _ =>
    ⟨False.elim, not_encodes_integer hno n bs⟩

/-! ## Binaries -/

theorem not_encodes_binary {tag : UInt8}
    (h : (format tag).all (fun f => decide (f.kind ≠ .binary)) = true) (data bs : List UInt8) :
    ¬ Encodes [.binary data] (tag :: bs) := fun he => by
  obtain ⟨tag', f, len, data', items, body, hf, -, -, -, -, hv, ht⟩ := encodes_one_iff.1 he
  cases ht
  rw [hf] at h
  have hk : f.kind ≠ .binary := by simpa using h
  obtain ⟨k, ls, fx⟩ := f
  cases k <;> first | exact hk rfl | simp [Kind.value] at hv

theorem binary_tags (tag : UInt8) : tag ≠ 0xc4 → tag ≠ 0xc5 → tag ≠ 0xc6 →
    (format tag).all (fun f => decide (f.kind ≠ .binary)) = true := by
  revert tag
  exact forall_tag (by decide)

/-- The data behind a binary tag with a length field of `size` bytes. -/
theorem exact_binaryData {tag : UInt8} {size : Nat} (hs : size ≠ 0)
    (hf : format tag = some ⟨.binary, size, 0⟩) :
    Exact cursor
      (number target size >>= fun count => tryUsize target count >>= fun count =>
        take target count)
      fun data bs => Encodes [.binary data] (tag :: bs) := by
  refine ((exact_number size).bind fun count => (exact_tryUsize count).bind fun count =>
    exact_take count).congr fun r hg data bs hpre => ?_
  rw [encodes_leaf_iff hf fun _ => rfl]
  simp only [Format.count, if_neg hs, Kind.dataSize, Kind.value, Value.binary.injEq]
  constructor
  · rintro ⟨_, len, _, ⟨hl, rfl⟩, ⟨_, _, bs₂, ⟨hle, rfl, rfl⟩, ⟨rfl, hd⟩, rfl⟩, rfl⟩
    exact ⟨len, _, hl, hd, rfl, rfl⟩
  · rintro ⟨len, data, hl, hd, rfl, rfl⟩
    have hle := prefix_length_le hg hpre
    have h16 := target.sixteenBits
    simp only [List.length_append, MAX_PACKET_BYTES] at hle
    exact ⟨beNat len, len, data, ⟨hl, rfl⟩, ⟨beNat len, [], data, ⟨by omega, rfl, rfl⟩,
      ⟨rfl, hd⟩, rfl⟩, rfl⟩

/-- **`binary` accepts exactly the binaries.** -/
theorem exact_binary : Exact cursor (binary target) fun data bs => Encodes [.binary data] bs := by
  refine exact_tagged (fun tag => ?_) fun n => not_encodes_nil
  by_cases h1 : tag = 0xc4
  · rw [if_pos h1, h1]; exact exact_binaryData (by decide) rfl
  rw [if_neg h1]
  by_cases h2 : tag = 0xc5
  · rw [if_pos h2, h2]; exact exact_binaryData (by decide) rfl
  rw [if_neg h2]
  by_cases h3 : tag = 0xc6
  · rw [if_pos h3, h3]; exact exact_binaryData (by decide) rfl
  rw [if_neg h3]
  refine ((exact_throw Error.shape).bind fun count => (exact_tryUsize count).bind fun count =>
    exact_take count).congr fun _ _ data bs _ => ⟨?_, fun h => ?_⟩
  · rintro ⟨_, _, _, h, -⟩
    exact h.elim
  · exact absurd h (not_encodes_binary (binary_tags tag h1 h2 h3) data bs)

/-! ## Container headers -/

theorem format_fixmap (tag : UInt8) : 0x80 ≤ tag ∧ tag ≤ 0x8f →
    format tag = some ⟨.map, 0, (tag &&& 15).toNat⟩ := by
  revert tag
  exact forall_tag (by decide)

theorem format_fixarray (tag : UInt8) : 0x90 ≤ tag ∧ tag ≤ 0x9f →
    format tag = some ⟨.array, 0, (tag &&& 15).toNat⟩ := by
  revert tag
  exact forall_tag (by decide)

theorem map_tags (tag : UInt8) : ¬ (0x80 ≤ tag ∧ tag ≤ 0x8f) → tag ≠ 0xde → tag ≠ 0xdf →
    (format tag).all (fun f => decide (f.kind ≠ .map)) = true := by
  revert tag
  exact forall_tag (by decide)

theorem array_tags (tag : UInt8) : ¬ (0x90 ≤ tag ∧ tag ≤ 0x9f) → tag ≠ 0xdc → tag ≠ 0xdd →
    (format tag).all (fun f => decide (f.kind ≠ .array)) = true := by
  revert tag
  exact forall_tag (by decide)

theorem not_header {k : Kind} {n : Nat} {tag : UInt8}
    (h : (format tag).all (fun f => decide (f.kind ≠ k)) = true) (bs : List UInt8) :
    ¬ Header k n (tag :: bs) := fun hh => by
  obtain ⟨f, hf, hk, -⟩ := header_cons_iff.1 hh
  rw [hf] at h
  simp [hk] at h

/-- The header of a container whose short form has the tags `lo` to `hi` and whose length fields
have the tags `t2` and `t4`. -/
def header (target : Target) (lo hi t2 t4 : UInt8) : Read Nat := do
  let tag ← byte target
  if lo ≤ tag ∧ tag ≤ hi then pure (tag &&& 15).toNat
  else if tag = t2 then number target 2
  else if tag = t4 then do
    let count ← number target 4
    tryUsize target count
  else throw .shape

theorem exact_header {k : Kind} {lo hi t2 t4 : UInt8}
    (hfix : ∀ tag, lo ≤ tag ∧ tag ≤ hi → format tag = some ⟨k, 0, (tag &&& 15).toNat⟩)
    (h2 : format t2 = some ⟨k, 2, 0⟩) (h4 : format t4 = some ⟨k, 4, 0⟩)
    (hno : ∀ tag, ¬ (lo ≤ tag ∧ tag ≤ hi) → tag ≠ t2 → tag ≠ t4 →
      (format tag).all (fun f => decide (f.kind ≠ k)) = true) :
    Exact cursor (header target lo hi t2 t4) fun n bs =>
      Header k n bs ∧ n ≤ target.usizeMax := by
  have h16 := target.sixteenBits
  refine exact_tagged (fun tag => ?_) fun n h => not_header_nil h.1
  by_cases hc0 : lo ≤ tag ∧ tag ≤ hi
  · rw [if_pos hc0]
    refine (exact_pure _).congr fun _ _ n bs _ => ?_
    rw [header_tag_iff (hfix tag hc0), if_pos rfl, List.length_eq_zero_iff]
    constructor
    · rintro ⟨rfl, rfl⟩
      have := (tag &&& 15).toNat_lt
      exact ⟨⟨rfl, rfl⟩, by omega⟩
    · rintro ⟨⟨rfl, rfl⟩, -⟩
      exact ⟨rfl, rfl⟩
  rw [if_neg hc0]
  by_cases hc2 : tag = t2
  · rw [if_pos hc2, hc2]
    refine (exact_number 2).congr fun _ _ n bs _ => ?_
    rw [header_tag_iff h2, if_neg (by decide)]
    constructor
    · rintro ⟨hl, rfl⟩
      have := beNat_le (Nat.le_of_eq hl)
      exact ⟨⟨hl, rfl⟩, by omega⟩
    · rintro ⟨h, -⟩
      exact h
  rw [if_neg hc2]
  by_cases hc4 : tag = t4
  · rw [if_pos hc4, hc4]
    refine ((exact_number 4).bind fun count => exact_tryUsize count).congr fun _ _ n bs _ => ?_
    rw [header_tag_iff h4, if_neg (by decide)]
    constructor
    · rintro ⟨_, _, _, ⟨hl, rfl⟩, ⟨hle, rfl, rfl⟩, rfl⟩
      rw [List.append_nil]
      exact ⟨⟨hl, rfl⟩, hle⟩
    · rintro ⟨⟨hl, rfl⟩, hle⟩
      exact ⟨beNat bs, bs, [], ⟨hl, rfl⟩, ⟨hle, rfl, rfl⟩, by simp⟩
  rw [if_neg hc4]
  exact (exact_throw Error.shape).congr fun _ _ n bs _ =>
    ⟨False.elim, fun h => not_header (hno tag hc0 hc2 hc4) bs h.1⟩

/-- **`map_len` accepts exactly the map headers** of a count that fits a `usize`. -/
theorem exact_mapLen : Exact cursor (mapLen target) fun n bs =>
    Header .map n bs ∧ n ≤ target.usizeMax :=
  exact_header format_fixmap rfl rfl map_tags

/-- The array header that `array_len` looks ahead for. -/
theorem exact_arrayHeader : Exact cursor (header target 0x90 0x9f 0xdc 0xdd) fun n bs =>
    Header .array n bs ∧ n ≤ target.usizeMax :=
  exact_header format_fixarray rfl rfl array_tags

def isArrayTag (tag : UInt8) : Bool := (0x90 ≤ tag ∧ tag ≤ 0x9f) ∨ tag = 0xdc ∨ tag = 0xdd

theorem isArrayTag_iff (tag : UInt8) : isArrayTag tag = false ↔
    (format tag).all (fun f => decide (f.kind ≠ .array)) = true := by
  revert tag
  exact forall_tag (by decide)

theorem rest_of_none {r : Reader} (h : r.bytes[r.offset]? = none) : cursor.rest r = [] :=
  List.drop_eq_nil_iff.2 (List.getElem?_eq_none_iff.1 h)

theorem rest_of_some {r : Reader} {tag : UInt8} (h : r.bytes[r.offset]? = some tag) :
    cursor.rest r = tag :: r.bytes.drop (r.offset + 1) := by
  obtain ⟨hlt, hget⟩ := List.getElem?_eq_some_iff.1 h
  rw [← hget]
  exact List.drop_eq_getElem_cons hlt

theorem byte_of_get {r : Reader} {tag : UInt8} (hg : cursor.good r)
    (h : r.bytes[r.offset]? = some tag) :
    byte target r = .ok (tag, { r with offset := r.offset + 1 }) := by
  refine (exact_byte r hg tag _).2 ⟨[tag], rfl, ?_, rfl⟩
  rw [rest_of_some h]
  exact List.prefix_append [tag] _

/-- `array_len` looks at the next byte: an array header, or nothing is consumed. -/
theorem arrayLen_eq {r : Reader} (hg : cursor.good r) :
    arrayLen target r =
      match r.bytes[r.offset]? with
      | none => .error .truncated
      | some tag =>
        if isArrayTag tag then (header target 0x90 0x9f 0xdc 0xdd >>= fun n => pure (some n)) r
        else .ok (none, r) := by
  cases hget : r.bytes[r.offset]? with
  | none =>
    have hp : peek r = .error .truncated := by simp only [peek, hget]
    exact bind_of_error hp
  | some tag =>
    have hp : peek r = .ok (tag, r) := by simp only [peek, hget]
    have hb : byte target r = .ok (tag, { r with offset := r.offset + 1 }) := byte_of_get hg hget
    have hs : step r = .ok ((), { r with offset := r.offset + 1 }) := rfl
    refine (bind_of_ok hp).trans ?_
    dsimp only
    rw [header, bind_assoc, bind_of_ok hb]
    by_cases h0 : 0x90 ≤ tag ∧ tag ≤ 0x9f
    · rw [if_pos h0, if_pos h0, if_pos (by simp [isArrayTag, h0]), bind_of_ok hs]
      rfl
    rw [if_neg h0, if_neg h0]
    by_cases h1 : tag = 0xdc
    · rw [if_pos h1, if_pos h1, if_pos (by simp [isArrayTag, h1]), bind_of_ok hs]
    rw [if_neg h1, if_neg h1]
    by_cases h2 : tag = 0xdd
    · rw [if_pos h2, if_pos h2, if_pos (by simp [isArrayTag, h2]), bind_of_ok hs, bind_assoc]
    · rw [if_neg h2, if_neg (by simp [isArrayTag, h0, h1, h2])]
      rfl

/-- The items of an array, or one item that is no array. -/
def counted {α : Type} (target : Target) (item : Read α) (max : Nat) : Read (List α) := do
  let count ← arrayLen target
  if count.getD 1 > max then throw Error.limit else times item (count.getD 1)

section
variable {α : Type} {item : Read α} {max : Nat} {r : Reader} {tag : UInt8}

theorem counted_truncated (hg : cursor.good r) (hget : r.bytes[r.offset]? = none) :
    counted target item max r = .error .truncated := by
  have hlen : arrayLen target r = _ := arrayLen_eq hg
  rw [hget] at hlen
  exact bind_of_error hlen

theorem counted_array (hg : cursor.good r) (hget : r.bytes[r.offset]? = some tag)
    (ht : isArrayTag tag = true) :
    counted target item max r = (header target 0x90 0x9f 0xdc 0xdd >>= fun n =>
      if n > max then throw Error.limit else times item n) r := by
  have hlen : arrayLen target r = _ := arrayLen_eq hg
  simp only [hget, ht, if_true] at hlen
  rw [counted, bind_congr_at hlen, bind_assoc]
  rfl

theorem counted_single (hg : cursor.good r) (hget : r.bytes[r.offset]? = some tag)
    (ht : isArrayTag tag = false) (hmax : 1 ≤ max) :
    counted target item max r = times item 1 r := by
  have hlen : arrayLen target r = _ := arrayLen_eq hg
  simp only [hget, ht, Bool.false_eq_true, if_false] at hlen
  rw [counted, bind_of_ok hlen]
  dsimp only [Option.getD_none]
  rw [if_neg (by omega)]

end

/-- An array of items, or one item that is no array: the count is bounded in both cases. -/
theorem exact_counted {α : Type} {item : Read α} {R : α → List UInt8 → Prop}
    (hitem : Exact cursor item R) {max : Nat} (hmax : 1 ≤ max) (hmax16 : max ≤ 65535)
    (hR : ∀ a bs, R a bs → ∃ tag t, bs = tag :: t ∧
      (format tag).all (fun f => decide (f.kind ≠ .array)) = true) :
    Exact cursor (counted target item max) fun as bs => as.length ≤ max ∧
      ((∃ h body, Header .array as.length h ∧ Each R as body ∧ bs = h ++ body) ∨
        ∃ a, as = [a] ∧ R a bs) := by
  intro r hg as r'
  have h16 := target.sixteenBits
  cases hget : r.bytes[r.offset]? with
  | none =>
    rw [counted_truncated hg hget]
    refine ⟨nofun, ?_⟩
    rintro ⟨bs, ⟨-, h⟩, hpre, -⟩
    rw [rest_of_none hget, List.prefix_nil] at hpre
    subst hpre
    rcases h with ⟨h, body, hh, -, he⟩ | ⟨a, -, ha⟩
    · obtain ⟨rfl, rfl⟩ := List.append_eq_nil_iff.1 he.symm
      exact absurd hh not_header_nil
    · obtain ⟨tag, t, he, -⟩ := hR a [] ha
      cases he
  | some tag =>
    have hfirst {tag' : UInt8} {t : List UInt8} (hp : tag' :: t <+: cursor.rest r) : tag' = tag := by
      rw [rest_of_some hget] at hp
      exact (List.cons_prefix_cons.1 hp).1
    cases ht : isArrayTag tag with
    | true =>
      have hguard (n : Nat) : Exact cursor
          (if n > max then throw Error.limit else times item n)
          fun as bs => ¬ n > max ∧ as.length = n ∧ Each R as bs := (hitem.times n).guard
      have hhead : Exact cursor (header target 0x90 0x9f 0xdc 0xdd) _ := exact_arrayHeader
      rw [counted_array hg hget ht, hhead.bind hguard r hg as r']
      refine exists_congr fun bs => and_congr_left fun hp => ?_
      constructor
      · rintro ⟨n, h, body, ⟨hh, -⟩, ⟨hle, rfl, he⟩, rfl⟩
        exact ⟨Nat.not_lt.1 hle, .inl ⟨h, body, hh, he, rfl⟩⟩
      · rintro ⟨hle, ⟨h, body, hh, he, rfl⟩ | ⟨a, rfl, ha⟩⟩
        · exact ⟨as.length, h, body, ⟨hh, by omega⟩, ⟨Nat.not_lt.2 hle, rfl, he⟩, rfl⟩
        · obtain ⟨tag', t, rfl, hno⟩ := hR a bs ha
          rw [hfirst hp.1, ← isArrayTag_iff, ht] at hno
          cases hno
    | false =>
      rw [counted_single hg hget ht hmax, hitem.times 1 r hg as r']
      refine exists_congr fun bs => and_congr_left fun hp => ?_
      constructor
      · rintro ⟨hl, he⟩
        cases he with
        | nil => cases hl
        | @cons a as' bs₁ bs₂ ha hes =>
          obtain rfl := List.length_eq_zero_iff.1 (by simpa using hl : as'.length = 0)
          obtain rfl := each_nil_iff.1 hes
          rw [List.append_nil]
          exact ⟨hmax, .inr ⟨a, rfl, ha⟩⟩
      · rintro ⟨-, ⟨h, body, hh, -, rfl⟩ | ⟨a, rfl, ha⟩⟩
        · obtain ⟨tag', f, len, hf, hk, -, -, rfl⟩ := hh
          rw [hfirst hp.1] at hf
          rw [isArrayTag_iff, hf] at ht
          simp [hk] at ht
        · exact ⟨rfl, by simpa using Each.cons ha .nil⟩

/-! ## Skipping a value -/

theorem format_fixstr (tag : UInt8) : 0xa0 ≤ tag ∧ tag ≤ 0xbf →
    format tag = some ⟨.string, 0, (tag &&& 31).toNat⟩ := by
  revert tag
  exact forall_tag (by decide)

theorem format_scalar (tag : UInt8) : tag ≤ 0x7f ∨ 0xe0 ≤ tag ∨ tag = 0xc0 ∨ tag = 0xc2 ∨
    tag = 0xc3 → (format tag).any (fun f => f.lenSize = 0 ∧ f.kind.dataSize f.fixed = 0 ∧
      f.kind.childCount f.fixed = 0) = true := by
  revert tag
  exact forall_tag (by decide)

theorem format_fixext (tag : UInt8) : 0xd4 ≤ tag ∧ tag ≤ 0xd8 →
    format tag = some ⟨.ext, 0, 1 <<< (tag - 0xd4).toNat⟩ := by
  revert tag
  exact forall_tag (by decide)

theorem format_ext (tag : UInt8) : 0xc7 ≤ tag ∧ tag ≤ 0xc9 →
    format tag = some ⟨.ext, 1 <<< (tag - 0xc7).toNat, 0⟩ := by
  revert tag
  exact forall_tag (by decide)

theorem format_container (tag : UInt8) : 0xdc ≤ tag ∧ tag ≤ 0xdf →
    format tag = some ⟨if tag ≥ 0xde then .map else .array, if tag &&& 1 = 0 then 2 else 4, 0⟩ := by
  revert tag
  exact forall_tag (by decide)

theorem fixext_le (tag : UInt8) : 0xd4 ≤ tag ∧ tag ≤ 0xd8 → 1 <<< (tag - 0xd4).toNat ≤ 16 := by
  revert tag
  exact forall_tag (by decide)

/-- No other tag has a format. -/
theorem format_none {tag : UInt8}
    (h : ¬ (tag ≤ 0x7f ∨ 0xe0 ≤ tag ∨ tag = 0xc0 ∨ tag = 0xc2 ∨ tag = 0xc3))
    (h1 : ¬ (0x80 ≤ tag ∧ tag ≤ 0x8f)) (h2 : ¬ (0x90 ≤ tag ∧ tag ≤ 0x9f))
    (h3 : ¬ (0xa0 ≤ tag ∧ tag ≤ 0xbf)) (h4 : ¬ (tag = 0xcc ∨ tag = 0xd0))
    (h5 : ¬ (tag = 0xcd ∨ tag = 0xd1)) (h6 : ¬ (tag = 0xce ∨ tag = 0xd2 ∨ tag = 0xca))
    (h7 : ¬ (tag = 0xcf ∨ tag = 0xd3 ∨ tag = 0xcb)) (h8 : ¬ (tag = 0xc4 ∨ tag = 0xd9))
    (h9 : ¬ (tag = 0xc5 ∨ tag = 0xda)) (h10 : ¬ (tag = 0xc6 ∨ tag = 0xdb))
    (h11 : ¬ (0xdc ≤ tag ∧ tag ≤ 0xdf)) (h12 : ¬ (0xd4 ≤ tag ∧ tag ≤ 0xd8))
    (h13 : ¬ (0xc7 ≤ tag ∧ tag ≤ 0xc9)) : format tag = none := by
  have h0 : tag = 0xc1 := by
    simp only [UInt8.le_iff_toNat_le, ← UInt8.toNat_inj, UInt8.reduceToNat] at *
    omega
  rw [h0]
  rfl

/-- What `skipShape` computes from a format's length field. -/
def ShapeOf (target : Target) (f : Format) (shape : Nat × Nat) (len : List UInt8) : Prop :=
  len.length = f.lenSize ∧ shape.1 = f.kind.dataSize (f.count len) ∧
    shape.2 = f.kind.childCount (f.count len) ∧
    shape.1 ≤ target.usizeMax ∧ shape.2 ≤ target.usizeMax

/-- A tag without a length field. -/
theorem exact_shapeFixed {tag : UInt8} {k : Kind} {n b c : Nat}
    (hf : format tag = some ⟨k, 0, n⟩) (hb : b = k.dataSize n) (hc : c = k.childCount n)
    (hb16 : b ≤ 65535) (hc16 : c ≤ 65535) :
    Exact cursor (pure (b, c) : Read (Nat × Nat)) fun sh bs =>
      ∃ f, format tag = some f ∧ ShapeOf target f sh bs := by
  have h16 := target.sixteenBits
  refine (exact_pure (b, c)).congr fun _ _ sh bs _ => ?_
  rw [hf]
  constructor
  · rintro ⟨rfl, rfl⟩
    exact ⟨_, rfl, rfl, hb, hc, by dsimp only; omega, by dsimp only; omega⟩
  · rintro ⟨f, he, hl, h1, h2, -⟩
    cases he
    exact ⟨Prod.ext (h1.trans hb.symm) (h2.trans hc.symm), List.length_eq_zero_iff.1 hl⟩

/-- A tag with a length field of `size` bytes, and what is computed from the count. -/
theorem exact_shapeSized {tag : UInt8} {k : Kind} {size : Nat} {g : Nat → Read (Nat × Nat)}
    {Q : Nat → Nat × Nat → List UInt8 → Prop} (hs : size ≠ 0)
    (hf : format tag = some ⟨k, size, 0⟩) (hg : ∀ count, Exact cursor (g count) (Q count))
    (hQ : ∀ count sh bs, (size ≤ 2 → count ≤ target.usizeMax) →
      (Q count sh bs ↔ sh = (k.dataSize count, k.childCount count) ∧
        sh.1 ≤ target.usizeMax ∧ sh.2 ≤ target.usizeMax ∧ bs = [])) :
    Exact cursor (number target size >>= g) fun sh bs =>
      ∃ f, format tag = some f ∧ ShapeOf target f sh bs := by
  have h16 := target.sixteenBits
  have hbound {bs : List UInt8} (hl : bs.length = size) (h2 : size ≤ 2) :
      beNat bs ≤ target.usizeMax := Nat.le_trans (beNat_le (hl ▸ h2)) h16
  refine ((exact_number size).bind hg).congr fun _ _ sh bs _ => ?_
  rw [hf]
  constructor
  · rintro ⟨_, bs₁, bs₂, ⟨hl, rfl⟩, hq, rfl⟩
    obtain ⟨rfl, h1, h2, rfl⟩ := (hQ _ _ _ (hbound hl)).1 hq
    rw [List.append_nil]
    exact ⟨_, rfl, hl, by simp [Format.count, hs], by simp [Format.count, hs], h1, h2⟩
  · rintro ⟨f, he, hl, h1, h2, h3, h4⟩
    cases he
    simp only [Format.count, hs, if_false] at h1 h2
    exact ⟨beNat bs, bs, [], ⟨hl, rfl⟩,
      (hQ _ _ _ (hbound hl)).2 ⟨Prod.ext h1 h2, h3, h4, rfl⟩, by simp⟩

/-- Data of a counted size. -/
theorem exact_shapeShort {tag : UInt8} {k : Kind} {size : Nat} (hs : size ≠ 0) (h2 : size ≤ 2)
    (hf : format tag = some ⟨k, size, 0⟩) (hd : ∀ n, k.dataSize n = n)
    (hc : ∀ n, k.childCount n = 0) :
    Exact cursor (number target size >>= fun count => pure (count, 0)) fun sh bs =>
      ∃ f, format tag = some f ∧ ShapeOf target f sh bs := by
  refine exact_shapeSized hs hf (fun count => exact_pure (count, 0)) fun count sh bs hb => ?_
  rw [hd, hc]
  constructor
  · rintro ⟨rfl, rfl⟩
    exact ⟨rfl, hb h2, Nat.zero_le _, rfl⟩
  · rintro ⟨h, -, -, rfl⟩
    exact ⟨h, rfl⟩

theorem exact_shapeLong {tag : UInt8} {k : Kind} {size : Nat} (hs : size ≠ 0)
    (hf : format tag = some ⟨k, size, 0⟩) (hd : ∀ n, k.dataSize n = n)
    (hc : ∀ n, k.childCount n = 0) :
    Exact cursor
      (number target size >>= fun count => tryUsize target count >>= fun count =>
        pure (count, 0))
      fun sh bs => ∃ f, format tag = some f ∧ ShapeOf target f sh bs := by
  refine exact_shapeSized hs hf
    (fun count => (exact_tryUsize count).bind fun count => exact_pure (count, 0))
    fun count sh bs _ => ?_
  rw [hd, hc]
  constructor
  · rintro ⟨_, _, _, ⟨hle, rfl, rfl⟩, ⟨rfl, rfl⟩, rfl⟩
    exact ⟨rfl, hle, Nat.zero_le _, rfl⟩
  · rintro ⟨rfl, hle, -, rfl⟩
    exact ⟨count, [], [], ⟨hle, rfl, rfl⟩, ⟨rfl, rfl⟩, rfl⟩

/-- Containers: as many children as counted, twice as many in a map. -/
theorem exact_shapeContainer {tag : UInt8} {k : Kind} {size m : Nat} (hs : size ≠ 0)
    (hf : format tag = some ⟨k, size, 0⟩) (hm : 1 ≤ m) (hd : ∀ n, k.dataSize n = 0)
    (hc : ∀ n, k.childCount n = n * m) :
    Exact cursor
      (number target size >>= fun count => tryUsize target count >>= fun count =>
        tryUsize target (count * m) >>= fun children => pure (0, children))
      fun sh bs => ∃ f, format tag = some f ∧ ShapeOf target f sh bs := by
  refine exact_shapeSized hs hf
    (fun count => (exact_tryUsize count).bind fun count => (exact_tryUsize (count * m)).bind
      fun children => exact_pure (0, children)) fun count sh bs _ => ?_
  rw [hd, hc]
  constructor
  · rintro ⟨_, _, _, ⟨-, rfl, rfl⟩, ⟨_, _, _, ⟨hle, rfl, rfl⟩, ⟨rfl, rfl⟩, rfl⟩, rfl⟩
    exact ⟨rfl, Nat.zero_le _, hle, rfl⟩
  · rintro ⟨rfl, -, hle, rfl⟩
    have : count ≤ count * m := Nat.le_mul_of_pos_right _ hm
    exact ⟨count, [], [], ⟨by dsimp only at hle; omega, rfl, rfl⟩,
      ⟨count * m, [], [], ⟨hle, rfl, rfl⟩, ⟨rfl, rfl⟩, rfl⟩, rfl⟩

theorem exact_shapeExt {tag : UInt8} {size : Nat} (hs : size ≠ 0)
    (hf : format tag = some ⟨.ext, size, 0⟩) :
    Exact cursor
      (number target size >>= fun count => tryUsize target count >>= fun count =>
        tryUsize target (count + 1) >>= fun bytes => pure (bytes, 0))
      fun sh bs => ∃ f, format tag = some f ∧ ShapeOf target f sh bs := by
  refine exact_shapeSized hs hf
    (fun count => (exact_tryUsize count).bind fun count => (exact_tryUsize (count + 1)).bind
      fun bytes => exact_pure (bytes, 0)) fun count sh bs _ => ?_
  simp only [Kind.dataSize, Kind.childCount]
  constructor
  · rintro ⟨_, _, _, ⟨-, rfl, rfl⟩, ⟨_, _, _, ⟨hle, rfl, rfl⟩, ⟨rfl, rfl⟩, rfl⟩, rfl⟩
    exact ⟨rfl, hle, Nat.zero_le _, rfl⟩
  · rintro ⟨rfl, hle, -, rfl⟩
    exact ⟨count, [], [], ⟨by dsimp only at hle; omega, rfl, rfl⟩,
      ⟨count + 1, [], [], ⟨hle, rfl, rfl⟩, ⟨rfl, rfl⟩, rfl⟩, rfl⟩

/-- **The shape of a value**: `skip`'s match on the tag computes what the format table says. -/
theorem exact_skipShape (tag : UInt8) : Exact cursor (skipShape target tag) fun sh bs =>
    ∃ f, format tag = some f ∧ ShapeOf target f sh bs := by
  unfold skipShape
  by_cases h : tag ≤ 0x7f ∨ 0xe0 ≤ tag ∨ tag = 0xc0 ∨ tag = 0xc2 ∨ tag = 0xc3
  · rw [if_pos h]
    have hany := format_scalar tag h
    cases hf : format tag with
    | none => rw [hf] at hany; cases hany
    | some f =>
      obtain ⟨k, ls, fx⟩ := f
      rw [hf] at hany
      obtain ⟨rfl, h1, h2⟩ : ls = 0 ∧ k.dataSize fx = 0 ∧ k.childCount fx = 0 := by
        simpa using hany
      rw [← hf]
      exact exact_shapeFixed hf h1.symm h2.symm (by decide) (by decide)
  rw [if_neg h]
  by_cases h1 : 0x80 ≤ tag ∧ tag ≤ 0x8f
  · rw [if_pos h1]
    have := (tag &&& 15).toNat_lt
    exact exact_shapeFixed (format_fixmap tag h1) rfl rfl (by decide) (by omega)
  rw [if_neg h1]
  by_cases h2 : 0x90 ≤ tag ∧ tag ≤ 0x9f
  · rw [if_pos h2]
    have := (tag &&& 15).toNat_lt
    exact exact_shapeFixed (format_fixarray tag h2) rfl rfl (by decide) (by omega)
  rw [if_neg h2]
  by_cases h3 : 0xa0 ≤ tag ∧ tag ≤ 0xbf
  · rw [if_pos h3]
    have := (tag &&& 31).toNat_lt
    exact exact_shapeFixed (format_fixstr tag h3) rfl rfl (by omega) (by decide)
  rw [if_neg h3]
  by_cases h4 : tag = 0xcc ∨ tag = 0xd0
  · rw [if_pos h4]
    rcases h4 with rfl | rfl <;> exact exact_shapeFixed rfl rfl rfl (by decide) (by decide)
  rw [if_neg h4]
  by_cases h5 : tag = 0xcd ∨ tag = 0xd1
  · rw [if_pos h5]
    rcases h5 with rfl | rfl <;> exact exact_shapeFixed rfl rfl rfl (by decide) (by decide)
  rw [if_neg h5]
  by_cases h6 : tag = 0xce ∨ tag = 0xd2 ∨ tag = 0xca
  · rw [if_pos h6]
    rcases h6 with rfl | rfl | rfl <;>
      exact exact_shapeFixed rfl rfl rfl (by decide) (by decide)
  rw [if_neg h6]
  by_cases h7 : tag = 0xcf ∨ tag = 0xd3 ∨ tag = 0xcb
  · rw [if_pos h7]
    rcases h7 with rfl | rfl | rfl <;>
      exact exact_shapeFixed rfl rfl rfl (by decide) (by decide)
  rw [if_neg h7]
  by_cases h8 : tag = 0xc4 ∨ tag = 0xd9
  · rw [if_pos h8]
    rcases h8 with rfl | rfl <;>
      exact exact_shapeShort (by decide) (by decide) rfl (fun _ => rfl) fun _ => rfl
  rw [if_neg h8]
  by_cases h9 : tag = 0xc5 ∨ tag = 0xda
  · rw [if_pos h9]
    rcases h9 with rfl | rfl <;>
      exact exact_shapeShort (by decide) (by decide) rfl (fun _ => rfl) fun _ => rfl
  rw [if_neg h9]
  by_cases h10 : tag = 0xc6 ∨ tag = 0xdb
  · rw [if_pos h10]
    rcases h10 with rfl | rfl <;>
      exact exact_shapeLong (by decide) rfl (fun _ => rfl) fun _ => rfl
  rw [if_neg h10]
  by_cases h11 : 0xdc ≤ tag ∧ tag ≤ 0xdf
  · rw [if_pos h11]
    refine exact_shapeContainer ?_ (format_container tag h11) ?_ ?_ ?_
    · split <;> decide
    · split <;> decide
    · intro n
      split <;> rfl
    · intro n
      split
      · rfl
      · exact (Nat.mul_one n).symm
  rw [if_neg h11]
  by_cases h12 : 0xd4 ≤ tag ∧ tag ≤ 0xd8
  · rw [if_pos h12]
    have h16 := fixext_le tag h12
    exact exact_shapeFixed (format_fixext tag h12) (Nat.add_comm _ _) rfl (by omega) (by decide)
  rw [if_neg h12]
  by_cases h13 : 0xc7 ≤ tag ∧ tag ≤ 0xc9
  · rw [if_pos h13]
    refine exact_shapeExt ?_ (format_ext tag h13)
    rw [Nat.shiftLeft_eq, Nat.one_mul]
    exact Nat.ne_of_gt (Nat.two_pow_pos _)
  rw [if_neg h13]
  have hnone : format tag = none :=
    format_none h h1 h2 h3 h4 h5 h6 h7 h8 h9 h10 h11 h12 h13
  exact (exact_throw Error.shape).congr fun _ _ _ _ _ =>
    ⟨False.elim, fun ⟨f, hf, _⟩ => by rw [hnone] at hf; cases hf⟩

/-- Values skipped one after another. -/
theorem each_skipped_iff {C : Value → Prop} {us : List Unit} {bs : List UInt8} :
    Each (fun _ bs => ∃ v, Encodes [v] bs ∧ C v) us bs ↔
      ∃ items : List Value, items.length = us.length ∧ Encodes items bs ∧ ∀ w ∈ items, C w := by
  have h : Each (fun _ bs => ∃ v, Encodes [v] bs ∧ C v) us bs ↔
      ∃ items, Encodes items bs ∧ List.Forall₂ (fun w _ => C w) items us := each_encodes_iff
  rw [h]
  refine exists_congr fun items => ⟨fun ⟨he, hf⟩ => ⟨hf.length_eq, he, ?_⟩, fun ⟨hl, he, hC⟩ => ?_⟩
  · intro w hw
    obtain ⟨i, hi, rfl⟩ := List.getElem_of_mem hw
    exact hf.get hi (hf.length_eq ▸ hi)
  · exact ⟨he, List.forall₂_iff_get.2 ⟨hl, fun i hi _ => hC _ (List.get_mem _ _)⟩⟩

/-- A value whose children are skipped by `p`. -/
theorem exact_skipChildren {p : Read Unit} {C : Value → Prop}
    (hp : Exact cursor p fun _ bs => ∃ v, Encodes [v] bs ∧ C v) :
    Exact cursor
      (do
        let tag ← byte target
        let (bytes, children) ← skipShape target tag
        if children > MAX_PACKET_BYTES then throw Error.limit
        else do
          let _ ← take target bytes
          let _ ← times p children
          pure ())
      fun _ bs => ∃ v, Encodes [v] bs ∧ ∀ w ∈ v.children, C w := by
  have h16 := target.sixteenBits
  refine exact_tagged (fun tag => ?_) fun _ ⟨v, h, _⟩ => not_encodes_nil h
  refine ((exact_skipShape tag).bind fun shape => ((exact_take shape.1).bind fun _ =>
    (hp.times shape.2).bind fun _ => exact_pure ()).guard).congr fun r hg _ bs hpre => ?_
  constructor
  · rintro ⟨shape, len, _, ⟨f, hf, hl, hb, hc, -, -⟩, ⟨-, data, _, _, ⟨rfl, hd⟩,
      ⟨us, body, _, ⟨hn, hes⟩, ⟨-, rfl⟩, rfl⟩, rfl⟩, rfl⟩
    obtain ⟨items, hi, he, hC⟩ := each_skipped_iff.1 hes
    have hcount : items.length = f.kind.childCount (f.count len) := by rw [hi, hn, hc]
    refine ⟨f.kind.value data items, ?_, by rwa [children_value hcount]⟩
    exact (encodes_tag_iff hf).2 ⟨len, data, items, body, hl, hd.trans hb, hcount, he, rfl,
      by simp⟩
  · rintro ⟨v, hv, hC⟩
    cases hf : format tag with
    | none => exact absurd hv (not_encodes_of_format hf)
    | some f =>
      obtain ⟨len, data, items, body, hl, hd, hi, he, rfl, rfl⟩ := (encodes_tag_iff hf).1 hv
      -- a packet holds the data and at least a byte for each child
      have hsize := prefix_length_le hg hpre
      have hbody := he.length_le
      simp only [List.length_append, MAX_PACKET_BYTES] at hsize
      rw [children_value hi] at hC
      refine ⟨(data.length, items.length), len, data ++ body, ⟨f, rfl, hl, hd, hi, ?_, ?_⟩,
        ⟨?_, data, data, body, ⟨rfl, rfl⟩, ⟨List.replicate items.length (), body, [],
          ⟨by simp, ?_⟩, ⟨rfl, rfl⟩, by simp⟩, rfl⟩, by simp⟩
      · dsimp only; omega
      · dsimp only; omega
      · simp only [MAX_PACKET_BYTES]; omega
      · exact each_skipped_iff.2 ⟨items, by simp, he, hC⟩

/-- **`skip` accepts exactly the values that nest at most so deep.** -/
theorem exact_skip (d : Nat) : Exact cursor (skip target (d + 1)) fun _ bs =>
    ∃ v, Encodes [v] bs ∧ Within d v := by
  -- on the levels: the children of a value are skipped one level deeper
  induction d with
  | zero =>
    have h0 : Exact cursor (skip target 0) fun _ bs => ∃ v, Encodes [v] bs ∧ False :=
      (exact_throw Error.limit).congr fun _ _ _ _ _ => by simp
    refine (exact_skipChildren h0).congr fun _ _ _ bs _ => ?_
    exact exists_congr fun v => and_congr_right fun _ => List.eq_nil_iff_forall_not_mem.symm
  | succ d ih => exact exact_skipChildren ih

end Reader

end Lxst.Embedded.Wire
