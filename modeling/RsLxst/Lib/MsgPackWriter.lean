import RsLxst.Lib.MsgPack

/-!
# A MessagePack writer

`write v` is the encoding of `v` in the shortest forms: the smallest length field that holds a
length, the smallest form that holds a number, an unsigned one where the number is not negative.
Every value is a header, its data and its nested values (`encodes_of_header`); `encodes_write` is
that the writer writes an encoding, of every value whose numbers and lengths the format can hold
(`Fits`).
-/

set_option autoImplicit false

namespace MsgPack

/-- The low `size` bytes of a number, big-endian. -/
def beBytes : Nat → Nat → List UInt8
  | 0, _ => []
  | size + 1, n => beBytes size (n / 256) ++ [UInt8.ofNat n]

/-- A tag with the smallest length field that holds `n`. -/
def sized (tag8 tag16 tag32 : UInt8) (n : Nat) : List UInt8 :=
  if n < 256 then tag8 :: beBytes 1 n
  else if n < 65536 then tag16 :: beBytes 2 n
  else tag32 :: beBytes 4 n

/-- The header of a container: `fix` with the length in its low bits, or a length field. -/
def containerHeader (fix tag16 tag32 : UInt8) (n : Nat) : List UInt8 :=
  if n < 16 then [fix ||| UInt8.ofNat n]
  else if n < 65536 then tag16 :: beBytes 2 n
  else tag32 :: beBytes 4 n

def writeUint (n : Nat) : List UInt8 :=
  if n < 128 then [UInt8.ofNat n]
  else if n < 256 then 0xcc :: beBytes 1 n
  else if n < 65536 then 0xcd :: beBytes 2 n
  else if n < 0x100000000 then 0xce :: beBytes 4 n
  else 0xcf :: beBytes 8 n

/-- The number `-1 - n`, whose two's complement is the complement of `n`. -/
def writeNegative (n : Nat) : List UInt8 :=
  if n < 32 then [UInt8.ofNat (255 - n)]
  else if n < 128 then 0xd0 :: beBytes 1 (0xff - n)
  else if n < 32768 then 0xd1 :: beBytes 2 (0xffff - n)
  else if n < 0x80000000 then 0xd2 :: beBytes 4 (0xffffffff - n)
  else 0xd3 :: beBytes 8 (0xffffffffffffffff - n)

def writeInteger : Int → List UInt8
  | .ofNat n => writeUint n
  | .negSucc n => writeNegative n

def stringHeader (n : Nat) : List UInt8 :=
  if n < 32 then [0xa0 ||| UInt8.ofNat n] else sized 0xd9 0xda 0xdb n

def extHeader (n : Nat) : List UInt8 :=
  match n with
  | 1 => [0xd4]
  | 2 => [0xd5]
  | 4 => [0xd6]
  | 8 => [0xd7]
  | 16 => [0xd8]
  | n => sized 0xc7 0xc8 0xc9 n

mutual

def write : Value → List UInt8
  | .nil => [0xc0]
  | .boolean b => [if b then 0xc3 else 0xc2]
  | .integer n => writeInteger n
  | .f32 bits => 0xca :: beBytes 4 bits
  | .f64 bits => 0xcb :: beBytes 8 bits
  | .string bytes => stringHeader bytes.length ++ bytes
  | .binary bytes => sized 0xc4 0xc5 0xc6 bytes.length ++ bytes
  | .array items => containerHeader 0x90 0xdc 0xdd items.length ++ writeItems items
  | .map entries => containerHeader 0x80 0xde 0xdf entries.length ++ writeEntries entries
  | .ext type data => extHeader data.length ++ type :: data

def writeItems : List Value → List UInt8
  | [] => []
  | item :: items => write item ++ writeItems items

def writeEntries : List (Value × Value) → List UInt8
  | [] => []
  | (key, value) :: entries => write key ++ write value ++ writeEntries entries

end

mutual

/-- The numbers and lengths of a value are in the format's range. -/
def Fits : Value → Prop
  | .integer n => -0x8000000000000000 ≤ n ∧ n < 0x10000000000000000
  | .f32 bits => bits < 0x100000000
  | .f64 bits => bits < 0x10000000000000000
  | .string bytes => bytes.length < 0x100000000
  | .binary bytes => bytes.length < 0x100000000
  | .array items => items.length < 0x100000000 ∧ FitsItems items
  | .map entries => entries.length < 0x100000000 ∧ FitsEntries entries
  | .ext _ data => data.length < 0x100000000
  | _ => True

def FitsItems : List Value → Prop
  | [] => True
  | item :: items => Fits item ∧ FitsItems items

def FitsEntries : List (Value × Value) → Prop
  | [] => True
  | (key, value) :: entries => Fits key ∧ Fits value ∧ FitsEntries entries

end

/-! ## Big-endian bytes -/

@[simp] theorem length_beBytes (size n : Nat) : (beBytes size n).length = size := by
  induction size generalizing n with
  | zero => rfl
  | succ size ih => rw [beBytes, List.length_append, ih, List.length_singleton]

theorem beNat_beBytes {size n : Nat} (h : n < 1 <<< (size * 8)) : beNat (beBytes size n) = n := by
  rw [Nat.shiftLeft_eq, Nat.one_mul] at h
  induction size generalizing n with
  | zero =>
    rw [Nat.zero_mul] at h
    obtain rfl : n = 0 := by omega
    rfl
  | succ size ih =>
    rw [Nat.add_mul, Nat.one_mul, Nat.pow_add] at h
    have hdiv : n / 256 < 2 ^ (size * 8) := by omega
    rw [beBytes, beNat_append, ih hdiv, UInt8.toNat_ofNat']
    omega

/-! ## Headers -/

/-- A header, the data and the nested values are an encoding. -/
theorem encodes_of_header {k : Kind} {n : Nat} {header data body : List UInt8}
    {items : List Value} (hheader : Header k n header) (hdata : data.length = k.dataSize n)
    (hitems : items.length = k.childCount n) (hbody : Encodes items body) :
    Encodes [k.value data items] (header ++ (data ++ body)) := by
  obtain ⟨tag, f, len, hf, rfl, hlen, rfl, rfl⟩ := hheader
  refine encodes_one_iff.2 ⟨tag, f, len, data, items, body, hf, hlen, hdata, hitems, hbody, rfl, ?_⟩
  rw [List.cons_append, List.append_assoc]

theorem encodes_of_leaf {k : Kind} {n : Nat} {header : List UInt8} (hheader : Header k n header)
    (data : List UInt8) (hdata : data.length = k.dataSize n) (hleaf : k.childCount n = 0) :
    Encodes [k.value data []] (header ++ data) := by
  have h : Encodes [k.value data []] (header ++ (data ++ [])) :=
    encodes_of_header hheader hdata hleaf.symm .nil
  rwa [List.append_nil] at h

/-- A tag whose format gives the count itself. -/
theorem header_fixed {tag : UInt8} {k : Kind} {n : Nat} (hf : format tag = some ⟨k, 0, n⟩) :
    Header k n [tag] :=
  ⟨tag, ⟨k, 0, n⟩, [], hf, rfl, rfl, rfl, rfl⟩

/-- A tag with a length field. -/
theorem header_field {tag : UInt8} {k : Kind} {size n : Nat}
    (hf : format tag = some ⟨k, size + 1, 0⟩) (hn : n < 1 <<< ((size + 1) * 8)) :
    Header k n (tag :: beBytes (size + 1) n) :=
  ⟨tag, ⟨k, size + 1, 0⟩, _, hf, rfl, length_beBytes _ _, beNat_beBytes hn, rfl⟩

theorem header_sized {tag8 tag16 tag32 : UInt8} {k : Kind} {n : Nat}
    (h8 : format tag8 = some ⟨k, 1, 0⟩) (h16 : format tag16 = some ⟨k, 2, 0⟩)
    (h32 : format tag32 = some ⟨k, 4, 0⟩) (hn : n < 0x100000000) :
    Header k n (sized tag8 tag16 tag32 n) := by
  unfold sized
  split
  · exact header_field h8 (by omega)
  split
  · exact header_field h16 (by omega)
  · exact header_field h32 hn

theorem header_container {fix tag16 tag32 : UInt8} {k : Kind} {n : Nat}
    (hfix : ∀ m : Fin 16, format (fix ||| UInt8.ofNat m.val) = some ⟨k, 0, m⟩)
    (h16 : format tag16 = some ⟨k, 2, 0⟩) (h32 : format tag32 = some ⟨k, 4, 0⟩)
    (hn : n < 0x100000000) : Header k n (containerHeader fix tag16 tag32 n) := by
  unfold containerHeader
  split
  · rename_i h
    exact header_fixed (hfix ⟨n, h⟩)
  split
  · exact header_field h16 (by omega)
  · exact header_field h32 hn

theorem header_string {n : Nat} (hn : n < 0x100000000) : Header .string n (stringHeader n) := by
  unfold stringHeader
  split
  · rename_i h
    have hfix : ∀ m : Fin 32, format (0xa0 ||| UInt8.ofNat m.val) = some ⟨.string, 0, m⟩ := by
      decide
    exact header_fixed (hfix ⟨n, h⟩)
  · exact header_sized rfl rfl rfl hn

theorem header_ext {n : Nat} (hn : n < 0x100000000) : Header .ext n (extHeader n) := by
  unfold extHeader
  split
  case h_6 => exact header_sized rfl rfl rfl hn
  all_goals exact header_fixed rfl

/-! ## Numbers -/

theorem encodes_writeUint {n : Nat} (hn : n < 0x10000000000000000) :
    Encodes [.integer n] (writeUint n) := by
  have hfix : ∀ m : Fin 128, format (UInt8.ofNat m.val) = some ⟨.fixint m, 0, 0⟩ := by decide
  have hdata {tag : UInt8} {size : Nat} (hf : format tag = some ⟨.uint, 0, size⟩)
      (h : n < 1 <<< (size * 8)) : Encodes [.integer n] (tag :: beBytes size n) := by
    have := encodes_of_leaf (header_fixed hf) _ (length_beBytes size n) rfl
    rwa [Kind.value, beNat_beBytes h] at this
  unfold writeUint
  split
  · rename_i h
    exact encodes_of_leaf (header_fixed (hfix ⟨n, h⟩)) [] rfl rfl
  split
  · exact hdata rfl (by omega)
  split
  · exact hdata rfl (by omega)
  split
  · exact hdata rfl (by omega)
  · exact hdata rfl hn

/-- The complement of a number below the sign bit is the two's complement of its successor's
negation. -/
theorem beInt_complement {size n : Nat} (hsize : 0 < size) (hn : n < 1 <<< (size * 8 - 1)) :
    beInt (beBytes size ((1 <<< (size * 8)) - 1 - n)) = .negSucc n := by
  have hdouble : 1 <<< (size * 8) = 2 * 1 <<< (size * 8 - 1) := by
    rw [Nat.shiftLeft_eq, Nat.shiftLeft_eq, Nat.one_mul, Nat.one_mul, ← Nat.pow_succ']
    congr 1
    omega
  have hsign : ((1 <<< (size * 8)) - 1 - n) >>> (size * 8 - 1) ≠ 0 := by
    rw [Nat.shiftRight_eq_div_pow, ← Nat.one_mul (2 ^ (size * 8 - 1)), ← Nat.shiftLeft_eq]
    exact Nat.ne_of_gt (Nat.div_pos (by omega) (by omega))
  unfold beInt
  rw [beNat_beBytes (by omega), length_beBytes, if_neg hsign]
  omega

theorem encodes_writeNegative {n : Nat} (hn : n < 0x8000000000000000) :
    Encodes [.integer (.negSucc n)] (writeNegative n) := by
  have hfix : ∀ m : Fin 32, format (UInt8.ofNat (255 - m.val)) =
      some ⟨.fixint (.negSucc m), 0, 0⟩ := by decide
  have hdata {tag : UInt8} {size : Nat} (hf : format tag = some ⟨.int, 0, size⟩)
      (hsize : 0 < size) (h : n < 1 <<< (size * 8 - 1)) :
      Encodes [.integer (.negSucc n)] (tag :: beBytes size ((1 <<< (size * 8)) - 1 - n)) := by
    have := encodes_of_leaf (header_fixed hf) _
      (length_beBytes size ((1 <<< (size * 8)) - 1 - n)) rfl
    rwa [Kind.value, beInt_complement hsize h] at this
  unfold writeNegative
  split
  · rename_i h
    exact encodes_of_leaf (header_fixed (hfix ⟨n, h⟩)) [] rfl rfl
  split
  · exact hdata rfl (by omega) (by omega)
  split
  · exact hdata rfl (by omega) (by omega)
  split
  · exact hdata rfl (by omega) (by omega)
  · exact hdata rfl (by omega) hn

theorem encodes_writeInteger {n : Int} (hn : -0x8000000000000000 ≤ n ∧ n < 0x10000000000000000) :
    Encodes [.integer n] (writeInteger n) := by
  cases n with
  | ofNat n =>
    have h : (n : Int) < 0x10000000000000000 := hn.2
    exact encodes_writeUint (by omega)
  | negSucc n => exact encodes_writeNegative (by omega)

/-! ## Values -/

mutual

/-- **The writer writes an encoding.** -/
theorem encodes_write : ∀ v : Value, Fits v → Encodes [v] (write v)
  | .nil, _ => encodes_of_leaf (k := .nil) (header_fixed rfl) [] rfl rfl
  | .boolean true, _ => encodes_of_leaf (k := .boolean true) (header_fixed rfl) [] rfl rfl
  | .boolean false, _ => encodes_of_leaf (k := .boolean false) (header_fixed rfl) [] rfl rfl
  | .integer _, h => encodes_writeInteger h
  | .f32 bits, h => by
    have hheader : Header .f32 4 [0xca] := header_fixed rfl
    have := encodes_of_leaf hheader _ (length_beBytes 4 bits) rfl
    rwa [Kind.value, beNat_beBytes h] at this
  | .f64 bits, h => by
    have hheader : Header .f64 8 [0xcb] := header_fixed rfl
    have := encodes_of_leaf hheader _ (length_beBytes 8 bits) rfl
    rwa [Kind.value, beNat_beBytes h] at this
  | .string bytes, h => encodes_of_leaf (header_string h) bytes rfl rfl
  | .binary bytes, h => encodes_of_leaf (k := .binary) (header_sized rfl rfl rfl h) bytes rfl rfl
  | .array items, h =>
    encodes_array_iff.2 ⟨_, _, header_container (by decide) rfl rfl h.1,
      encodes_writeItems items h.2, rfl⟩
  | .map entries, h =>
    encodes_map_iff.2 ⟨_, _, header_container (by decide) rfl rfl h.1,
      encodes_writeEntries entries h.2, rfl⟩
  | .ext type data, h => encodes_of_leaf (header_ext h) (type :: data) rfl rfl

theorem encodes_writeItems : ∀ items : List Value, FitsItems items →
    Encodes items (writeItems items)
  | [], _ => .nil
  | item :: items, h =>
    encodes_cons_iff.2 ⟨_, _, encodes_write item h.1, encodes_writeItems items h.2, rfl⟩

theorem encodes_writeEntries : ∀ entries : List (Value × Value), FitsEntries entries →
    Encodes (flatten entries) (writeEntries entries)
  | [], _ => .nil
  | (key, value) :: entries, h => by
    refine encodes_cons_iff.2 ⟨_, _, encodes_write key h.1, ?_, List.append_assoc _ _ _⟩
    exact encodes_cons_iff.2 ⟨_, _, encodes_write value h.2.1, encodes_writeEntries entries h.2.2,
      rfl⟩

end

end MsgPack
