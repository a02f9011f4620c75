import Mathlib.Data.List.Forall2
import Mathlib.Data.List.Induction
import RsLxst.Lib.Parser

/-!
# MessagePack

The format as a table (`format`: the first byte gives the kind of value and the size of its length
field) and as a relation: `Encodes vs bs` says that `bs` is an encoding of the values `vs` one
after another, in any of the alternative forms the format allows. The tag `0xc1` has no format.

`Within d v` bounds the container levels below a value. `read` is a reader with a level limit;
`read_of_encodes` is its completeness.
-/

set_option autoImplicit false

namespace MsgPack

open Parsing (Each)

inductive Value
  | nil
  | boolean (b : Bool)
  | integer (n : Int)
  | f32 (bits : Nat)
  | f64 (bits : Nat)
  | string (bytes : List UInt8)
  | binary (bytes : List UInt8)
  | array (items : List Value)
  | map (entries : List (Value × Value))
  | ext (type : UInt8) (data : List UInt8)

/-! ## The format table -/

inductive Kind
  | nil
  | boolean (b : Bool)
  | fixint (n : Int)
  | uint
  | int
  | f32
  | f64
  | string
  | binary
  | ext
  | array
  | map
  deriving DecidableEq

/-- What a first byte announces: a length field of `lenSize` bytes, or the count `fixed`. -/
structure Format where
  kind : Kind
  lenSize : Nat
  fixed : Nat
  deriving DecidableEq

def format (tag : UInt8) : Option Format :=
  if tag ≤ 0x7f then some ⟨.fixint tag.toNat, 0, 0⟩
  else if tag ≤ 0x8f then some ⟨.map, 0, (tag &&& 15).toNat⟩
  else if tag ≤ 0x9f then some ⟨.array, 0, (tag &&& 15).toNat⟩
  else if tag ≤ 0xbf then some ⟨.string, 0, (tag &&& 31).toNat⟩
  else if tag ≥ 0xe0 then some ⟨.fixint (tag.toNat - 256), 0, 0⟩
  else
    match tag with
    | 0xc0 => some ⟨.nil, 0, 0⟩
    | 0xc2 => some ⟨.boolean false, 0, 0⟩
    | 0xc3 => some ⟨.boolean true, 0, 0⟩
    | 0xc4 => some ⟨.binary, 1, 0⟩
    | 0xc5 => some ⟨.binary, 2, 0⟩
    | 0xc6 => some ⟨.binary, 4, 0⟩
    | 0xc7 => some ⟨.ext, 1, 0⟩
    | 0xc8 => some ⟨.ext, 2, 0⟩
    | 0xc9 => some ⟨.ext, 4, 0⟩
    | 0xca => some ⟨.f32, 0, 4⟩
    | 0xcb => some ⟨.f64, 0, 8⟩
    | 0xcc => some ⟨.uint, 0, 1⟩
    | 0xcd => some ⟨.uint, 0, 2⟩
    | 0xce => some ⟨.uint, 0, 4⟩
    | 0xcf => some ⟨.uint, 0, 8⟩
    | 0xd0 => some ⟨.int, 0, 1⟩
    | 0xd1 => some ⟨.int, 0, 2⟩
    | 0xd2 => some ⟨.int, 0, 4⟩
    | 0xd3 => some ⟨.int, 0, 8⟩
    | 0xd4 => some ⟨.ext, 0, 1⟩
    | 0xd5 => some ⟨.ext, 0, 2⟩
    | 0xd6 => some ⟨.ext, 0, 4⟩
    | 0xd7 => some ⟨.ext, 0, 8⟩
    | 0xd8 => some ⟨.ext, 0, 16⟩
    | 0xd9 => some ⟨.string, 1, 0⟩
    | 0xda => some ⟨.string, 2, 0⟩
    | 0xdb => some ⟨.string, 4, 0⟩
    | 0xdc => some ⟨.array, 2, 0⟩
    | 0xdd => some ⟨.array, 4, 0⟩
    | 0xde => some ⟨.map, 2, 0⟩
    | 0xdf => some ⟨.map, 4, 0⟩
    | _ => none

/-- The big-endian number of some bytes. -/
def beNat (bytes : List UInt8) : Nat := bytes.foldl (fun v b => v * 256 + b.toNat) 0

/-- The big-endian two's-complement number of some bytes. -/
def beInt (bytes : List UInt8) : Int :=
  if beNat bytes >>> (bytes.length * 8 - 1) = 0 then beNat bytes
  else (beNat bytes : Int) - ((1 <<< (bytes.length * 8) : Nat) : Int)

/-- The count that a format's length field `len`, or the format itself, gives. -/
def Format.count (f : Format) (len : List UInt8) : Nat :=
  if f.lenSize = 0 then f.fixed else beNat len

/-- The bytes of data after the length field. -/
def Kind.dataSize : Kind → Nat → Nat
  | .uint, n | .int, n | .f32, n | .f64, n | .string, n | .binary, n => n
  | .ext, n => n + 1
  | _, _ => 0

/-- The values nested after the data. -/
def Kind.childCount : Kind → Nat → Nat
  | .array, n => n
  | .map, n => n * 2
  | _, _ => 0

def pairUp : List Value → List (Value × Value)
  | k :: v :: vs => (k, v) :: pairUp vs
  | _ => []

def Kind.value (k : Kind) (data : List UInt8) (items : List Value) : Value :=
  match k with
  | .nil => .nil
  | .boolean b => .boolean b
  | .fixint n => .integer n
  | .uint => .integer (beNat data)
  | .int => .integer (beInt data)
  | .f32 => .f32 (beNat data)
  | .f64 => .f64 (beNat data)
  | .string => .string data
  | .binary => .binary data
  | .ext => .ext (data.headD 0) data.tail
  | .array => .array items
  | .map => .map (pairUp items)

/-- `bs` encodes the values `vs` one after another. -/
inductive Encodes : List Value → List UInt8 → Prop
  | nil : Encodes [] []
  | cons {tag : UInt8} {f : Format} {len data : List UInt8} {items : List Value}
      {body : List UInt8} {vs : List Value} {bs : List UInt8} :
      format tag = some f → len.length = f.lenSize →
      data.length = f.kind.dataSize (f.count len) →
      items.length = f.kind.childCount (f.count len) → Encodes items body → Encodes vs bs →
      Encodes (f.kind.value data items :: vs) (tag :: (len ++ data ++ body) ++ bs)

theorem encodes_nil_iff {bs : List UInt8} : Encodes [] bs ↔ bs = [] :=
  ⟨fun h => by cases h; rfl, fun h => h ▸ .nil⟩

/-- The encodings of one value. -/
theorem encodes_one_iff {v : Value} {bs : List UInt8} :
    Encodes [v] bs ↔ ∃ tag f len data items body, format tag = some f ∧
      len.length = f.lenSize ∧ data.length = f.kind.dataSize (f.count len) ∧
      items.length = f.kind.childCount (f.count len) ∧ Encodes items body ∧
      v = f.kind.value data items ∧ bs = tag :: (len ++ data ++ body) := by
  constructor
  · intro h
    cases h with
    | cons hf hl hd hi hb hn =>
      rw [encodes_nil_iff] at hn
      subst hn
      exact ⟨_, _, _, _, _, _, hf, hl, hd, hi, hb, rfl, List.append_nil _⟩
  · rintro ⟨tag, f, len, data, items, body, hf, hl, hd, hi, hb, rfl, rfl⟩
    simpa using Encodes.cons hf hl hd hi hb .nil

theorem encodes_cons_iff {v : Value} {vs : List Value} {bs : List UInt8} :
    Encodes (v :: vs) bs ↔ ∃ bs₁ bs₂, Encodes [v] bs₁ ∧ Encodes vs bs₂ ∧ bs = bs₁ ++ bs₂ := by
  constructor
  · intro h
    cases h with
    | cons hf hl hd hi hb hn =>
      exact ⟨_, _, encodes_one_iff.2 ⟨_, _, _, _, _, _, hf, hl, hd, hi, hb, rfl, rfl⟩, hn, rfl⟩
  · rintro ⟨bs₁, bs₂, h1, h2, rfl⟩
    obtain ⟨tag, f, len, data, items, body, hf, hl, hd, hi, hb, rfl, rfl⟩ := encodes_one_iff.1 h1
    exact .cons hf hl hd hi hb h2

theorem encodes_append_iff {vs ws : List Value} {bs : List UInt8} :
    Encodes (vs ++ ws) bs ↔ ∃ bs₁ bs₂, Encodes vs bs₁ ∧ Encodes ws bs₂ ∧ bs = bs₁ ++ bs₂ := by
  induction vs generalizing bs with
  | nil =>
    refine ⟨fun h => ⟨[], bs, .nil, h, rfl⟩, ?_⟩
    rintro ⟨bs₁, bs₂, h1, h2, rfl⟩
    rw [encodes_nil_iff.1 h1]
    exact h2
  | cons v vs ih =>
    rw [List.cons_append, encodes_cons_iff]
    constructor
    · rintro ⟨b₁, _, h1, h2, rfl⟩
      obtain ⟨b₂, b₃, hv, hw, rfl⟩ := ih.1 h2
      exact ⟨b₁ ++ b₂, b₃, encodes_cons_iff.2 ⟨b₁, b₂, h1, hv, rfl⟩, hw,
        (List.append_assoc _ _ _).symm⟩
    · rintro ⟨_, b₃, h1, h3, rfl⟩
      obtain ⟨b₁, b₂, hv, h2, rfl⟩ := encodes_cons_iff.1 h1
      exact ⟨b₁, b₂ ++ b₃, hv, ih.2 ⟨b₂, b₃, h2, h3, rfl⟩, List.append_assoc _ _ _⟩

/-- Items that each stand for the encoding of one value. -/
theorem each_encodes_iff {α : Type} {C : Value → α → Prop} {as : List α} {bs : List UInt8} :
    Each (fun a bs => ∃ v, Encodes [v] bs ∧ C v a) as bs ↔
      ∃ vs, Encodes vs bs ∧ List.Forall₂ C vs as := by
  induction as generalizing bs with
  | nil =>
    rw [Parsing.each_nil_iff]
    constructor
    · rintro rfl
      exact ⟨[], .nil, .nil⟩
    · rintro ⟨vs, he, hf⟩
      cases hf
      exact encodes_nil_iff.1 he
  | cons a as ih =>
    rw [Parsing.each_cons_iff]
    constructor
    · rintro ⟨bs₁, bs₂, ⟨v, hv, hc⟩, hes, rfl⟩
      obtain ⟨vs, he, hf⟩ := ih.1 hes
      exact ⟨v :: vs, encodes_cons_iff.2 ⟨bs₁, bs₂, hv, he, rfl⟩, .cons hc hf⟩
    · rintro ⟨vs, he, hf⟩
      cases hf with
      | cons hc hf =>
        obtain ⟨bs₁, bs₂, hv, hvs, rfl⟩ := encodes_cons_iff.1 he
        exact ⟨bs₁, bs₂, ⟨_, hv, hc⟩, ih.2 ⟨_, hvs, hf⟩, rfl⟩

/-- Every value takes at least a byte. -/
theorem Encodes.length_le {vs : List Value} {bs : List UInt8} (h : Encodes vs bs) :
    vs.length ≤ bs.length := by
  induction h with
  | nil => exact Nat.le_refl _
  | cons _ _ _ _ _ _ _ ih =>
    simp only [List.length_cons, List.length_append]
    omega

/-! ## Nesting -/

/-- The values directly inside a container. -/
def Value.children : Value → List Value
  | .array items => items
  | .map entries => entries.flatMap fun e => [e.1, e.2]
  | _ => []

/-- No element of the value lies more than `d` container levels below it. -/
def Within : Nat → Value → Prop
  | 0, v => v.children = []
  | d + 1, v => ∀ w ∈ v.children, Within d w

theorem Within.of_leaf {v : Value} (h : v.children = []) : (d : Nat) → Within d v
  | 0 => h
  | _ + 1 => fun w hw => by rw [h] at hw; cases hw

theorem Within.succ {d : Nat} {v : Value} (h : Within d v) : Within (d + 1) v := by
  induction d generalizing v with
  | zero => exact .of_leaf h 1
  | succ d ih => exact fun w hw => ih (h w hw)

theorem Within.mono {d e : Nat} (hde : d ≤ e) {v : Value} (h : Within d v) : Within e v := by
  induction hde with
  | refl => exact h
  | step _ ih => exact ih.succ

theorem flatMap_pairUp {n : Nat} {vs : List Value} (h : vs.length = n * 2) :
    ((pairUp vs).flatMap fun e => [e.1, e.2]) = vs := by
  induction n generalizing vs with
  | zero =>
    obtain rfl := List.length_eq_zero_iff.1 (by omega : vs.length = 0)
    rfl
  | succ n ih =>
    match vs with
    | [] => simp at h
    | [_] => simp at h; omega
    | k :: v :: vs =>
      simp only [List.length_cons] at h
      simp [pairUp, ih (by omega : vs.length = n * 2)]

/-- A value's children are the values nested in its encoding. -/
theorem children_value {k : Kind} {n : Nat} {items : List Value}
    (h : items.length = k.childCount n) (data : List UInt8) :
    (k.value data items).children = items := by
  cases k with
  | array => rfl
  | map => exact flatMap_pairUp h
  | _ => exact (List.length_eq_zero_iff.1 h).symm

/-- The nesting of a value is bounded by its size. -/
theorem Encodes.within {vs : List Value} {bs : List UInt8} (h : Encodes vs bs) :
    ∀ v ∈ vs, Within bs.length v := by
  induction h with
  | nil => exact nofun
  | @cons tag f len data items body vs bs hf hl hd hi _ _ ihb ih =>
    intro v hv
    have hlen : body.length + 1 + bs.length ≤ (tag :: (len ++ data ++ body) ++ bs).length := by
      simp only [List.cons_append, List.length_cons, List.length_append]
      omega
    rcases List.mem_cons.1 hv with rfl | hv
    · refine Within.mono (show body.length + 1 ≤ _ by omega) fun w hw => ?_
      rw [children_value hi] at hw
      exact ihb w hw
    · exact (ih v hv).mono (by omega)

/-! ## A reader -/

def splitOff (n : Nat) (bs : List UInt8) : Option (List UInt8 × List UInt8) :=
  if n ≤ bs.length then some (bs.take n, bs.drop n) else none

theorem splitOff_append (xs ys : List UInt8) : splitOff xs.length (xs ++ ys) = some (xs, ys) := by
  simp [splitOff]

/-- `n` values read by `one`, and the bytes after them. -/
def readItems (one : List UInt8 → Option (Value × List UInt8)) :
    Nat → List UInt8 → Option (List Value × List UInt8)
  | 0, bs => some ([], bs)
  | n + 1, bs => do
    let (v, bs) ← one bs
    let (vs, bs) ← readItems one n bs
    some (v :: vs, bs)

/-- The first value, of at most so many container levels, and the bytes after it. -/
def read : Nat → List UInt8 → Option (Value × List UInt8)
  | 0, _ => none
  | _ + 1, [] => none
  | d + 1, tag :: bs => do
    let f ← format tag
    let (len, bs) ← splitOff f.lenSize bs
    let (data, bs) ← splitOff (f.kind.dataSize (f.count len)) bs
    let (items, bs) ← readItems (read d) (f.kind.childCount (f.count len)) bs
    some (f.kind.value data items, bs)

/-- **Completeness of the reader** on values within its level limit. -/
theorem readItems_of_encodes {vs : List Value} {bs : List UInt8} (h : Encodes vs bs) :
    ∀ (d : Nat) (rest : List UInt8), (∀ v ∈ vs, Within d v) →
      readItems (read (d + 1)) vs.length (bs ++ rest) = some (vs, rest) := by
  induction h with
  | nil => exact fun _ _ _ => rfl
  | @cons tag f len data items body vs bs hf hl hd hi _ _ ihb ih =>
    intro d rest hw
    have hitems : readItems (read d) items.length (body ++ (bs ++ rest)) =
        some (items, bs ++ rest) := by
      have hv := hw (f.kind.value data items) (by simp)
      cases d with
      | zero =>
        have hnil : items = [] := (children_value hi data).symm.trans hv
        subst hnil
        have hb : body = [] := encodes_nil_iff.1 ‹_›
        subst hb
        rfl
      | succ d =>
        refine ihb d _ fun w hw' => hv w ?_
        rw [children_value hi]
        exact hw'
    have hone : read (d + 1) (tag :: (len ++ data ++ body) ++ bs ++ rest) =
        some (f.kind.value data items, bs ++ rest) := by
      simp only [List.cons_append, List.append_assoc, read, hf, Option.bind_eq_bind,
        Option.bind_some]
      rw [← hl, splitOff_append]
      simp only [Option.bind_some]
      rw [← hd, splitOff_append]
      simp only [Option.bind_some]
      rw [← hi, hitems]
      rfl
    simp only [List.length_cons, readItems, hone, Option.bind_eq_bind, Option.bind_some]
    rw [ih d rest fun v hv => hw v (List.mem_cons_of_mem _ hv)]
    rfl

theorem read_of_encodes {v : Value} {bs : List UInt8} (h : Encodes [v] bs) {d : Nat}
    (hw : Within d v) (rest : List UInt8) : read (d + 1) (bs ++ rest) = some (v, rest) := by
  have h1 := readItems_of_encodes h d rest (by simpa using hw)
  simp only [List.length_cons, List.length_nil, readItems, Option.bind_eq_bind] at h1
  cases hr : read (d + 1) (bs ++ rest) with
  | none => rw [hr] at h1; cases h1
  | some x =>
    rw [hr] at h1
    cases h1
    rfl

/-! ## Encodings by their first byte -/

/-- A fact about every tag, checked one by one. -/
theorem forall_tag {p : UInt8 → Prop} (h : ∀ n : Fin 256, p (UInt8.ofFin n)) (t : UInt8) : p t :=
  h t.toFin

theorem not_encodes_of_format {tag : UInt8} (hf : format tag = none) {v : Value}
    {bs : List UInt8} : ¬ Encodes [v] (tag :: bs) := fun h => by
  obtain ⟨tag', f, len, data, items, body, hf', -, -, -, -, -, he⟩ := encodes_one_iff.1 h
  cases he
  rw [hf] at hf'
  cases hf'

/-- The encodings that start with a tag of the format `f`. -/
theorem encodes_tag_iff {tag : UInt8} {f : Format} (hf : format tag = some f) {v : Value}
    {bs : List UInt8} :
    Encodes [v] (tag :: bs) ↔ ∃ len data items body, len.length = f.lenSize ∧
      data.length = f.kind.dataSize (f.count len) ∧
      items.length = f.kind.childCount (f.count len) ∧ Encodes items body ∧
      v = f.kind.value data items ∧ bs = len ++ data ++ body := by
  rw [encodes_one_iff]
  constructor
  · rintro ⟨tag', f', len, data, items, body, hf', hl, hd, hi, hb, hv, he⟩
    cases he
    obtain rfl : f' = f := Option.some.inj (hf'.symm.trans hf)
    exact ⟨len, data, items, body, hl, hd, hi, hb, hv, rfl⟩
  · rintro ⟨len, data, items, body, hl, hd, hi, hb, hv, rfl⟩
    exact ⟨tag, f, len, data, items, body, hf, hl, hd, hi, hb, hv, rfl⟩

/-- A tag of a leaf: its length field and its data. -/
theorem encodes_leaf_iff {tag : UInt8} {f : Format} (hf : format tag = some f)
    (hk : ∀ n, f.kind.childCount n = 0) {v : Value} {bs : List UInt8} :
    Encodes [v] (tag :: bs) ↔ ∃ len data, len.length = f.lenSize ∧
      data.length = f.kind.dataSize (f.count len) ∧ v = f.kind.value data [] ∧
      bs = len ++ data := by
  rw [encodes_tag_iff hf]
  constructor
  · rintro ⟨len, data, items, body, hl, hd, hi, hb, hv, rfl⟩
    rw [hk] at hi
    obtain rfl := List.length_eq_zero_iff.1 hi
    obtain rfl := encodes_nil_iff.1 hb
    exact ⟨len, data, hl, hd, hv, by simp⟩
  · rintro ⟨len, data, hl, hd, hv, rfl⟩
    exact ⟨len, data, [], [], hl, hd, by rw [hk]; rfl, .nil, hv, by simp⟩

/-- A tag of a leaf without a length field: its data. -/
theorem encodes_fixed_iff {tag : UInt8} {k : Kind} {n : Nat} (hf : format tag = some ⟨k, 0, n⟩)
    (hk : ∀ n, k.childCount n = 0) {v : Value} {bs : List UInt8} :
    Encodes [v] (tag :: bs) ↔ bs.length = k.dataSize n ∧ v = k.value bs [] := by
  rw [encodes_leaf_iff hf hk]
  constructor
  · rintro ⟨len, data, hl, hd, hv, rfl⟩
    obtain rfl := List.length_eq_zero_iff.1 hl
    exact ⟨hd, hv⟩
  · rintro ⟨hd, hv⟩
    exact ⟨[], bs, rfl, hd, hv, rfl⟩

/-- The first bytes of a container of `n` items of the kind `k`. -/
def Header (k : Kind) (n : Nat) (bs : List UInt8) : Prop :=
  ∃ tag f len, format tag = some f ∧ f.kind = k ∧ len.length = f.lenSize ∧ f.count len = n ∧
    bs = tag :: len

theorem header_cons_iff {k : Kind} {n : Nat} {tag : UInt8} {bs : List UInt8} :
    Header k n (tag :: bs) ↔ ∃ f, format tag = some f ∧ f.kind = k ∧ bs.length = f.lenSize ∧
      f.count bs = n := by
  constructor
  · rintro ⟨tag', f, len, hf, hk, hl, hn, he⟩
    cases he
    exact ⟨f, hf, hk, hl, hn⟩
  · rintro ⟨f, hf, hk, hl, hn⟩
    exact ⟨tag, f, bs, hf, hk, hl, hn, rfl⟩

theorem not_header_nil {k : Kind} {n : Nat} : ¬ Header k n [] := by
  rintro ⟨_, _, _, -, -, -, -, h⟩
  cases h

/-- The headers that start with a tag of a known format. -/
theorem header_tag_iff {k : Kind} {n : Nat} {tag : UInt8} {ls fx : Nat}
    (hf : format tag = some ⟨k, ls, fx⟩) {bs : List UInt8} :
    Header k n (tag :: bs) ↔ bs.length = ls ∧ n = if ls = 0 then fx else beNat bs := by
  rw [header_cons_iff]
  constructor
  · rintro ⟨f, hf', -, hl, hn⟩
    obtain rfl := Option.some.inj (hf'.symm.trans hf)
    exact ⟨hl, hn.symm⟩
  · rintro ⟨hl, hn⟩
    exact ⟨_, hf, rfl, hl, hn.symm⟩

theorem encodes_array_iff {items : List Value} {bs : List UInt8} :
    Encodes [.array items] bs ↔
      ∃ h body, Header .array items.length h ∧ Encodes items body ∧ bs = h ++ body := by
  rw [encodes_one_iff]
  constructor
  · rintro ⟨tag, f, len, data, items', body, hf, hl, hd, hi, hb, hv, rfl⟩
    cases hk : f.kind <;> rw [hk] at hd hi hv <;> cases hv
    obtain rfl := List.length_eq_zero_iff.1 hd
    exact ⟨tag :: len, body, ⟨tag, f, len, hf, hk, hl, hi.symm, rfl⟩, hb, by simp⟩
  · rintro ⟨_, body, ⟨tag, f, len, hf, hk, hl, hn, rfl⟩, hb, rfl⟩
    refine ⟨tag, f, len, [], items, body, hf, hl, ?_, ?_, hb, ?_, by simp⟩ <;> rw [hk]
    · rfl
    · exact hn.symm
    · rfl

/-- The keys and values of a map, in order. -/
def flatten (entries : List (Value × Value)) : List Value := entries.flatMap fun e => [e.1, e.2]

@[simp] theorem flatten_nil : flatten [] = [] := rfl

@[simp] theorem flatten_cons (e : Value × Value) (es : List (Value × Value)) :
    flatten (e :: es) = e.1 :: e.2 :: flatten es := rfl

theorem length_flatten (entries : List (Value × Value)) :
    (flatten entries).length = entries.length * 2 := by
  induction entries with
  | nil => rfl
  | cons e es ih =>
    simp only [flatten_cons, List.length_cons, ih]
    omega

theorem pairUp_flatten (entries : List (Value × Value)) : pairUp (flatten entries) = entries := by
  induction entries with
  | nil => rfl
  | cons e es ih => simp [pairUp, ih]

theorem encodes_map_iff {entries : List (Value × Value)} {bs : List UInt8} :
    Encodes [.map entries] bs ↔ ∃ h body, Header .map entries.length h ∧
      Encodes (flatten entries) body ∧ bs = h ++ body := by
  rw [encodes_one_iff]
  constructor
  · rintro ⟨tag, f, len, data, items, body, hf, hl, hd, hi, hb, hv, rfl⟩
    cases hk : f.kind <;> rw [hk] at hd hi hv <;> cases hv
    obtain rfl := List.length_eq_zero_iff.1 hd
    have hflat : flatten (pairUp items) = items := flatMap_pairUp hi
    have hlen : f.count len = (pairUp items).length := by
      have := length_flatten (pairUp items)
      rw [hflat, hi] at this
      simp only [Kind.childCount] at this
      omega
    exact ⟨tag :: len, body, ⟨tag, f, len, hf, hk, hl, hlen, rfl⟩, by rwa [hflat], by simp⟩
  · rintro ⟨_, body, ⟨tag, f, len, hf, hk, hl, hn, rfl⟩, hb, rfl⟩
    refine ⟨tag, f, len, [], flatten entries, body, hf, hl, ?_, ?_, hb, ?_, by simp⟩ <;> rw [hk]
    · rfl
    · rw [length_flatten, hn]; rfl
    · simp only [Kind.value, pairUp_flatten]

theorem beNat_append (xs : List UInt8) (b : UInt8) :
    beNat (xs ++ [b]) = beNat xs * 256 + b.toNat := by
  simp [beNat]

theorem beNat_lt (bs : List UInt8) : beNat bs < 1 <<< (bs.length * 8) := by
  rw [Nat.shiftLeft_eq, Nat.one_mul]
  induction bs using List.reverseRecOn with
  | nil => simp [beNat]
  | append_singleton xs b ih =>
    have hb := b.toNat_lt
    have hp : 2 ^ ((xs ++ [b]).length * 8) = 2 ^ (xs.length * 8) * 256 := by
      rw [List.length_append, List.length_singleton, Nat.add_mul, Nat.pow_add]
    rw [beNat_append, hp]
    omega

theorem beInt_eq_natCast {bs : List UInt8} {n : Nat} :
    beInt bs = n ↔ beNat bs >>> (bs.length * 8 - 1) = 0 ∧ n = beNat bs := by
  have hlt := beNat_lt bs
  unfold beInt
  split
  · rename_i h
    constructor
    · exact fun he => ⟨h, by omega⟩
    · exact fun he => by rw [he.2]
  · rename_i h
    constructor
    · intro he
      omega
    · exact fun he => absurd he.1 h

/-- Two bytes hold at most sixteen bits. -/
theorem beNat_le {bs : List UInt8} (h : bs.length ≤ 2) : beNat bs ≤ 65535 := by
  match bs, h with
  | [], _ => simp [beNat]
  | [a], _ => simp [beNat]; have := a.toNat_lt; omega
  | [a, b], _ => simp [beNat]; have := a.toNat_lt; have := b.toNat_lt; omega

end MsgPack
