import RsLxst.Lib.Parser

/-!
# The framing of an Opus packet

RFC 6716, section 3: the table-of-contents byte, the one- or two-byte frame length (`LengthCode`),
the padding length of a code 3 packet (`PaddingCode`) and the header that each of the four codes
puts in front of its frames (`Header`). A packet is its TOC byte, the header, the frames and the
padding, in this order (`Framed`).
-/

set_option autoImplicit false

namespace OpusFraming

open Parsing (Each)

/-! ## The bytes in front -/

/-- The two low bits of a TOC byte. -/
def code (toc : UInt8) : Nat := toc.toNat % 4

/-- The five high bits. -/
def config (toc : UInt8) : Nat := toc.toNat / 8

/-- The duration of one frame, in samples at 48 kHz: SILK, hybrid and CELT configurations. -/
def frameSamples (toc : UInt8) : Nat :=
  if config toc < 12 then [480, 960, 1920, 2880].getD (config toc % 4) 0
  else if config toc < 16 then [480, 960].getD (config toc % 2) 0
  else [120, 240, 480, 960].getD (config toc % 4) 0

def isStereo (toc : UInt8) : Prop := toc.toNat / 4 % 2 = 1

/-- The six low bits of the count byte of a code 3 packet. -/
def frameCount (count : UInt8) : Nat := count.toNat % 64

def hasPadding (count : UInt8) : Prop := count.toNat / 64 % 2 = 1

def isVbr (count : UInt8) : Prop := count.toNat / 128 = 1

instance : DecidablePred hasPadding := fun _ => inferInstanceAs (Decidable (_ = _))

instance : DecidablePred isVbr := fun _ => inferInstanceAs (Decidable (_ = _))

instance : DecidablePred isStereo := fun _ => inferInstanceAs (Decidable (_ = _))

inductive LengthCode : Nat → List UInt8 → Prop
  | one (first : UInt8) : first.toNat < 252 → LengthCode first.toNat [first]
  | two (first second : UInt8) : 252 ≤ first.toNat →
      LengthCode (first.toNat + 4 * second.toNat) [first, second]

theorem LengthCode.le {n : Nat} {bytes : List UInt8} (h : LengthCode n bytes) : n ≤ 1275 := by
  cases h with
  | one first hlt => omega
  | two first second hge =>
    have h1 := first.toNat_lt
    have h2 := second.toNat_lt
    omega

theorem lengths_le {lengths : List Nat} {bytes : List UInt8} (h : Each LengthCode lengths bytes) :
    ∀ n ∈ lengths, n ≤ 1275 := by
  induction h with
  | nil => exact nofun
  | cons hcode _ ih => exact List.forall_mem_cons.2 ⟨hcode.le, ih⟩

/-- 255 stands for 254 and another byte to follow. -/
inductive PaddingCode : Nat → List UInt8 → Prop
  | last (byte : UInt8) : byte.toNat ≠ 255 → PaddingCode byte.toNat [byte]
  | more {n : Nat} {bytes : List UInt8} : PaddingCode n bytes → PaddingCode (254 + n) (255 :: bytes)

/-- The padding of a code 3 packet, with the bytes that give its length. -/
inductive Padding (count : UInt8) : List UInt8 → List UInt8 → Prop
  | absent : ¬ hasPadding count → Padding count [] []
  | present {chain padding : List UInt8} : hasPadding count → PaddingCode padding.length chain →
      Padding count chain padding

/-- `Header toc frames header padding`: what follows the TOC byte in front of the frames, and the
padding after them. -/
inductive Header (toc : UInt8) : List (List UInt8) → List UInt8 → List UInt8 → Prop
  | single {f : List UInt8} : code toc = 0 → Header toc [f] [] []
  | equal {f g : List UInt8} : code toc = 1 → f.length = g.length → Header toc [f, g] [] []
  | pair {f g bytes : List UInt8} : code toc = 2 → LengthCode f.length bytes →
      Header toc [f, g] bytes []
  | cbr {frames : List (List UInt8)} {count : UInt8} {chain padding : List UInt8} {k : Nat} :
      code toc = 3 → frames.length = frameCount count → 1 ≤ frames.length → frames.length ≤ 48 →
      Padding count chain padding → ¬ isVbr count → (∀ f ∈ frames, f.length = k) →
      Header toc frames (count :: chain) padding
  | vbr {frames : List (List UInt8)} {count : UInt8} {chain padding lengths : List UInt8} :
      code toc = 3 → frames.length = frameCount count → 1 ≤ frames.length → frames.length ≤ 48 →
      Padding count chain padding → isVbr count →
      Each LengthCode (frames.dropLast.map List.length) lengths →
      Header toc frames (count :: (chain ++ lengths)) padding

/-- The bytes behind the TOC byte, parted. -/
def Framed (toc : UInt8) (frames : List (List UInt8)) (body : List UInt8) : Prop :=
  ∃ header padding, Header toc frames header padding ∧ body = header ++ frames.flatten ++ padding

/-! ## By code -/

variable {toc : UInt8} {frames : List (List UInt8)} {body : List UInt8}

theorem framed_single_iff (hcode : code toc = 0) : Framed toc frames body ↔ frames = [body] := by
  constructor
  · rintro ⟨header, padding, hhead, rfl⟩
    cases hhead with
    | single => simp
    | equal h | pair h | cbr h | vbr h => omega
  · rintro rfl
    exact ⟨[], [], .single hcode, by simp⟩

theorem framed_equal_iff (hcode : code toc = 1) :
    Framed toc frames body ↔ ∃ f g, frames = [f, g] ∧ f.length = g.length ∧ body = f ++ g := by
  constructor
  · rintro ⟨header, padding, hhead, rfl⟩
    cases hhead with
    | equal _ hlen => exact ⟨_, _, rfl, hlen, by simp⟩
    | single h | pair h | cbr h | vbr h => omega
  · rintro ⟨f, g, rfl, hlen, rfl⟩
    exact ⟨[], [], .equal hcode hlen, by simp⟩

theorem framed_pair_iff (hcode : code toc = 2) :
    Framed toc frames body ↔
      ∃ f g bytes, frames = [f, g] ∧ LengthCode f.length bytes ∧ body = bytes ++ (f ++ g) := by
  constructor
  · rintro ⟨header, padding, hhead, rfl⟩
    cases hhead with
    | pair _ hlen => exact ⟨_, _, _, rfl, hlen, by simp⟩
    | single h | equal h | cbr h | vbr h => omega
  · rintro ⟨f, g, bytes, rfl, hlen, rfl⟩
    exact ⟨bytes, [], .pair hcode hlen, by simp⟩

/-- What lies between the padding chain and the padding: the lengths, if any, and the frames. -/
def Code3Payload (count : UInt8) (frames : List (List UInt8)) (payload : List UInt8) : Prop :=
  (¬ isVbr count ∧ (∃ k, ∀ f ∈ frames, f.length = k) ∧ payload = frames.flatten) ∨
  (isVbr count ∧ ∃ bytes, Each LengthCode (frames.dropLast.map List.length) bytes ∧
    payload = bytes ++ frames.flatten)

theorem framed_code3_iff {count : UInt8} (hcode : code toc = 3) :
    Framed toc frames (count :: body) ↔
      frames.length = frameCount count ∧ 1 ≤ frames.length ∧ frames.length ≤ 48 ∧
        ∃ chain payload padding, Padding count chain padding ∧
          body = chain ++ payload ++ padding ∧ Code3Payload count frames payload := by
  constructor
  · rintro ⟨header, padding, hhead, hbody⟩
    cases hhead with
    | single h | equal h | pair h => omega
    | cbr _ hn hone hmax hpad hv hk =>
      obtain ⟨rfl, rfl⟩ := List.cons.inj hbody
      exact ⟨hn, hone, hmax, _, _, _, hpad, rfl, .inl ⟨hv, ⟨_, hk⟩, rfl⟩⟩
    | vbr _ hn hone hmax hpad hv heach =>
      obtain ⟨rfl, rfl⟩ := List.cons.inj hbody
      exact ⟨hn, hone, hmax, _, _, _, hpad, by simp, .inr ⟨hv, _, heach, rfl⟩⟩
  · rintro ⟨hn, hone, hmax, chain, payload, padding, hpad, rfl,
      ⟨hv, ⟨k, hk⟩, rfl⟩ | ⟨hv, bytes, heach, rfl⟩⟩
    · exact ⟨_, _, .cbr hcode hn hone hmax hpad hv hk, rfl⟩
    · exact ⟨_, _, .vbr hcode hn hone hmax hpad hv heach, by simp⟩

theorem not_framed_code3_nil (hcode : code toc = 3) : ¬ Framed toc frames [] := by
  rintro ⟨header, padding, hhead, hbody⟩
  cases hhead with
  | single h | equal h | pair h => omega
  | cbr => cases hbody
  | vbr => cases hbody

theorem Framed.frames_count (h : Framed toc frames body) :
    1 ≤ frames.length ∧ frames.length ≤ 48 := by
  obtain ⟨header, padding, hhead, -⟩ := h
  cases hhead with
  | single | equal | pair => exact ⟨by simp, by simp⟩
  | cbr _ _ hone hmax | vbr _ _ hone hmax => exact ⟨hone, hmax⟩

end OpusFraming
