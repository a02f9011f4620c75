import Mathlib.Algebra.Order.Field.Basic
import Mathlib.Algebra.Star.Basic
import Mathlib.Tactic.LinearCombination
import Mathlib.Tactic.Linarith
import Mathlib.Tactic.Ring

/-!
# The complex numbers of the FFT

`kiss_fft_cpx` of `lxst-codec2/src/native/mod.rs` and its arithmetic in `kiss_fft.rs`, over any
field `F` of scalars: the arithmetic is exact. With `C_ADD`, `C_SUB` and `C_MUL` they are a
commutative ring with a conjugation, and over an ordered field a domain.
-/

set_option autoImplicit false

namespace Lxst.Codec2

@[ext]
structure KissFftCpx (F : Type) where
  r : F
  i : F
  deriving DecidableEq, Repr

namespace KissFftCpx

variable {F : Type} [Field F]

def new : KissFftCpx F := { r := 0, i := 0 }

def cMul (a b : KissFftCpx F) : KissFftCpx F :=
  { r := a.r * b.r - a.i * b.i, i := a.r * b.i + a.i * b.r }

def cMulByScalar (c : KissFftCpx F) (s : F) : KissFftCpx F := { r := c.r * s, i := c.i * s }

def cAdd (a b : KissFftCpx F) : KissFftCpx F := { r := a.r + b.r, i := a.i + b.i }

def cSub (a b : KissFftCpx F) : KissFftCpx F := { r := a.r - b.r, i := a.i - b.i }

/-! ## The ring -/

instance : Zero (KissFftCpx F) := ⟨new⟩
instance : One (KissFftCpx F) := ⟨{ r := 1, i := 0 }⟩
instance : Add (KissFftCpx F) := ⟨cAdd⟩
instance : Sub (KissFftCpx F) := ⟨cSub⟩
instance : Mul (KissFftCpx F) := ⟨cMul⟩
instance : Neg (KissFftCpx F) := ⟨fun a => { r := -a.r, i := -a.i }⟩
instance : Star (KissFftCpx F) := ⟨fun a => { r := a.r, i := -a.i }⟩
instance : NatCast (KissFftCpx F) := ⟨fun n => { r := n, i := 0 }⟩
instance : IntCast (KissFftCpx F) := ⟨fun n => { r := n, i := 0 }⟩

/-- A scalar, as a complex number. -/
def real (x : F) : KissFftCpx F := { r := x, i := 0 }

/-- The imaginary unit. -/
def unit : KissFftCpx F := { r := 0, i := 1 }

@[simp] theorem cMul_eq (a b : KissFftCpx F) : cMul a b = a * b := rfl
@[simp] theorem cAdd_eq (a b : KissFftCpx F) : cAdd a b = a + b := rfl
@[simp] theorem cSub_eq (a b : KissFftCpx F) : cSub a b = a - b := rfl
@[simp] theorem zero_r : (0 : KissFftCpx F).r = 0 := rfl
@[simp] theorem zero_i : (0 : KissFftCpx F).i = 0 := rfl
@[simp] theorem one_r : (1 : KissFftCpx F).r = 1 := rfl
@[simp] theorem one_i : (1 : KissFftCpx F).i = 0 := rfl
@[simp] theorem add_r (a b : KissFftCpx F) : (a + b).r = a.r + b.r := rfl
@[simp] theorem add_i (a b : KissFftCpx F) : (a + b).i = a.i + b.i := rfl
@[simp] theorem sub_r (a b : KissFftCpx F) : (a - b).r = a.r - b.r := rfl
@[simp] theorem sub_i (a b : KissFftCpx F) : (a - b).i = a.i - b.i := rfl
@[simp] theorem neg_r (a : KissFftCpx F) : (-a).r = -a.r := rfl
@[simp] theorem neg_i (a : KissFftCpx F) : (-a).i = -a.i := rfl
@[simp] theorem mul_r (a b : KissFftCpx F) : (a * b).r = a.r * b.r - a.i * b.i := rfl
@[simp] theorem mul_i (a b : KissFftCpx F) : (a * b).i = a.r * b.i + a.i * b.r := rfl
@[simp] theorem star_r (a : KissFftCpx F) : (star a).r = a.r := rfl
@[simp] theorem star_i (a : KissFftCpx F) : (star a).i = -a.i := rfl
@[simp] theorem natCast_r (n : ℕ) : (n : KissFftCpx F).r = n := rfl
@[simp] theorem natCast_i (n : ℕ) : (n : KissFftCpx F).i = 0 := rfl
@[simp] theorem intCast_r (n : ℤ) : (n : KissFftCpx F).r = n := rfl
@[simp] theorem intCast_i (n : ℤ) : (n : KissFftCpx F).i = 0 := rfl
@[simp] theorem real_r (x : F) : (real x).r = x := rfl
@[simp] theorem real_i (x : F) : (real x).i = 0 := rfl
@[simp] theorem unit_r : (unit : KissFftCpx F).r = 0 := rfl
@[simp] theorem unit_i : (unit : KissFftCpx F).i = 1 := rfl

instance : CommRing (KissFftCpx F) where
  add_assoc a b c := by ext <;> simp <;> ring
  zero_add a := by ext <;> simp
  add_zero a := by ext <;> simp
  add_comm a b := by ext <;> simp <;> ring
  neg_add_cancel a := by ext <;> simp
  sub_eq_add_neg a b := by ext <;> simp <;> ring
  mul_assoc a b c := by ext <;> simp <;> ring
  one_mul a := by ext <;> simp
  mul_one a := by ext <;> simp
  zero_mul a := by ext <;> simp
  mul_zero a := by ext <;> simp
  left_distrib a b c := by ext <;> simp <;> ring
  right_distrib a b c := by ext <;> simp <;> ring
  mul_comm a b := by ext <;> simp <;> ring
  natCast_zero := by ext <;> simp
  natCast_succ n := by ext <;> simp
  intCast_ofNat n := by ext <;> simp
  intCast_negSucc n := by ext <;> simp
  nsmul := nsmulRec
  zsmul := zsmulRec

instance : StarRing (KissFftCpx F) where
  star_involutive a := by ext <;> simp
  star_mul a b := by ext <;> simp <;> ring
  star_add a b := by ext <;> simp; ring

theorem unit_mul_unit : (unit * unit : KissFftCpx F) = -1 := by ext <;> simp

theorem star_unit : star (unit : KissFftCpx F) = -unit := by ext <;> simp

theorem star_real (x : F) : star (real x) = real x := by ext <;> simp

@[simp] theorem two_r : (2 : KissFftCpx F).r = 2 := by
  rw [← one_add_one_eq_two, add_r, one_r, one_add_one_eq_two]

@[simp] theorem two_i : (2 : KissFftCpx F).i = 0 := by
  rw [← one_add_one_eq_two, add_i, one_i, add_zero]

section
variable [LinearOrder F] [IsStrictOrderedRing F]

theorem eq_zero_of_norm {a : KissFftCpx F} (h : a.r * a.r + a.i * a.i = 0) : a = 0 := by
  have hr := mul_self_nonneg a.r
  have hi := mul_self_nonneg a.i
  ext
  · exact mul_self_eq_zero.mp (by linarith)
  · exact mul_self_eq_zero.mp (by linarith)

instance : NoZeroDivisors (KissFftCpx F) where
  eq_zero_or_eq_zero_of_mul_eq_zero {a b} h := by
    have hr : a.r * b.r - a.i * b.i = 0 := congrArg KissFftCpx.r h
    have hi : a.r * b.i + a.i * b.r = 0 := congrArg KissFftCpx.i h
    have hprod : (a.r * a.r + a.i * a.i) * (b.r * b.r + b.i * b.i) = 0 := by
      linear_combination (a.r * b.r - a.i * b.i) * hr + (a.r * b.i + a.i * b.r) * hi
    exact (mul_eq_zero.mp hprod).imp eq_zero_of_norm eq_zero_of_norm

instance : Nontrivial (KissFftCpx F) :=
  ⟨0, 1, fun h => zero_ne_one (congrArg KissFftCpx.r h)⟩

instance : IsDomain (KissFftCpx F) := NoZeroDivisors.to_isDomain _

end

end KissFftCpx

end Lxst.Codec2
