-- SUMMARY: C arithmetic on a 32-bit target: int operations that may overflow, and conversions to the unsigned types.
import Mathlib.Algebra.Order.Floor.Ring
import Mathlib.Data.Rat.Floor
import Mathlib.Tactic.Linarith

/-!
# C integers

The operations of `int` are those of the integers, and have no result where C
leaves the result undefined. A float is a rational number.
-/

namespace CInt

/-- Why an expression has no value. -/
inductive Undefined where
  | intOverflow | divideByZero | floatConversion
  deriving DecidableEq

/-- The value of an `int` operation. -/
def int32 (x : ℤ) : Except Undefined ℤ :=
  if -2 ^ 31 ≤ x ∧ x < 2 ^ 31 then .ok x else .error .intOverflow

def add (x y : ℤ) : Except Undefined ℤ := int32 (x + y)

def sub (x y : ℤ) : Except Undefined ℤ := int32 (x - y)

def mul (x y : ℤ) : Except Undefined ℤ := int32 (x * y)

/-- Division truncates towards zero. -/
def div (x y : ℤ) : Except Undefined ℤ :=
  if y = 0 then .error .divideByZero else int32 (x.tdiv y)

/-- Conversion of an `int`, modulo the size of the type. -/
def u16 (x : ℤ) : ℤ := x % 2 ^ 16

def u32 (x : ℤ) : ℤ := x % 2 ^ 32

def u64 (x : ℤ) : ℤ := x % 2 ^ 64

/-- Conversion to a signed type that need not hold the value keeps the low bits. -/
def s32 (x : ℤ) : ℤ := (x + 2 ^ 31) % 2 ^ 32 - 2 ^ 31

/-- A float without its fraction. -/
def truncate (x : ℚ) : ℤ := if 0 ≤ x then ⌊x⌋ else ⌈x⌉

/-- Conversion of a float. -/
def floatToU32 (x : ℚ) : Except Undefined ℤ :=
  if 0 ≤ truncate x ∧ truncate x < 2 ^ 32 then .ok (truncate x) else .error .floatConversion

variable {x y : ℤ} {q : ℚ}

theorem int32_of_mem (hlo : -2 ^ 31 ≤ x) (hhi : x < 2 ^ 31) : int32 x = .ok x := if_pos ⟨hlo, hhi⟩

theorem div_of_ne_zero (hy : y ≠ 0) : div x y = int32 (x.tdiv y) := if_neg hy

theorem u16_eq_self_iff : u16 x = x ↔ 0 ≤ x ∧ x < 2 ^ 16 := by
  rw [u16]
  omega

theorem u32_of_mem (hlo : 0 ≤ x) (hhi : x < 2 ^ 32) : u32 x = x := Int.emod_eq_of_lt hlo hhi

theorem floatToU32_of_mem (hlo : 0 ≤ q) (hhi : q < 2 ^ 32) : floatToU32 q = .ok ⌊q⌋ := by
  have hfloor : ⌊q⌋ < 2 ^ 32 := Int.floor_lt.mpr (by exact_mod_cast hhi)
  rw [floatToU32, truncate, if_pos hlo]
  exact if_pos ⟨Int.floor_nonneg.mpr hlo, hfloor⟩

theorem int32_eq_ok_iff {z : ℤ} : int32 x = .ok z ↔ (-2 ^ 31 ≤ x ∧ x < 2 ^ 31) ∧ x = z := by
  unfold int32
  split
  case isTrue h =>
    rw [Except.ok.injEq, and_iff_right h]
  case isFalse h =>
    constructor
    · intro heq
      cases heq
    · intro heq
      exact absurd heq.1 h

/-- Truncated division, in terms of the flooring one. -/
theorem tdiv_eq (d : ℕ) : x.tdiv d = if 0 ≤ x then x / d else -(-x / d) := by
  split
  case isTrue h => exact Int.tdiv_eq_ediv_of_nonneg h
  case isFalse h =>
    rw [← Int.tdiv_eq_ediv_of_nonneg (by omega : 0 ≤ -x), Int.neg_tdiv, neg_neg]

/-- A division that can only overflow where its operand does not fit. -/
theorem div_eq_ok_iff {d z : ℤ} (hd : 0 < d) (hlo : -2 ^ 31 ≤ x) (hhi : x < 2 ^ 31) :
    div x d = .ok z ↔ x.tdiv d = z := by
  obtain ⟨d, rfl⟩ := Int.eq_ofNat_of_zero_le hd.le
  have hrange : -2 ^ 31 ≤ x.tdiv d ∧ x.tdiv d < 2 ^ 31 := by
    rw [tdiv_eq]
    split
    case isTrue h =>
      have h1 := Int.ediv_nonneg h hd.le
      have h2 := Int.ediv_le_self (d : ℤ) h
      omega
    case isFalse h =>
      have h1 := Int.ediv_nonneg (by omega : 0 ≤ -x) hd.le
      have h2 := Int.ediv_le_self (d : ℤ) (by omega : 0 ≤ -x)
      omega
  rw [div_of_ne_zero hd.ne', int32_eq_ok_iff, and_iff_right hrange]

theorem s32_of_mem (hlo : -2 ^ 31 ≤ x) (hhi : x < 2 ^ 31) : s32 x = x := by
  rw [s32]
  omega

theorem u64_of_mem (hlo : 0 ≤ x) (hhi : x < 2 ^ 64) : u64 x = x := Int.emod_eq_of_lt hlo hhi

/-- Only its low bits matter to a conversion. -/
theorem s32_u64 : s32 (u64 x) = s32 x := by
  rw [s32, s32, u64]
  omega

/-! ## Sequencing -/

section Sequencing

variable {α β : Type}

@[simp] theorem ok_bind (a : α) (f : α → Except Undefined β) : (.ok a >>= f) = f a := rfl

theorem bind_eq_ok_iff {r : Except Undefined α} {f : α → Except Undefined β} {b : β} :
    (r >>= f) = .ok b ↔ ∃ a, r = .ok a ∧ f a = .ok b := by
  cases r with
  | ok a => simp
  | error e =>
    constructor
    · intro h
      cases h
    · rintro ⟨a, h, _⟩
      cases h

/-- The integer operations all have values, and the result is in `P` if the
    conversions of floats have theirs. -/
def NoOverflow (P : α → Prop) : Except Undefined α → Prop
  | .ok a => P a
  | .error e => e = .floatConversion

theorem NoOverflow.bind {P : α → Prop} {Q : β → Prop} {r : Except Undefined α}
    {f : α → Except Undefined β} (hr : NoOverflow P r) (hf : ∀ a, P a → NoOverflow Q (f a)) :
    NoOverflow Q (r >>= f) := by
  cases r with
  | ok a => exact hf a hr
  | error e => exact hr

theorem noOverflow_int32 (hlo : -2 ^ 31 ≤ x) (hhi : x < 2 ^ 31) :
    NoOverflow (· = x) (int32 x) := by
  rw [int32_of_mem hlo hhi]
  rfl

theorem noOverflow_floatToU32 : NoOverflow (fun _ => True) (floatToU32 q) := by
  unfold floatToU32
  split
  · trivial
  · rfl

end Sequencing

end CInt
