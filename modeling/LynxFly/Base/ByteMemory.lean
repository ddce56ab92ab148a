-- SUMMARY: Byte-addressed memory: little-endian numbers, records of fields, 32-bit unsigned arithmetic.
import Mathlib.Logic.Function.Basic
import Mathlib.Tactic.Linarith
import Mathlib.Tactic.Ring

/-!
# Byte memory

Memory as bytes by address. Numbers lie in it with their lowest byte first, and a record is
a set of fields that do not meet, each at its offset. Programs that overlay records on memory
others write into need what happens apart from a record to leave it alone.
-/

namespace Bytes

/-- Bytes by address. -/
abbrev Mem := ℕ → BitVec 8

/-- The number in the `n` bytes from `a` on. -/
def load (m : Mem) (a : ℕ) : ℕ → ℕ
  | 0 => 0
  | n + 1 => (m a).toNat + 256 * load m (a + 1) n

/-- Write `v` over the `n` bytes from `a` on; what does not fit is cut off. -/
def store (m : Mem) (a : ℕ) : ℕ → ℕ → Mem
  | 0, _ => m
  | n + 1, v => store (Function.update m a (BitVec.ofNat 8 v)) (a + 1) n (v / 256)

section Numbers

variable {m m' : Mem} {a b n k v : ℕ}

theorem load_congr (h : ∀ i, a ≤ i → i < a + n → m' i = m i) : load m' a n = load m a n := by
  induction n generalizing a with
  | zero => rfl
  | succ n ih =>
    rw [load, load, h a le_rfl (by omega), ih fun i h1 h2 => h i (by omega) (by omega)]

theorem store_of_apart (h : b < a ∨ a + n ≤ b) : store m a n v b = m b := by
  induction n generalizing m a v with
  | zero => rfl
  | succ n ih => rw [store, ih (by omega), Function.update_of_ne (by omega)]

theorem load_store : load (store m a n v) a n = v % 256 ^ n := by
  induction n generalizing m a v with
  | zero => rw [pow_zero, Nat.mod_one, load]
  | succ n ih =>
    have hlow : store m a (n + 1) v a = BitVec.ofNat 8 v := by
      rw [store, store_of_apart (.inl (Nat.lt_succ_self a)), Function.update_self]
    rw [load, hlow, store, ih, BitVec.toNat_ofNat, pow_succ' 256, Nat.mod_mul]

/-- A number is not changed by writing elsewhere. -/
theorem load_store_of_apart (h : b + k ≤ a ∨ a + n ≤ b) :
    load (store m a n v) b k = load m b k :=
  load_congr fun _ _ _ => store_of_apart (by omega)

end Numbers

/-! ## Copies -/

/-- Copy `n` bytes, the lowest first. -/
def copy (m : Mem) (dst src : ℕ) : ℕ → Mem
  | 0 => m
  | n + 1 => Function.update (copy m dst src n) (dst + n) (copy m dst src n (src + n))

/-- Set `n` bytes to a value. -/
def fill (m : Mem) (a : ℕ) (v : BitVec 8) : ℕ → Mem
  | 0 => m
  | n + 1 => Function.update (fill m a v n) (a + n) v

section Copies

variable {m : Mem} {dst src a i n : ℕ} {v : BitVec 8}

theorem copy_of_apart (h : i < dst ∨ dst + n ≤ i) : copy m dst src n i = m i := by
  induction n with
  | zero => rfl
  | succ n ih => rw [copy, Function.update_of_ne (by omega), ih (by omega)]

/-- What is copied arrives, if source and destination do not meet. -/
theorem copy_of_lt (h : dst + n ≤ src ∨ src + n ≤ dst) (hi : i < n) :
    copy m dst src n (dst + i) = m (src + i) := by
  induction n with
  | zero => omega
  | succ n ih =>
    rcases Nat.lt_succ_iff_lt_or_eq.mp hi with hi | rfl
    · rw [copy, Function.update_of_ne (by omega), ih (by omega) hi]
    · rw [copy, Function.update_self, copy_of_apart (by omega)]

theorem fill_of_apart (h : i < a ∨ a + n ≤ i) : fill m a v n i = m i := by
  induction n with
  | zero => rfl
  | succ n ih => rw [fill, Function.update_of_ne (by omega), ih (by omega)]

theorem fill_of_lt (hi : i < n) : fill m a v n (a + i) = v := by
  induction n with
  | zero => omega
  | succ n ih =>
    rcases Nat.lt_succ_iff_lt_or_eq.mp hi with hi | rfl
    · rw [fill, Function.update_of_ne (by omega), ih hi]
    · rw [fill, Function.update_self]

end Copies

/-! ## Records -/

/-- A field of a record: its offset, and the bytes it takes. -/
structure Field where
  offset : ℕ
  width : ℕ

namespace Field

variable {f g : Field} {m m' : Mem} {p r v size : ℕ}

/-- The value of the field in the record at `p`. -/
def get (f : Field) (m : Mem) (p : ℕ) : ℕ := load m (p + f.offset) f.width

def set (f : Field) (m : Mem) (p v : ℕ) : Mem := store m (p + f.offset) f.width v

/-- The fields share no byte. -/
def Apart (f g : Field) : Prop := f.offset + f.width ≤ g.offset ∨ g.offset + g.width ≤ f.offset

instance : Decidable (Apart f g) := inferInstanceAs (Decidable (_ ∨ _))

/-- The field lies in the first `size` bytes of its record. -/
def Within (size : ℕ) (f : Field) : Prop := f.offset + f.width ≤ size

instance : Decidable (Within size f) := inferInstanceAs (Decidable (_ ≤ _))

theorem get_set_self (hv : v < 256 ^ f.width) : f.get (f.set m p v) p = v := by
  rw [get, set, load_store, Nat.mod_eq_of_lt hv]

theorem get_set_of_apart (h : Apart f g) : f.get (g.set m p v) p = f.get m p := by
  refine load_store_of_apart ?_
  rcases h with h | h
  · exact .inl (by omega)
  · exact .inr (by omega)

/-- Only the bytes of its record matter to a field. -/
theorem get_congr (hf : Within size f) (h : ∀ i, p ≤ i → i < p + size → m' i = m i) :
    f.get m' p = f.get m p := by
  have hf : f.offset + f.width ≤ size := hf
  exact load_congr fun i _ _ => h i (by omega) (by omega)

/-- Writing to a record changes no byte outside it. -/
theorem set_of_apart (hf : Within size f) {i : ℕ} (h : i < p ∨ p + size ≤ i) :
    f.set m p v i = m i := by
  have hf : f.offset + f.width ≤ size := hf
  exact store_of_apart (by omega)

end Field

/-! ## Unsigned numbers of 32 bits -/

section Unsigned

variable {a b c : ℕ}

/-- The operations of unsigned numbers wrap. -/
@[irreducible] def uadd (a b : ℕ) : ℕ := (a + b) % 2 ^ 32

@[irreducible] def usub (a b : ℕ) : ℕ := (a + (2 ^ 32 - b % 2 ^ 32)) % 2 ^ 32

@[irreducible] def umul (a b : ℕ) : ℕ := (a * b) % 2 ^ 32

theorem uadd_of_lt (h : a + b < 2 ^ 32) : uadd a b = a + b := by
  rw [uadd, Nat.mod_eq_of_lt h]

theorem usub_of_le (hb : b ≤ a) (ha : a < 2 ^ 32) : usub a b = a - b := by
  rw [usub, Nat.mod_eq_of_lt (by omega : b < 2 ^ 32),
    show a + (2 ^ 32 - b) = a - b + 2 ^ 32 by omega,
    Nat.add_mod_right, Nat.mod_eq_of_lt (by omega)]

end Unsigned

end Bytes
