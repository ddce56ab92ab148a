-- SUMMARY: The polynomial multiplication fconv of LibMyMath.c: what it accumulates and which cells it touches.
import LynxFly.Base.ShiftPoly
import LynxFly.Math.LibMatrix

open Buffers Buffers.Prog ShiftPoly

namespace LibMyMath

variable {Buf : Type} [DecidableEq Buf]

/-- Adds the product of the polynomials `a` and `b` to `r`. The inner bound is
    `j < m && j <= i`. -/
def fconv (a : Buf) (m : ℕ) (b : Buf) (n : ℕ) (r : Buf) : Prog Buf ℚ Unit :=
  loop (m + n - 1) fun i => loop (min m (i + 1)) fun j =>
    if i - j < n then do
      wr r i ((← rd r i) + (← rd a j) * (← rd b (i - j)))
    else pure ()

variable {c : Cells Buf ℚ} {a b r : Buf} {m n : ℕ}

/-- The first coefficients of a buffer. -/
def coeffs (x : ℤ → ℚ) : ℕ → ℚ := fun j => x j

@[simp] theorem coeffs_apply (x : ℤ → ℚ) (j : ℕ) : coeffs x j = x j := by
  unfold coeffs
  rfl

theorem fills_fconv (ha : a ≠ r) (hb : b ≠ r) :
    Fills (fconv a m b n r) c r {q | ∃ i < m + n - 1, q ∈ ({(i : ℤ)} : Set ℤ)}
      fun q => c r q + conv (coeffs (c a)) m (coeffs (c b)) n q.toNat := by
  refine Fills.of_loop fun i _ c' hframe hkeep => ?_
  have hcell : c' r i = c r i := hkeep i fun i' hi' heq => by
    rw [Set.mem_singleton_iff] at heq
    omega
  have hterm : ∀ j < min m (i + 1), ∀ c'' : Cells Buf ℚ, (∀ x ≠ r, c'' x = c' x) →
      Fills (if i - j < n then do wr r i ((← rd r i) + (← rd a j) * (← rd b (i - j)))
        else pure ()) c'' r {(i : ℤ)}
        fun _ => c'' r i + if i - j < n then coeffs (c a) j * coeffs (c b) (i - j) else 0 := by
    intro j hj c'' hframe'
    split
    · refine Fills.of_rd (Fills.of_rd (Fills.of_rd ?_))
      rw [hframe' a ha, hframe a ha, hframe' b hb, hframe b hb, coeffs_apply, coeffs_apply,
        Nat.cast_sub (by omega)]
      exact fills_wr _ _
    · refine Fills.pure.congr fun q hq => ?_
      rw [Set.mem_singleton_iff.mp hq, add_zero]
  refine (Fills.accumulate hterm).congr fun q hq => ?_
  rw [Set.mem_singleton_iff.mp hq, hcell, conv, Int.toNat_natCast]

/-- Every cell of the product gains its coefficient. -/
theorem exec_fconv_of_lt (ha : a ≠ r) (hb : b ≠ r) {i : ℕ} (hi : i < m + n - 1) :
    (fconv a m b n r).exec c r i = c r i + conv (coeffs (c a)) m (coeffs (c b)) n i := by
  have h := (fills_fconv (c := c) (m := m) (n := n) ha hb).hit i ⟨i, hi, rfl⟩
  rwa [Int.toNat_natCast] at h

/-- The cells beyond the product keep their contents. -/
theorem exec_fconv_of_ge (ha : a ≠ r) (hb : b ≠ r) {q : ℤ} (hq : ∀ i < m + n - 1, q ≠ (i : ℕ)) :
    (fconv a m b n r).exec c r q = c r q :=
  (fills_fconv ha hb).miss q fun ⟨i, hi, heq⟩ => hq i hi heq

@[simp] theorem exec_fconv_of_ne (ha : a ≠ r) (hb : b ≠ r) {x : Buf} (hx : x ≠ r) :
    (fconv a m b n r).exec c x = c x :=
  (fills_fconv ha hb).frame x hx

/-- Every cell accumulated into a cleared one is a coefficient of the product. -/
theorem exec_fconv_eq_coeff (ha : a ≠ r) (hb : b ≠ r) {i : ℕ} (hr : c r i = 0) :
    (fconv a m b n r).exec c r i =
      (ofCoeffs m (coeffs (c a)) * ofCoeffs n (coeffs (c b))).coeff i := by
  by_cases hi : i < m + n - 1
  · rw [exec_fconv_of_lt ha hb hi, hr, zero_add, coeff_ofCoeffs_mul]
  · rw [exec_fconv_of_ge ha hb fun j hj heq => by omega, hr, ← ofCoeffs_conv, coeff_ofCoeffs,
      if_neg hi]

/-- Accumulated into cleared cells, the result is the product polynomial. -/
theorem ofCoeffs_fconv (ha : a ≠ r) (hb : b ≠ r) (hr : ∀ i : ℕ, i < m + n - 1 → c r i = 0) :
    ofCoeffs (m + n - 1) (coeffs ((fconv a m b n r).exec c r)) =
      ofCoeffs m (coeffs (c a)) * ofCoeffs n (coeffs (c b)) := by
  rw [← ofCoeffs_conv]
  refine Finset.sum_congr rfl fun i hi => ?_
  rw [Finset.mem_range] at hi
  rw [coeffs_apply, exec_fconv_of_lt ha hb hi, hr i hi, zero_add]

/-! ## Where it goes -/

theorem within_fconv_of_read {ok : Access Buf ℚ → Prop} (ha : ∀ j < m, ok (.read a (j : ℕ)))
    (hb : ∀ j < n, ok (.read b (j : ℕ))) (hr : Room ok r (m + n - 1)) :
    Within ok (fconv a m b n r) := by
  refine within_loop fun i hi => within_loop fun j hj => within_ite (fun hij => ?_)
    fun _ => within_pure ()
  have hcoeff := hb (i - j) hij
  rw [Nat.cast_sub (by omega)] at hcoeff
  exact (within_rd_room hr hi).bind fun _ => (within_rd (ha j (by omega))).bind fun _ =>
    (within_rd hcoeff).bind fun _ => within_wr_room hr hi

theorem within_fconv {ok : Access Buf ℚ → Prop} (ha : Room ok a m) (hb : Room ok b n)
    (hr : Room ok r (m + n - 1)) : Within ok (fconv a m b n r) :=
  within_fconv_of_read (fun j hj => (ha j hj).1) (fun j hj => (hb j hj).1) hr

/-- The last cell of a product of nonempty polynomials is written. -/
theorem write_mem_accesses_fconv (hm : 0 < m) (hn : 0 < n) {i : ℕ} (hi : i < m + n - 1)
    (c : Cells Buf ℚ) : Access.write r (i : ℤ) ∈ (fconv a m b n r).accesses c := by
  refine mem_accesses_loop hi (fun c' => ?_) c
  refine mem_accesses_loop (k := min (m - 1) i) (by omega) (fun c'' => ?_) c'
  rw [if_pos (by omega)]
  simp

/-! ## All of it -/

/-- What `fconv` may touch: `a` below `m`, `b` below `n` and the cells of the product. -/
def Touched (a : Buf) (m : ℕ) (b : Buf) (n : ℕ) (r : Buf) : Access Buf ℚ → Prop
  | .read x q => 0 ≤ q ∧ (x = a ∧ q < m ∨ x = b ∧ q < n ∨ x = r ∧ q < (m + n - 1 : ℕ))
  | .write x q => x = r ∧ 0 ≤ q ∧ q < (m + n - 1 : ℕ)
  | .div _ => False

/-- `r` gains the coefficients of the product; nothing else changes, nothing outside the
    arrays is touched, and the factors may be exchanged. -/
structure Convolves (a : Buf) (m : ℕ) (b : Buf) (n : ℕ) (r : Buf) (c : Cells Buf ℚ) : Prop where
  gains : ∀ i < m + n - 1, (fconv a m b n r).exec c r (i : ℕ) = c r (i : ℕ) +
    ∑ j ∈ (Finset.range m).filter (fun j : ℕ => 0 ≤ (i : ℤ) - j ∧ (i : ℤ) - j < n),
      c a (j : ℕ) * c b ((i : ℤ) - (j : ℕ))
  rest : ∀ q : ℤ, ¬ (0 ≤ q ∧ q < (m + n - 1 : ℕ)) → (fconv a m b n r).exec c r q = c r q
  frame : ∀ x ≠ r, (fconv a m b n r).exec c x = c x
  touched : ∀ e ∈ (fconv a m b n r).accesses c, Touched a m b n r e
  comm : (fconv a m b n r).exec c r = (fconv b n a m r).exec c r

/-- The sum with its indices as integers. -/
theorem conv_coeffs (x y : ℤ → ℚ) (m n i : ℕ) : conv (coeffs x) m (coeffs y) n i =
    ∑ j ∈ (Finset.range m).filter (fun j : ℕ => 0 ≤ (i : ℤ) - j ∧ (i : ℤ) - j < n),
      x (j : ℕ) * y ((i : ℤ) - (j : ℕ)) := by
  have hfilter : (Finset.range m).filter (fun j => j ≤ i ∧ i - j < n) =
      (Finset.range m).filter (fun j : ℕ => 0 ≤ (i : ℤ) - j ∧ (i : ℤ) - j < n) := by
    refine Finset.filter_congr fun j _ => ?_
    omega
  rw [conv_eq_sum_filter, ← hfilter]
  refine Finset.sum_congr rfl fun j hj => ?_
  have hle := (Finset.mem_filter.mp hj).2.1
  rw [coeffs_apply, coeffs_apply, Nat.cast_sub hle]

theorem within_fconv_touched : Within (Touched a m b n r) (fconv a m b n r) := by
  refine within_fconv_of_read (fun j hj => ?_) (fun j hj => ?_) fun j hj => ⟨?_, ?_⟩
  · exact ⟨by omega, .inl ⟨rfl, by omega⟩⟩
  · exact ⟨by omega, .inr (.inl ⟨rfl, by omega⟩)⟩
  · exact ⟨by omega, .inr (.inr ⟨rfl, by omega⟩)⟩
  · exact ⟨rfl, by omega, by omega⟩

/-- The accumulated cells are the same either way. -/
theorem exec_fconv_comm (ha : a ≠ r) (hb : b ≠ r) :
    (fconv a m b n r).exec c r = (fconv b n a m r).exec c r := by
  funext q
  by_cases hq : ∃ i < m + n - 1, q = (i : ℕ)
  · obtain ⟨i, hi, rfl⟩ := hq
    rw [exec_fconv_of_lt ha hb hi, exec_fconv_of_lt hb ha (by omega), conv_comm]
  · rw [exec_fconv_of_ge ha hb fun i hi heq => hq ⟨i, hi, heq⟩,
      exec_fconv_of_ge hb ha fun i hi heq => hq ⟨i, by omega, heq⟩]

/-- This is so for all lengths, when `r` is an array of its own. -/
theorem fconv_convolves (ha : a ≠ r) (hb : b ≠ r) : Convolves a m b n r c where
  gains i hi := by rw [exec_fconv_of_lt ha hb hi, conv_coeffs]
  rest q hq := exec_fconv_of_ge ha hb fun i hi heq => hq (by omega)
  frame x hx := exec_fconv_of_ne ha hb hx
  touched e he := within_fconv_touched c e he
  comm := exec_fconv_comm ha hb

/-- A product of three and two coefficients. -/
theorem fconv_convolves_three_two :
    Convolves (0 : Fin 3) 3 1 2 2 fun x i => (x.val : ℚ) + i :=
  fconv_convolves (by decide) (by decide)

end LibMyMath
