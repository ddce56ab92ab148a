-- SUMMARY: Histories kept in an array that is shifted towards the past, and the recursive filter that fills one of its slots.
import LynxFly.Base.ShiftPoly
import LynxFly.Base.Run

/-!
# Delay lines

A caller keeps the past of a signal in an array whose index is the age of the
value: before every step it moves each value one slot on, then it stores the new
one. `Holds` is what such an array satisfies, with the new value stored in a slot
`D` that need not be the first.
-/

open ShiftPoly Runs

namespace DelayLine

variable {𝕜 : Type}

/-- One slot towards the past. Nothing moves into the first slot. -/
def shift (x : ℤ → 𝕜) : ℤ → 𝕜 := fun i => if 1 ≤ i then x (i - 1) else x i

/-- The slots before `D` replaced. -/
def overlay (D : ℤ) (junk x : ℤ → 𝕜) : ℤ → 𝕜 := fun i => if i < D then junk i else x i

/-- From slot `D` on, the array holds the past of `w` at time `k`. -/
def Holds (x : ℤ → 𝕜) (D : ℤ) (w : ℤ → 𝕜) (k : ℤ) : Prop := ∀ j : ℕ, x (D + j) = w (k - j)

variable {x w junk : ℤ → 𝕜} {D k : ℤ} {v : 𝕜}

theorem shift_of_le {i : ℤ} (hi : 1 ≤ i) : shift x i = x (i - 1) := if_pos hi

theorem overlay_of_le {i : ℤ} (hi : D ≤ i) : overlay D junk x i = x i := if_neg (by omega)

/-- The array before the new value is stored: only its slot is open. -/
theorem Holds.shift_succ (h : Holds x D w (k - 1)) (hD : 0 ≤ D) (j : ℕ) :
    shift x (D + (j + 1 : ℕ)) = w (k - (j + 1 : ℕ)) := by
  have hj := h j
  rw [shift_of_le (by push_cast; omega)]
  push_cast
  rw [show D + ((j : ℤ) + 1) - 1 = D + j by ring, hj]
  congr 1
  ring

/-- Storing the new value completes the step. -/
theorem Holds.store (h : ∀ j : ℕ, x (D + (j + 1 : ℕ)) = w (k - (j + 1 : ℕ))) :
    Holds (Function.update x D (w k)) D w k := by
  intro j
  cases j with
  | zero => simp
  | succ j =>
    rw [Function.update_of_ne (by push_cast; omega)]
    exact h j

/-- A stretch of the array from the stored slot on is zero. -/
theorem update_apply_add_eq_zero_iff [Zero 𝕜] {N : ℤ} (hN : 0 ≤ N) :
    (∀ j : ℕ, (j : ℤ) ≤ N → Function.update x D v (D + j) = 0) ↔
      v = 0 ∧ ∀ j : ℕ, 0 < j → (j : ℤ) ≤ N → x (D + j) = 0 := by
  constructor
  · intro h
    refine ⟨by simpa using h 0 (by omega), fun j hj hjN => ?_⟩
    rw [← h j hjN, Function.update_of_ne (by omega)]
  · rintro ⟨hv, h⟩ j hj
    by_cases h0 : j = 0
    · simp [h0, hv]
    · rw [Function.update_of_ne (by omega)]
      exact h j (by omega) hj

/-! ## A recursive filter along a run -/

section Filter

open Finset

variable [CommRing 𝕜] {n : ℕ} {f : ℕ → 𝕜}

/-- The filter's new value: the input less the weighted past in the slots after
    `D`. -/
def filtered (f : ℕ → 𝕜) (n : ℕ) (D : ℤ) (x : ℤ → 𝕜) (v : 𝕜) : 𝕜 :=
  v - ∑ i ∈ range n, f (i + 1) * x (D + (i + 1 : ℕ))

/-- A filtered history that starts empty holds the response at rest: one sequence
    whose past every array of the run holds, and which the filter polynomial maps
    to the input. -/
theorem exists_response {x : ℕ → ℤ → 𝕜} {junk : ℕ → ℤ → 𝕜} {v : ℤ → 𝕜} (hD : 0 ≤ D)
    (hf : f 0 = 1) (hv : ∀ k < 0, v k = 0) (hx : ∀ j : ℕ, x 0 (D + j) = 0)
    (hstep : ∀ k, x (k + 1) = Function.update (overlay D (junk k) (shift (x k))) D
      (filtered f n D (overlay D (junk k) (shift (x k))) (v k))) :
    ∃ w : ℤ → 𝕜, (∀ k < 0, w k = 0) ∧ (∀ k : ℕ, Holds (x (k + 1)) D w k) ∧
      act (ofCoeffs (n + 1) f) w = v := by
  let w : ℤ → 𝕜 := fun k => if k < 0 then 0 else x (k.toNat + 1) D
  have hrest : ∀ k < 0, w k = 0 := fun k hk => if_pos hk
  have hnow : ∀ k : ℕ, w k = x (k + 1) D := fun k => by simp [w]
  -- what a step sees once the array is shifted
  have hopen : ∀ k : ℕ, Holds (x k) D w (k - 1) → ∀ j : ℕ,
      overlay D (junk k) (shift (x k)) (D + (j + 1 : ℕ)) = w (k - (j + 1 : ℕ)) := fun k h j => by
    rw [overlay_of_le (by omega), h.shift_succ hD]
  have hslot : ∀ k : ℕ, w k = filtered f n D (overlay D (junk k) (shift (x k))) (v k) :=
    fun k => by rw [hnow, hstep, Function.update_self]
  have hholds : ∀ k : ℕ, Holds (x k) D w (k - 1) := by
    intro k
    induction k with
    | zero =>
      intro j
      rw [hx, hrest _ (by push_cast; omega)]
    | succ k ih =>
      rw [hstep, ← hslot, Nat.cast_succ, add_sub_cancel_right]
      exact Holds.store (hopen k ih)
  refine ⟨w, hrest, fun k => by simpa using hholds (k + 1), ?_⟩
  funext k
  rcases lt_or_ge k 0 with hk | hk
  · rw [act_eq_zero_of_rest _ hrest hk, hv k hk]
  · obtain ⟨k, rfl⟩ := Int.eq_ofNat_of_zero_le hk
    have hpast : filtered f n D (overlay D (junk k) (shift (x k))) (v k) =
        v k - ∑ i ∈ range n, f (i + 1) * w (k - (i + 1 : ℕ)) := by
      rw [filtered]
      congr 1
      exact sum_congr rfl fun i _ => by rw [hopen k (hholds k) i]
    rw [act_ofCoeffs_apply, sum_range_succ', hf, one_mul, Nat.cast_zero, sub_zero, hslot k, hpast]
    ring

end Filter

end DelayLine
