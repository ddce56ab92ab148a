-- SUMMARY: Gauss-Jordan elimination: the row operations as matrices, the invariant of the passes, and what it says at the end.
import Mathlib.Algebra.Group.Pi.Units
import Mathlib.LinearAlgebra.Matrix.NonsingularInverse
import Mathlib.LinearAlgebra.Matrix.Swap

/-!
# Gauss-Jordan elimination

The same row operations are applied to a matrix `A`, first the matrix `A₀` to be
inverted, and to `M`, first the identity. Each operation multiplies both from the left
by an invertible matrix, so `M * A₀ = A` with `M` invertible throughout (`Reduced`).
Pass `k` makes column `k` of `A` a unit column.
-/

open Matrix

namespace GaussJordan

variable {ι K : Type} [Fintype ι] [DecidableEq ι] [Field K]

/-! ## Row operations -/

section Rows

variable (p q : ι) (d : K) (u : ι → K) (A : Matrix ι ι K)

/-- Rows `p` and `q` exchanged. -/
def swapRows : Matrix ι ι K := Matrix.of fun i j => A (Equiv.swap p q i) j

/-- Row `p` divided by `d`. -/
def divRow : Matrix ι ι K := Matrix.of fun i j => if i = p then A i j / d else A i j

/-- `u i` times row `p` subtracted from every other row `i`. -/
def clearRows : Matrix ι ι K :=
  Matrix.of fun i j => if i = p then A i j else A i j - u i * A p j

theorem swapRows_eq_mul : swapRows p q A = Matrix.swap K p q * A := by
  ext i j
  by_cases hp : i = p
  · rw [hp]
    simp [swapRows]
  · by_cases hq : i = q
    · rw [hq]
      simp [swapRows]
    · rw [swap_mul_of_ne hp hq]
      simp [swapRows, Equiv.swap_apply_of_ne_of_ne hp hq]

theorem divRow_eq_mul :
    divRow p d A = diagonal (fun i => if i = p then d⁻¹ else 1) * A := by
  ext i j
  rw [diagonal_mul]
  by_cases hp : i = p
  · simp [divRow, hp, div_eq_inv_mul]
  · simp [divRow, hp]

theorem clearRows_eq_mul :
    clearRows p u A = (1 - vecMulVec (fun i => if i = p then 0 else u i) (Pi.single p 1)) * A := by
  ext i j
  rw [Matrix.sub_mul, Matrix.one_mul, Matrix.sub_apply, vecMulVec_mul, vecMulVec_apply]
  by_cases hp : i = p
  · simp [clearRows, hp]
  · simp [clearRows, hp]

theorem isUnit_swap : IsUnit (Matrix.swap K p q) :=
  (isUnit_iff_isUnit_det _).mpr (isUnit_det_of_left_inverse (swap_mul_self p q))

theorem isUnit_divRow (hd : d ≠ 0) :
    IsUnit (diagonal (fun i => if i = p then d⁻¹ else 1) : Matrix ι ι K) := by
  rw [isUnit_diagonal, Pi.isUnit_iff]
  intro i
  split
  · exact (inv_ne_zero hd).isUnit
  · exact isUnit_one

theorem isUnit_clearRows : IsUnit
    (1 - vecMulVec (fun i => if i = p then 0 else u i) (Pi.single p 1) : Matrix ι ι K) := by
  have hsq : vecMulVec (fun i => if i = p then 0 else u i) (Pi.single p 1) *
      vecMulVec (fun i => if i = p then 0 else u i) (Pi.single p 1) = (0 : Matrix ι ι K) := by
    rw [vecMulVec_mul_vecMulVec]
    simp
  have h : (1 + vecMulVec (fun i => if i = p then 0 else u i) (Pi.single p 1)) *
      (1 - vecMulVec (fun i => if i = p then 0 else u i) (Pi.single p 1) : Matrix ι ι K) = 1 := by
    rw [Matrix.add_mul, Matrix.one_mul, Matrix.mul_sub, Matrix.mul_one, hsq]
    abel
  exact (isUnit_iff_isUnit_det _).mpr (isUnit_det_of_left_inverse h)

end Rows

/-! ## The passes -/

variable {n k : ℕ} {A₀ A M E : Matrix (Fin n) (Fin n) K}

/-- What the passes keep: `A` is `A₀` after invertible row operations, which `M` has
    seen as well, and the first `k` columns of `A` are unit columns. -/
structure Reduced (A₀ : Matrix (Fin n) (Fin n) K) (k : ℕ) (A M : Matrix (Fin n) (Fin n) K) :
    Prop where
  mul : M * A₀ = A
  unit : IsUnit M
  cols : ∀ j : Fin n, (j : ℕ) < k → ∀ i, A i j = if i = j then 1 else 0

theorem reduced_zero : Reduced A₀ 0 A₀ 1 :=
  ⟨Matrix.one_mul A₀, isUnit_one, fun _ hj => absurd hj (Nat.not_lt_zero _)⟩

/-- An invertible operation on both matrices that leaves unit columns in place. -/
theorem Reduced.mulLeft {k' : ℕ} (h : Reduced A₀ k A M) (hE : IsUnit E)
    (hcols : ∀ j : Fin n, (j : ℕ) < k' → ∀ i, (E * A) i j = if i = j then 1 else 0) :
    Reduced A₀ k' (E * A) (E * M) :=
  ⟨by rw [Matrix.mul_assoc, h.mul], hE.mul h.unit, hcols⟩

theorem Reduced.swapRows (h : Reduced A₀ k A M) {p q : Fin n} (hp : k ≤ p) (hq : k ≤ q) :
    Reduced A₀ k (GaussJordan.swapRows p q A) (GaussJordan.swapRows p q M) := by
  rw [swapRows_eq_mul p q M, swapRows_eq_mul p q A]
  refine h.mulLeft (isUnit_swap p q) fun j hj i => ?_
  rw [← swapRows_eq_mul]
  change A (Equiv.swap p q i) j = _
  rw [h.cols j hj]
  have hjp : j ≠ p := fun heq => by
    rw [heq] at hj
    omega
  have hjq : j ≠ q := fun heq => by
    rw [heq] at hj
    omega
  refine if_congr ?_ rfl rfl
  rw [Equiv.swap_apply_eq_iff, Equiv.swap_apply_of_ne_of_ne hjp hjq]

theorem Reduced.divRow (h : Reduced A₀ k A M) {p : Fin n} {d : K} (hp : k ≤ p) (hd : d ≠ 0) :
    Reduced A₀ k (GaussJordan.divRow p d A) (GaussJordan.divRow p d M) := by
  rw [divRow_eq_mul p d M, divRow_eq_mul p d A]
  refine h.mulLeft (isUnit_divRow p d hd) fun j hj i => ?_
  rw [← divRow_eq_mul]
  change (if i = p then A i j / d else A i j) = _
  rw [h.cols j hj]
  split
  case isTrue hi =>
    have hij : i ≠ j := fun heq => by
      rw [← heq, hi] at hj
      omega
    rw [if_neg hij, zero_div]
  case isFalse => rfl

/-- Clearing column `k` around a one finishes the pass. -/
theorem Reduced.clearRows (h : Reduced A₀ k A M) {p : Fin n} (hp : (p : ℕ) = k)
    (hone : A p p = 1) :
    Reduced A₀ (k + 1) (GaussJordan.clearRows p (fun i => A i p) A)
      (GaussJordan.clearRows p (fun i => A i p) M) := by
  rw [clearRows_eq_mul p _ M, clearRows_eq_mul p _ A]
  refine h.mulLeft (isUnit_clearRows p _) fun j hj i => ?_
  rw [← clearRows_eq_mul]
  change (if i = p then A i j else A i j - A i p * A p j) = _
  by_cases hjp : j = p
  · rw [hjp, hone, mul_one, sub_self]
    by_cases hi : i = p
    · rw [if_pos hi, if_pos hi, hi, hone]
    · rw [if_neg hi, if_neg hi]
  · have hjk : (j : ℕ) < k := by
      have : (j : ℕ) ≠ k := fun heq => hjp (Fin.ext (heq.trans hp.symm))
      omega
    rw [h.cols j hjk i, h.cols j hjk p, if_neg (Ne.symm hjp), mul_zero, sub_zero, ite_self]

/-- After all passes `M` is the inverse. -/
theorem Reduced.inverse (h : Reduced A₀ n A M) : A = 1 ∧ M * A₀ = 1 ∧ A₀ * M = 1 := by
  have hA : A = 1 := by
    ext i j
    rw [h.cols j j.isLt i, Matrix.one_apply]
  have hleft : M * A₀ = 1 := h.mul.trans hA
  exact ⟨hA, hleft, mul_eq_one_comm.mp hleft⟩

/-- Where column `k` has only zeros from row `k` on, it depends on the columns before
    it, and `A₀` is singular. -/
theorem Reduced.singular (h : Reduced A₀ k A M) (hk : k < n)
    (hzero : ∀ i : Fin n, k ≤ i → A i ⟨k, hk⟩ = 0) : ¬ IsUnit A₀ := by
  intro hA₀
  have hA : IsUnit A := h.mul ▸ h.unit.mul hA₀
  -- column k, less its combination of the unit columns
  let w : Fin n → K := fun j => if (j : ℕ) < k then A j ⟨k, hk⟩ else 0
  have hw : A *ᵥ w = w := by
    funext i
    have hterm : ∀ j : Fin n, A i j * w j = if i = j then w j else 0 := by
      intro j
      by_cases hj : (j : ℕ) < k
      · rw [h.cols j hj, ite_mul, one_mul, zero_mul]
      · rw [show w j = 0 from if_neg hj, mul_zero, ite_self]
    rw [mulVec, dotProduct, Finset.sum_congr rfl fun j _ => hterm j,
      Finset.sum_ite_eq Finset.univ i w, if_pos (Finset.mem_univ i)]
  have hcol : A *ᵥ Pi.single ⟨k, hk⟩ 1 = w := by
    funext i
    rw [mulVec_single_one, col_apply]
    by_cases hi : (i : ℕ) < k
    · exact (if_pos hi).symm
    · rw [hzero i (not_lt.mp hi)]
      exact (if_neg hi).symm
  have heq := mulVec_injective_iff_isUnit.mpr hA (hcol.trans hw.symm)
  have hone := congrFun heq ⟨k, hk⟩
  rw [Pi.single_eq_same, show w ⟨k, hk⟩ = 0 from if_neg (lt_irrefl k)] at hone
  exact one_ne_zero hone

end GaussJordan
