-- SUMMARY: The matrix routines of LibMatrix.c and what each leaves in its output buffer.
import Mathlib.Algebra.BigOperators.Fin
import Mathlib.Algebra.Order.Field.Rat
import LynxFly.Base.FlatMatrix

/-!
# LibMatrix.c

The routines take flat row-major arrays and their sizes. A size is a C `int`
that is only used as a loop bound and, inside the loop, as a stride: a negative
one runs no iteration, like `0`. The callers' buffers are distinct, which is the
hypothesis `A ≠ C` of each rule.
-/

open Buffers Buffers.Prog

namespace LibMatrix

variable {Buf : Type} [DecidableEq Buf]

/-! ## Routines -/

def matrixInit0 (A : Buf) (m n : ℕ) : Prog Buf ℚ Unit :=
  loop m fun i => loop n fun j => wr A (n * i + j) 0

def matrixCopy (A : Buf) (m n : ℕ) (C : Buf) : Prog Buf ℚ Unit :=
  loop m fun i => loop n fun j => do
    wr C (n * i + j) (← rd A (n * i + j))

def matrixEye (A : Buf) (n : ℕ) : Prog Buf ℚ Unit :=
  loop n fun i => loop n fun j =>
    if i = j then wr A (n * i + j) 1 else wr A (n * i + j) 0

def matrixMultiply (A B : Buf) (m p n : ℕ) (C : Buf) : Prog Buf ℚ Unit :=
  loop m fun i => loop n fun j => do
    wr C (n * i + j) 0
    loop p fun k => do
      wr C (n * i + j) ((← rd C (n * i + j)) + (← rd A (p * i + k)) * (← rd B (n * k + j)))

def matrixMultiplyK (A : Buf) (k : ℚ) (m n : ℕ) (C : Buf) : Prog Buf ℚ Unit :=
  loop m fun i => loop n fun j => do
    wr C (n * i + j) ((← rd A (n * i + j)) * k)

def matrixAddition (A B : Buf) (m n : ℕ) (C : Buf) : Prog Buf ℚ Unit :=
  loop m fun i => loop n fun j => do
    wr C (n * i + j) ((← rd A (n * i + j)) + (← rd B (n * i + j)))

def matrixMinus (A B : Buf) (m n : ℕ) (C : Buf) : Prog Buf ℚ Unit :=
  loop m fun i => loop n fun j => do
    wr C (n * i + j) ((← rd A (n * i + j)) - (← rd B (n * i + j)))

def matrixTranspose (A : Buf) (m n : ℕ) (C : Buf) : Prog Buf ℚ Unit :=
  loop m fun i => loop n fun j => do
    wr C (m * j + i) (← rd A (n * i + j))

/-! ## What they compute -/

variable {c : Cells Buf ℚ} {A B C : Buf} {m n p : ℕ} {k : ℚ}

omit [DecidableEq Buf] in
/-- A double loop that writes each cell of a row-major matrix once. -/
private theorem fillsGrid_of_wr {f : ℕ → ℕ → Prog Buf ℚ Unit} {w : ℕ → ℕ → ℚ}
    (h : ∀ i j, ∀ c' : Cells Buf ℚ, (∀ b ≠ C, c' b = c b) →
      Fills (f i j) c' C {(n * i + j : ℤ)} fun _ => w i j) :
    FillsGrid (loop m fun i => loop n fun j => f i j) c C m n (fun i j => n * i + j) w :=
  FillsGrid.of_loops (fun _ _ _ hj _ _ _ hj' heq => rowMajor_inj hj hj' heq)
    fun i _ j _ c' hframe _ => h i j c' hframe

theorem fillsGrid_matrixInit0 :
    FillsGrid (matrixInit0 A m n) c A m n (fun i j => n * i + j) fun _ _ => 0 :=
  fillsGrid_of_wr fun _ _ _ _ => fills_wr _ _

theorem fillsGrid_matrixCopy (h : A ≠ C) :
    FillsGrid (matrixCopy A m n C) c C m n (fun i j => n * i + j) fun i j => c A (n * i + j) := by
  refine fillsGrid_of_wr fun i j c' hframe => Fills.of_rd ?_
  rw [hframe A h]
  exact fills_wr _ _

theorem fillsGrid_matrixEye :
    FillsGrid (matrixEye A n) c A n n (fun i j => n * i + j)
      fun i j => if i = j then 1 else 0 := by
  refine fillsGrid_of_wr fun i j c' _ => ?_
  split
  · exact fills_wr _ _
  · exact fills_wr _ _

theorem fillsGrid_matrixMultiply (hA : A ≠ C) (hB : B ≠ C) :
    FillsGrid (matrixMultiply A B m p n C) c C m n (fun i j => n * i + j)
      fun i j => ∑ k ∈ Finset.range p, c A (p * i + k) * c B (n * k + j) := by
  refine fillsGrid_of_wr fun i j c' hframe => ?_
  have hzero := fills_wr (c := c') (a := C) (n * i + j) (0 : ℚ)
  have hsum : Fills (loop p fun k => do
      wr C (n * i + j) ((← rd C (n * i + j)) + (← rd A (p * i + k)) * (← rd B (n * k + j))))
      ((wr C (n * i + j) (0 : ℚ)).exec c') C {(n * i + j : ℤ)} _ :=
    Fills.accumulate (t := fun k => c A (p * i + k) * c B (n * k + j)) fun k _ c'' hframe' => by
      refine Fills.of_rd (Fills.of_rd (Fills.of_rd ?_))
      rw [hframe' A hA, hframe' B hB, hzero.frame A hA, hzero.frame B hB, hframe A hA,
        hframe B hB]
      exact fills_wr _ _
  refine (hzero.seq hsum).congr fun q _ => ?_
  rw [exec_wr_self, zero_add]

theorem fillsGrid_matrixMultiplyK (h : A ≠ C) :
    FillsGrid (matrixMultiplyK A k m n C) c C m n (fun i j => n * i + j)
      fun i j => c A (n * i + j) * k := by
  refine fillsGrid_of_wr fun i j c' hframe => Fills.of_rd ?_
  rw [hframe A h]
  exact fills_wr _ _

theorem fillsGrid_matrixAddition (hA : A ≠ C) (hB : B ≠ C) :
    FillsGrid (matrixAddition A B m n C) c C m n (fun i j => n * i + j)
      fun i j => c A (n * i + j) + c B (n * i + j) := by
  refine fillsGrid_of_wr fun i j c' hframe => Fills.of_rd (Fills.of_rd ?_)
  rw [hframe A hA, hframe B hB]
  exact fills_wr _ _

theorem fillsGrid_matrixMinus (hA : A ≠ C) (hB : B ≠ C) :
    FillsGrid (matrixMinus A B m n C) c C m n (fun i j => n * i + j)
      fun i j => c A (n * i + j) - c B (n * i + j) := by
  refine fillsGrid_of_wr fun i j c' hframe => Fills.of_rd (Fills.of_rd ?_)
  rw [hframe A hA, hframe B hB]
  exact fills_wr _ _

theorem fillsGrid_matrixTranspose (h : A ≠ C) :
    FillsGrid (matrixTranspose A m n C) c C m n (fun i j => m * j + i)
      fun i j => c A (n * i + j) := by
  refine FillsGrid.of_loops (fun i hi j hj i' hi' j' hj' heq => ?_) fun i _ j _ c' hframe _ => ?_
  · exact (rowMajor_inj hi hi' heq).symm
  · refine Fills.of_rd ?_
    rw [hframe A h]
    exact fills_wr _ _

/-! ## The other buffers are left alone -/

section Frame

variable {b : Buf}

@[simp] theorem exec_matrixInit0_of_ne (hb : b ≠ A) : (matrixInit0 A m n).exec c b = c b :=
  fillsGrid_matrixInit0.frame b hb
@[simp] theorem exec_matrixCopy_of_ne (h : A ≠ C) (hb : b ≠ C) :
    (matrixCopy A m n C).exec c b = c b :=
  (fillsGrid_matrixCopy h).frame b hb
@[simp] theorem exec_matrixEye_of_ne (hb : b ≠ A) : (matrixEye A n).exec c b = c b :=
  fillsGrid_matrixEye.frame b hb
@[simp] theorem exec_matrixMultiply_of_ne (hA : A ≠ C) (hB : B ≠ C) (hb : b ≠ C) :
    (matrixMultiply A B m p n C).exec c b = c b :=
  (fillsGrid_matrixMultiply hA hB).frame b hb
@[simp] theorem exec_matrixMultiplyK_of_ne (h : A ≠ C) (hb : b ≠ C) :
    (matrixMultiplyK A k m n C).exec c b = c b :=
  (fillsGrid_matrixMultiplyK h).frame b hb
@[simp] theorem exec_matrixAddition_of_ne (hA : A ≠ C) (hB : B ≠ C) (hb : b ≠ C) :
    (matrixAddition A B m n C).exec c b = c b :=
  (fillsGrid_matrixAddition hA hB).frame b hb
@[simp] theorem exec_matrixMinus_of_ne (hA : A ≠ C) (hB : B ≠ C) (hb : b ≠ C) :
    (matrixMinus A B m n C).exec c b = c b :=
  (fillsGrid_matrixMinus hA hB).frame b hb
@[simp] theorem exec_matrixTranspose_of_ne (h : A ≠ C) (hb : b ≠ C) :
    (matrixTranspose A m n C).exec c b = c b :=
  (fillsGrid_matrixTranspose h).frame b hb

end Frame

/-! ## The cells they touch -/

section Within

variable {ok : Access Buf ℚ → Prop}

omit [DecidableEq Buf] in
private theorem within_cells {f : ℕ → ℕ → Prog Buf ℚ Unit}
    (h : ∀ i < m, ∀ j < n, Within ok (f i j)) :
    Within ok (loop m fun i => loop n fun j => f i j) :=
  within_loop fun i hi => within_loop fun j hj => h i hi j hj

theorem within_matrixInit0 (hA : Room ok A (m * n)) : Within ok (matrixInit0 A m n) :=
  within_cells fun _ hi _ hj => within_wr (hA.rowMajor hi hj).2

theorem within_matrixCopy (hA : Room ok A (m * n)) (hC : Room ok C (m * n)) :
    Within ok (matrixCopy A m n C) :=
  within_cells fun _ hi _ hj => (within_rd (hA.rowMajor hi hj).1).bind fun _ =>
    within_wr (hC.rowMajor hi hj).2

theorem within_matrixEye (hA : Room ok A (n * n)) : Within ok (matrixEye A n) :=
  within_cells fun _ hi _ hj => within_ite (fun _ => within_wr (hA.rowMajor hi hj).2)
    fun _ => within_wr (hA.rowMajor hi hj).2

theorem within_matrixMultiply (hA : Room ok A (m * p)) (hB : Room ok B (p * n))
    (hC : Room ok C (m * n)) : Within ok (matrixMultiply A B m p n C) :=
  within_cells fun _ hi _ hj => (within_wr (hC.rowMajor hi hj).2).bind fun _ =>
    within_loop fun _ hk => (within_rd (hC.rowMajor hi hj).1).bind fun _ =>
      (within_rd (hA.rowMajor hi hk).1).bind fun _ => (within_rd (hB.rowMajor hk hj).1).bind fun _ =>
        within_wr (hC.rowMajor hi hj).2

theorem within_matrixMultiplyK (hA : Room ok A (m * n)) (hC : Room ok C (m * n)) :
    Within ok (matrixMultiplyK A k m n C) :=
  within_cells fun _ hi _ hj => (within_rd (hA.rowMajor hi hj).1).bind fun _ =>
    within_wr (hC.rowMajor hi hj).2

theorem within_matrixAddition (hA : Room ok A (m * n)) (hB : Room ok B (m * n))
    (hC : Room ok C (m * n)) : Within ok (matrixAddition A B m n C) :=
  within_cells fun _ hi _ hj => (within_rd (hA.rowMajor hi hj).1).bind fun _ =>
    (within_rd (hB.rowMajor hi hj).1).bind fun _ => within_wr (hC.rowMajor hi hj).2

theorem within_matrixMinus (hA : Room ok A (m * n)) (hB : Room ok B (m * n))
    (hC : Room ok C (m * n)) : Within ok (matrixMinus A B m n C) :=
  within_cells fun _ hi _ hj => (within_rd (hA.rowMajor hi hj).1).bind fun _ =>
    (within_rd (hB.rowMajor hi hj).1).bind fun _ => within_wr (hC.rowMajor hi hj).2

theorem within_matrixTranspose (hA : Room ok A (m * n)) (hC : Room ok C (n * m)) :
    Within ok (matrixTranspose A m n C) :=
  within_cells fun _ hi _ hj => (within_rd (hA.rowMajor hi hj).1).bind fun _ =>
    within_wr (hC.rowMajor hj hi).2

end Within

/-! ## On a single row -/

theorem exec_matrixInit0_row {i : ℕ} (hi : i < n) : (matrixInit0 A 1 n).exec c A i = 0 := by
  simpa using (fillsGrid_matrixInit0 (c := c) (A := A)).cell 0 Nat.one_pos i hi

theorem exec_matrixCopy_row (h : A ≠ C) {i : ℕ} (hi : i < n) :
    (matrixCopy A 1 n C).exec c C i = c A i := by
  simpa using (fillsGrid_matrixCopy (c := c) h).cell 0 Nat.one_pos i hi

theorem exec_matrixMultiplyK_row (h : A ≠ C) {i : ℕ} (hi : i < n) :
    (matrixMultiplyK A k 1 n C).exec c C i = c A i * k := by
  simpa using (fillsGrid_matrixMultiplyK (c := c) (k := k) h).cell 0 Nat.one_pos i hi

/-! ## As matrix algebra -/

open Matrix

@[simp] theorem asVec_matrixCopy (h : A ≠ C) :
    asVec m ((matrixCopy A m 1 C).exec c C) = asVec m (c A) := by
  rw [(fillsGrid_matrixCopy h).asVec_col_eq]
  funext i
  simp

@[simp] theorem asMatrix_matrixCopy (h : A ≠ C) :
    asMatrix m n ((matrixCopy A m n C).exec c C) = asMatrix m n (c A) := by
  rw [(fillsGrid_matrixCopy h).asMatrix_eq]
  rfl

@[simp] theorem asMatrix_matrixEye :
    asMatrix n n ((matrixEye A n).exec c A) = 1 := by
  rw [fillsGrid_matrixEye.asMatrix_eq]
  ext i j
  simp [Matrix.one_apply, Fin.ext_iff]

@[simp] theorem asMatrix_matrixMultiply (hA : A ≠ C) (hB : B ≠ C) :
    asMatrix m n ((matrixMultiply A B m p n C).exec c C) =
      asMatrix m p (c A) * asMatrix p n (c B) := by
  rw [(fillsGrid_matrixMultiply hA hB).asMatrix_eq]
  ext i j
  simp [Matrix.mul_apply, Finset.sum_range]

/-- A matrix times a column. -/
@[simp] theorem asVec_matrixMultiply_col (hA : A ≠ C) (hB : B ≠ C) :
    asVec m ((matrixMultiply A B m p 1 C).exec c C) = asMatrix m p (c A) *ᵥ asVec p (c B) := by
  rw [(fillsGrid_matrixMultiply hA hB).asVec_col_eq]
  funext i
  simp [Matrix.mulVec, dotProduct, Finset.sum_range]

/-- A row times a matrix. -/
@[simp] theorem asVec_matrixMultiply_row (hA : A ≠ C) (hB : B ≠ C) :
    asVec n ((matrixMultiply A B 1 p n C).exec c C) = asVec p (c A) ᵥ* asMatrix p n (c B) := by
  rw [(fillsGrid_matrixMultiply hA hB).asVec_row_eq]
  funext j
  simp [Matrix.vecMul, dotProduct, Finset.sum_range]

/-- A row times a column, which is the only cell. -/
@[simp] theorem exec_matrixMultiply_scalar (hA : A ≠ C) (hB : B ≠ C) :
    (matrixMultiply A B 1 p 1 C).exec c C 0 = asVec p (c A) ⬝ᵥ asVec p (c B) := by
  have h := (fillsGrid_matrixMultiply (c := c) (m := 1) (n := 1) (p := p) hA hB).cell
    0 Nat.one_pos 0 Nat.one_pos
  simpa [dotProduct, Finset.sum_range] using h

/-- A column times a row. -/
@[simp high] theorem asMatrix_matrixMultiply_outer (hA : A ≠ C) (hB : B ≠ C) :
    asMatrix m n ((matrixMultiply A B m 1 n C).exec c C) =
      vecMulVec (asVec m (c A)) (asVec n (c B)) := by
  rw [(fillsGrid_matrixMultiply hA hB).asMatrix_eq]
  ext i j
  simp [vecMulVec_apply]

@[simp] theorem asMatrix_matrixMultiplyK (h : A ≠ C) :
    asMatrix m n ((matrixMultiplyK A k m n C).exec c C) = k • asMatrix m n (c A) := by
  rw [(fillsGrid_matrixMultiplyK h).asMatrix_eq]
  ext i j
  simp [mul_comm]

@[simp] theorem asVec_matrixMultiplyK (h : A ≠ C) :
    asVec m ((matrixMultiplyK A k m 1 C).exec c C) = k • asVec m (c A) := by
  rw [(fillsGrid_matrixMultiplyK h).asVec_col_eq]
  funext i
  simp [mul_comm]

@[simp] theorem asVec_matrixAddition (hA : A ≠ C) (hB : B ≠ C) :
    asVec m ((matrixAddition A B m 1 C).exec c C) = asVec m (c A) + asVec m (c B) := by
  rw [(fillsGrid_matrixAddition hA hB).asVec_col_eq]
  funext i
  simp

@[simp] theorem asMatrix_matrixMinus (hA : A ≠ C) (hB : B ≠ C) :
    asMatrix m n ((matrixMinus A B m n C).exec c C) =
      asMatrix m n (c A) - asMatrix m n (c B) := by
  rw [(fillsGrid_matrixMinus hA hB).asMatrix_eq]
  ext i j
  simp

/-- A column, copied to a row. -/
@[simp] theorem asVec_matrixTranspose (h : A ≠ C) :
    asVec m ((matrixTranspose A m 1 C).exec c C) = asVec m (c A) :=
  asVec_ext fun i hi => by
    simpa using (fillsGrid_matrixTranspose (c := c) (n := 1) h).cell i hi 0 Nat.one_pos

end LibMatrix
