-- SUMMARY: The arrays of the three estimator structs, and the gain, parameter and covariance lines their update functions share.
import Mathlib.Algebra.Star.Rat
import Mathlib.Data.Rat.Star
import LynxFly.Base.LeastSquares
import LynxFly.Math.LibMatrix

/-!
# What RELS, CFFRELS and PPCFFRELS have in common

`RELS_T`, `CFFRELS_T` and `PPCFFRELS_T` differ in their orders and in how they
build the regressor. From the regressor on, their update functions are the same
sequence of matrix calls on the same temporaries, up to the forgetting factor.
That sequence is `gainThetaeCovariance`, and it computes one step of the abstract
recursive least squares estimator.
-/

open Buffers Buffers.Prog LibMatrix LeastSquares Matrix

/-- The float fields of the structs and the local arrays of their functions. A
    scalar field is a one-cell array. -/
inductive Arr where
  | AM | A0 | AA | BE0 | F1E | FE | GE | R
  | phie | P | thetae_1 | thetae | K | xie
  | RELS_tmp_V1 | RELS_tmp_VT1 | RELS_tmp_VT2 | RELS_tmp_UM1 | RELS_tmp_U1
  | RELS_tmp_M1 | RELS_tmp_M2 | RELS_tmp_M3 | RELS_tmp_M4
  deriving DecidableEq

/-- The number of cells the C array has, for the capacity `M` of the struct. -/
def Arr.size (M : ℕ) : Arr → ℕ
  | .BE0 | .xie | .RELS_tmp_UM1 | .RELS_tmp_U1 => 1
  | .P | .RELS_tmp_M1 | .RELS_tmp_M2 | .RELS_tmp_M3 | .RELS_tmp_M4 => M * M
  | _ => M

/-- An access inside its array. A division touches no array. -/
def InBounds (M : ℕ) : Access Arr ℚ → Prop
  | .read a i | .write a i => 0 ≤ i ∧ i < a.size M
  | .div _ => True

namespace Estimator

/-- The clamp of the forgetting factor at the head of the update functions. -/
def clampLambda (lambda : ℚ) : ℚ :=
  if lambda > 1 then 1 else if lambda < 9 / 10 then 9 / 10 else lambda

theorem clampLambda_eq (lambda : ℚ) : clampLambda lambda = max (9 / 10) (min 1 lambda) := by
  unfold clampLambda
  split
  case isTrue hgt =>
    rw [min_eq_left hgt.le]
    norm_num
  case isFalse hgt =>
    rw [min_eq_right (not_lt.mp hgt)]
    split
    case isTrue hlt => exact (max_eq_left hlt.le).symm
    case isFalse hlt => exact (max_eq_right (not_lt.mp hlt)).symm

theorem clamped_pos (lambda : ℚ) : 0 < max (9 / 10) (min 1 lambda) :=
  lt_of_lt_of_le (by norm_num) (le_max_left _ _)

/-- `K=P*phie/(lambda+phie'*P*phie)`. It leaves `phie'` in `RELS_tmp_VT1`. -/
def gainLines (ML : ℕ) (lambda : ℚ) : Prog Arr ℚ Unit := do
  matrixTranspose .phie ML 1 .RELS_tmp_VT1
  matrixMultiply .RELS_tmp_VT1 .P 1 ML ML .RELS_tmp_VT2
  matrixMultiply .RELS_tmp_VT2 .phie 1 ML 1 .RELS_tmp_UM1
  let RELS_tmp_U1 ← fdiv 1 (lambda + (← rd .RELS_tmp_UM1 0))
  matrixMultiply .P .phie ML ML 1 .RELS_tmp_V1
  matrixMultiplyK .RELS_tmp_V1 RELS_tmp_U1 ML 1 .K

/-- `thetae(:,k)=thetae_1+K*(y(k)-phie'*thetae_1)`. -/
def thetaeLines (ML : ℕ) (y : ℚ) : Prog Arr ℚ Unit := do
  matrixMultiply .RELS_tmp_VT1 .thetae_1 1 ML 1 .RELS_tmp_UM1
  let RELS_tmp_U1 := y - (← rd .RELS_tmp_UM1 0)
  matrixMultiplyK .K RELS_tmp_U1 ML 1 .RELS_tmp_V1
  matrixAddition .thetae_1 .RELS_tmp_V1 ML 1 .thetae

/-- `(eye-K*phie')*P`, into `RELS_tmp_M4`. -/
def covarianceLines (ML : ℕ) : Prog Arr ℚ Unit := do
  matrixMultiply .K .RELS_tmp_VT1 ML 1 ML .RELS_tmp_M1
  matrixEye .RELS_tmp_M2 ML
  matrixMinus .RELS_tmp_M2 .RELS_tmp_M1 ML ML .RELS_tmp_M3
  matrixMultiply .RELS_tmp_M3 .P ML ML ML .RELS_tmp_M4

/-- The three groups of lines in the order of the source. -/
def gainThetaeCovariance (ML : ℕ) (lambda y : ℚ) : Prog Arr ℚ Unit := do
  gainLines ML lambda
  thetaeLines ML y
  covarianceLines ML

/-- The last line of the forgetting variants, `P=(eye-K*phie')*P/lambda`. -/
def scaleCovariance (ML : ℕ) (lambda : ℚ) : Prog Arr ℚ Unit := do
  matrixMultiplyK .RELS_tmp_M4 (← fdiv 1 lambda) ML ML .P

/-! ## What they compute -/

section Spec

variable {c : Cells Arr ℚ} {n : ℕ} {lambda y : ℚ} {b : Arr}

theorem exec_gainLines_of_notMem
    (hb : b ∉ [Arr.RELS_tmp_VT1, .RELS_tmp_VT2, .RELS_tmp_UM1, .RELS_tmp_V1, .K]) :
    (gainLines n lambda).exec c b = c b := by
  simp only [List.mem_cons, List.not_mem_nil, or_false, not_or] at hb
  obtain ⟨h1, h2, h3, h4, h5⟩ := hb
  simp [gainLines, h1, h2, h3, h4, h5]

theorem exec_gainLines_VT1 :
    asVec n ((gainLines n lambda).exec c .RELS_tmp_VT1) = asVec n (c .phie) := by
  simp [gainLines]

theorem exec_gainLines_K :
    asVec n ((gainLines n lambda).exec c .K) =
      gain (asMatrix n n (c .P)) (asVec n (c .phie)) lambda := by
  simp [gainLines, gain, denom, quad, dotProduct_mulVec]

theorem exec_thetaeLines_of_notMem
    (hb : b ∉ [Arr.RELS_tmp_UM1, .RELS_tmp_V1, .thetae]) :
    (thetaeLines n y).exec c b = c b := by
  simp only [List.mem_cons, List.not_mem_nil, or_false, not_or] at hb
  obtain ⟨h1, h2, h3⟩ := hb
  simp [thetaeLines, h1, h2, h3]

theorem exec_thetaeLines_thetae :
    asVec n ((thetaeLines n y).exec c .thetae) = asVec n (c .thetae_1) +
      (y - asVec n (c .RELS_tmp_VT1) ⬝ᵥ asVec n (c .thetae_1)) • asVec n (c .K) := by
  simp [thetaeLines]

theorem exec_covarianceLines_of_notMem
    (hb : b ∉ [Arr.RELS_tmp_M1, .RELS_tmp_M2, .RELS_tmp_M3, .RELS_tmp_M4]) :
    (covarianceLines n).exec c b = c b := by
  simp only [List.mem_cons, List.not_mem_nil, or_false, not_or] at hb
  obtain ⟨h1, h2, h3, h4⟩ := hb
  simp [covarianceLines, h1, h2, h3, h4]

theorem exec_covarianceLines_M4 :
    asMatrix n n ((covarianceLines n).exec c .RELS_tmp_M4) =
      (1 - vecMulVec (asVec n (c .K)) (asVec n (c .RELS_tmp_VT1))) * asMatrix n n (c .P) := by
  simp [covarianceLines]

/-- What the shared lines write. -/
def scratch : List Arr :=
  [.RELS_tmp_VT1, .RELS_tmp_VT2, .RELS_tmp_UM1, .RELS_tmp_V1, .K, .thetae,
    .RELS_tmp_M1, .RELS_tmp_M2, .RELS_tmp_M3, .RELS_tmp_M4]

theorem exec_gainThetaeCovariance_of_notMem (hb : b ∉ scratch) :
    (gainThetaeCovariance n lambda y).exec c b = c b := by
  simp only [scratch, List.mem_cons, List.not_mem_nil, or_false, not_or] at hb
  rw [gainThetaeCovariance, exec_bind, exec_bind, exec_covarianceLines_of_notMem (by simp [hb]),
    exec_thetaeLines_of_notMem (by simp [hb]), exec_gainLines_of_notMem (by simp [hb])]

theorem exec_gainThetaeCovariance_thetae :
    asVec n ((gainThetaeCovariance n lambda y).exec c .thetae) =
      asVec n (c .thetae_1) + (y - asVec n (c .phie) ⬝ᵥ asVec n (c .thetae_1)) •
        gain (asMatrix n n (c .P)) (asVec n (c .phie)) lambda := by
  rw [gainThetaeCovariance, exec_bind, exec_bind, exec_covarianceLines_of_notMem (by simp),
    exec_thetaeLines_thetae, exec_gainLines_K, exec_gainLines_VT1,
    exec_gainLines_of_notMem (by simp)]

theorem exec_gainThetaeCovariance_M4 :
    asMatrix n n ((gainThetaeCovariance n lambda y).exec c .RELS_tmp_M4) =
      (1 - vecMulVec (gain (asMatrix n n (c .P)) (asVec n (c .phie)) lambda)
        (asVec n (c .phie))) * asMatrix n n (c .P) := by
  rw [gainThetaeCovariance, exec_bind, exec_bind, exec_covarianceLines_M4,
    exec_thetaeLines_of_notMem (by simp), exec_thetaeLines_of_notMem (by simp),
    exec_thetaeLines_of_notMem (by simp), exec_gainLines_K, exec_gainLines_VT1,
    exec_gainLines_of_notMem (by simp)]

end Spec

/-! ## The update functions up to their regressor -/

/-- `CFFRELS_Update`, `PPCFFRELS_Update` and `FFRELS_Update`, for the lines that
    build their regressor. -/
def forgettingUpdate (ML : ℕ) (regressor : Prog Arr ℚ Unit) (lambda y : ℚ) :
    Prog Arr ℚ Unit := do
  matrixCopy .thetae ML 1 .thetae_1
  regressor
  gainThetaeCovariance ML lambda y
  scaleCovariance ML lambda

/-- `RELS_Update`: no forgetting, and `P` is copied. -/
def ordinaryUpdate (ML : ℕ) (regressor : Prog Arr ℚ Unit) (y : ℚ) : Prog Arr ℚ Unit := do
  matrixCopy .thetae ML 1 .thetae_1
  regressor
  gainThetaeCovariance ML 1 y
  matrixCopy .RELS_tmp_M4 ML ML .P

/-- The last lines of the `init` functions: `thetae_1=0.001*ones` and
    `P=10^6*eye`. -/
def initThetaeP (ML : ℕ) : Prog Arr ℚ Unit := do
  loop ML fun RELS_i => wr .thetae_1 RELS_i (1 / 1000)
  matrixCopy .thetae_1 ML 1 .thetae
  matrixEye .RELS_tmp_M1 ML
  matrixMultiplyK .RELS_tmp_M1 1000000 ML ML .P

/-! ## The estimate they leave -/

/-- The estimate and the regressor a struct holds. -/
def est (n : ℕ) (c : Cells Arr ℚ) : Est (Fin n) ℚ :=
  ⟨asMatrix n n (c .P), asVec n (c .thetae)⟩

def phie (n : ℕ) (c : Cells Arr ℚ) : Fin n → ℚ := asVec n (c .phie)

theorem est_congr {n : ℕ} {c c' : Cells Arr ℚ} (hP : c' .P = c .P)
    (hθ : c' .thetae = c .thetae) : est n c' = est n c := by
  rw [est, est, hP, hθ]

/-- What `init` stores. -/
def initial (n : ℕ) : Est (Fin n) ℚ := ⟨(1000000 : ℚ) • 1, fun _ => 1 / 1000⟩

section Update

variable {c : Cells Arr ℚ} {n : ℕ} {lambda y : ℚ} {b : Arr} {regressor : Prog Arr ℚ Unit}

private theorem fills_thetae_1 : Fills (loop n fun i => wr Arr.thetae_1 i (1 / 1000)) c .thetae_1
    {q | ∃ i < n, q ∈ ({(i : ℤ)} : Set ℤ)} fun _ => (1 / 1000 : ℚ) :=
  Fills.of_loop fun _ _ _ _ _ => fills_wr _ _

private theorem vec_thetae_1 :
    asVec n ((loop n fun i => wr .thetae_1 i (1 / 1000)).exec c .thetae_1) =
      fun _ => (1 / 1000 : ℚ) :=
  asVec_ext fun i hi => fills_thetae_1.hit i ⟨i, hi, rfl⟩

theorem est_initThetaeP : est n ((initThetaeP n).exec c) = initial n := by
  rw [est, initial, initThetaeP]
  congr 1
  · simp
  · simpa using vec_thetae_1

theorem thetae_1_initThetaeP :
    asVec n ((initThetaeP n).exec c .thetae_1) = fun _ => 1 / 1000 := by
  simpa [initThetaeP] using vec_thetae_1

theorem exec_initThetaeP_of_notMem (hb : b ∉ [Arr.thetae_1, .thetae, .RELS_tmp_M1, .P]) :
    (initThetaeP n).exec c b = c b := by
  simp only [List.mem_cons, List.not_mem_nil, or_false, not_or] at hb
  obtain ⟨h1, h2, h3, h4⟩ := hb
  simpa [initThetaeP, h2, h3, h4] using (fills_thetae_1 (c := c) (n := n)).frame b h1

/-- What an update writes besides the regressor. -/
def updateScratch : List Arr := .thetae_1 :: .P :: scratch

theorem exec_forgettingUpdate_of_notMem (hb : b ∉ updateScratch)
    (hreg : ∀ c, regressor.exec c b = c b) :
    (forgettingUpdate n regressor lambda y).exec c b = c b := by
  rw [updateScratch, List.mem_cons, List.mem_cons, not_or, not_or] at hb
  obtain ⟨h1, h2, hscratch⟩ := hb
  simp [forgettingUpdate, scaleCovariance, h1, h2, hreg,
    exec_gainThetaeCovariance_of_notMem hscratch]

/-- The regressor an update leaves is the one its own lines built. -/
theorem phie_forgettingUpdate :
    phie n ((forgettingUpdate n regressor lambda y).exec c) =
      phie n (regressor.exec ((matrixCopy .thetae n 1 .thetae_1).exec c)) := by
  simp [phie, forgettingUpdate, scaleCovariance,
    exec_gainThetaeCovariance_of_notMem (b := .phie) (by decide)]

theorem phie_ordinaryUpdate :
    phie n ((ordinaryUpdate n regressor y).exec c) =
      phie n (regressor.exec ((matrixCopy .thetae n 1 .thetae_1).exec c)) := by
  simp [phie, ordinaryUpdate, exec_gainThetaeCovariance_of_notMem (b := .phie) (by decide)]

/-- A forgetting update is one abstract step, on the regressor it built. -/
theorem est_forgettingUpdate (hreg : ∀ c, ∀ b ≠ Arr.phie, regressor.exec c b = c b) :
    est n ((forgettingUpdate n regressor lambda y).exec c) =
      (est n c).step ⟨phie n ((forgettingUpdate n regressor lambda y).exec c), y, lambda⟩ := by
  rw [phie_forgettingUpdate]
  simp [est, phie, Est.step, forgettingUpdate, scaleCovariance, hreg,
    exec_gainThetaeCovariance_M4, exec_gainThetaeCovariance_thetae]

theorem est_ordinaryUpdate (hreg : ∀ c, ∀ b ≠ Arr.phie, regressor.exec c b = c b) :
    est n ((ordinaryUpdate n regressor y).exec c) =
      (est n c).step ⟨phie n ((ordinaryUpdate n regressor y).exec c), y, 1⟩ := by
  rw [phie_ordinaryUpdate]
  simp [est, phie, Est.step, ordinaryUpdate, hreg,
    exec_gainThetaeCovariance_M4, exec_gainThetaeCovariance_thetae]

/-! ## What they divide by -/

/-- The gain divides once, by the innovation variance; the matrix calls do not
    divide. -/
theorem divisors_gainThetaeCovariance :
    divisors (gainThetaeCovariance n lambda y) c =
      [denom (asMatrix n n (c .P)) (asVec n (c .phie)) lambda] := by
  simp only [gainThetaeCovariance, gainLines, thetaeLines, covarianceLines, divisors_bind,
    divisors_fdiv, divisors_rd,
    divisors_of_within (within_matrixTranspose (room_isCell _ _) (room_isCell _ _)),
    divisors_of_within (within_matrixMultiply (room_isCell _ _) (room_isCell _ _)
      (room_isCell _ _)),
    divisors_of_within (within_matrixMultiplyK (room_isCell _ _) (room_isCell _ _)),
    divisors_of_within (within_matrixAddition (room_isCell _ _) (room_isCell _ _)
      (room_isCell _ _)),
    divisors_of_within (within_matrixMinus (room_isCell _ _) (room_isCell _ _) (room_isCell _ _)),
    divisors_of_within (within_matrixEye (room_isCell _ _)), List.nil_append, List.append_nil]
  simp [denom, quad, dotProduct_mulVec]

theorem divisors_forgettingUpdate (hreg : ∀ c, ∀ b ≠ Arr.phie, regressor.exec c b = c b)
    (hcell : Within Access.IsCell regressor) :
    divisors (forgettingUpdate n regressor lambda y) c =
      [denom (est n c).P (phie n ((forgettingUpdate n regressor lambda y).exec c)) lambda,
        lambda] := by
  rw [phie_forgettingUpdate]
  simp only [forgettingUpdate, scaleCovariance, divisors_bind, divisors_fdiv,
    divisors_of_within (within_matrixCopy (room_isCell _ _) (room_isCell _ _)),
    divisors_of_within hcell, divisors_gainThetaeCovariance,
    divisors_of_within (within_matrixMultiplyK (room_isCell _ _) (room_isCell _ _)),
    List.nil_append, List.append_nil]
  simp [hreg, est, phie]

theorem divisors_ordinaryUpdate (hreg : ∀ c, ∀ b ≠ Arr.phie, regressor.exec c b = c b)
    (hcell : Within Access.IsCell regressor) :
    divisors (ordinaryUpdate n regressor y) c =
      [denom (est n c).P (phie n ((ordinaryUpdate n regressor y).exec c)) 1] := by
  rw [phie_ordinaryUpdate]
  simp only [ordinaryUpdate, divisors_bind,
    divisors_of_within (within_matrixCopy (room_isCell _ _) (room_isCell _ _)),
    divisors_of_within hcell, divisors_gainThetaeCovariance, List.nil_append, List.append_nil]
  simp [hreg, est, phie]

end Update

end Estimator
