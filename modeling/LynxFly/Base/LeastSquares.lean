-- SUMMARY: Recursive least squares with a varying forgetting factor: information form, positive definiteness, the cost it minimises, and the Lyapunov bound.
import Mathlib.LinearAlgebra.Matrix.PosDef
import Mathlib.LinearAlgebra.Matrix.NonsingularInverse
import Mathlib.Algebra.BigOperators.Intervals
import Mathlib.Data.Sign.Basic
import Mathlib.Tactic.Linarith
import Mathlib.Tactic.FieldSimp
import Mathlib.Tactic.LinearCombination

/-!
# Recursive least squares

An estimate is a covariance `P` with a parameter vector `θ`. A sample `y` with
regressor `φ` and forgetting factor `lam` updates it by

    g  = P φ / (lam + φᵀ P φ)
    θ' = θ + g (y - φᵀ θ)
    P' = (1 - g φᵀ) P / lam

The development is in terms of the inverse `P⁻¹`, for which the update is
`P'⁻¹ = lam P⁻¹ + φ φᵀ` and `P'⁻¹ θ' = lam P⁻¹ θ + y φ`. From these two
equations one sample completes a square (`Est.step_cost`), and both the
minimised cost of a run and the decrease of the weighted error are readings of
that one identity.
-/


open Matrix

namespace LeastSquares

variable {ι 𝕜 : Type} [Fintype ι]

/-! ## Quadratic forms -/

section Quad

variable [CommRing 𝕜]

/-- `xᵀ W x`. -/
def quad (W : Matrix ι ι 𝕜) (x : ι → 𝕜) : 𝕜 := x ⬝ᵥ W *ᵥ x

theorem quad_smul (a : 𝕜) (W : Matrix ι ι 𝕜) (x : ι → 𝕜) : quad (a • W) x = a * quad W x := by
  simp [quad, smul_mulVec]

theorem quad_add (W W' : Matrix ι ι 𝕜) (x : ι → 𝕜) : quad (W + W') x = quad W x + quad W' x := by
  simp [quad, add_mulVec]

theorem quad_vecMulVec (φ x : ι → 𝕜) : quad (vecMulVec φ φ) x = (φ ⬝ᵥ x) ^ 2 := by
  rw [quad, vecMulVec_mulVec]
  simp [dotProduct_comm x φ, sq]

/-- A symmetric form moves across the dot product. -/
theorem dotProduct_mulVec_comm {W : Matrix ι ι 𝕜} (hW : W.IsSymm) (x z : ι → 𝕜) :
    x ⬝ᵥ W *ᵥ z = z ⬝ᵥ W *ᵥ x := by
  rw [dotProduct_mulVec, ← mulVec_transpose, hW.eq, dotProduct_comm]

theorem quad_sub {W : Matrix ι ι 𝕜} (hW : W.IsSymm) (x z : ι → 𝕜) :
    quad W (x - z) = quad W x - 2 * (x ⬝ᵥ W *ᵥ z) + quad W z := by
  simp only [quad, mulVec_sub, sub_dotProduct, dotProduct_sub]
  rw [dotProduct_mulVec_comm hW z x]
  ring

end Quad

/-! ## The update -/

/-- An estimate: covariance and parameters. -/
structure Est (ι 𝕜 : Type) where
  P : Matrix ι ι 𝕜
  θ : ι → 𝕜

/-- What one update is given: regressor, sample and forgetting factor. -/
structure Sample (ι 𝕜 : Type) where
  φ : ι → 𝕜
  y : 𝕜
  lam : 𝕜

section Step

variable [DecidableEq ι] [Field 𝕜]

/-- The divisor of the gain. -/
def denom (P : Matrix ι ι 𝕜) (φ : ι → 𝕜) (lam : 𝕜) : 𝕜 := lam + quad P φ

def gain (P : Matrix ι ι 𝕜) (φ : ι → 𝕜) (lam : 𝕜) : ι → 𝕜 :=
  (1 / denom P φ lam) • (P *ᵥ φ)

def Est.step (e : Est ι 𝕜) (s : Sample ι 𝕜) : Est ι 𝕜 where
  P := (1 / s.lam) • ((1 - vecMulVec (gain e.P s.φ s.lam) s.φ) * e.P)
  θ := e.θ + (s.y - s.φ ⬝ᵥ e.θ) • gain e.P s.φ s.lam

/-- The estimates of a run, one sample after the other. -/
def Est.run (e : Est ι 𝕜) (s : ℕ → Sample ι 𝕜) : ℕ → Est ι 𝕜
  | 0 => e
  | k + 1 => (e.run s k).step (s k)

omit [DecidableEq ι] in
theorem denom_smul_gain {P : Matrix ι ι 𝕜} {φ : ι → 𝕜} {lam : 𝕜} (h : denom P φ lam ≠ 0) :
    denom P φ lam • gain P φ lam = P *ᵥ φ := by
  rw [gain, smul_smul, mul_one_div_cancel h, one_smul]

/-- With no excitation the covariance is only divided by the factor. -/
theorem Est.step_P_of_zero {e : Est ι 𝕜} {s : Sample ι 𝕜} (h : s.φ = 0) :
    (e.step s).P = (1 / s.lam) • e.P := by
  rw [Est.step, h, vecMulVec_zero, sub_zero, Matrix.one_mul]

/-! ## The cost of a run -/

/-- `x` is the one minimiser of `f`. -/
def IsStrictMin {α β : Type} [LT β] (f : α → β) (x : α) : Prop := ∀ z, z ≠ x → f x < f z

/-- The weighted cost of the first `k` samples: each is forgotten by the factors
    of the later ones, the initial estimate by all of them. -/
noncomputable def cost (e : Est ι 𝕜) (s : ℕ → Sample ι 𝕜) (k : ℕ) (ϑ : ι → 𝕜) : 𝕜 :=
  (∏ i ∈ Finset.range k, (s i).lam) * quad e.P⁻¹ (ϑ - e.θ) +
    ∑ i ∈ Finset.range k,
      (∏ j ∈ Finset.Ico (i + 1) k, (s j).lam) * ((s i).y - (s i).φ ⬝ᵥ ϑ) ^ 2

theorem cost_succ (e : Est ι 𝕜) (s : ℕ → Sample ι 𝕜) (k : ℕ) (ϑ : ι → 𝕜) :
    cost e s (k + 1) ϑ = (s k).lam * cost e s k ϑ + ((s k).y - (s k).φ ⬝ᵥ ϑ) ^ 2 := by
  have hforget : ∀ i ∈ Finset.range k,
      (∏ j ∈ Finset.Ico (i + 1) (k + 1), (s j).lam) * ((s i).y - (s i).φ ⬝ᵥ ϑ) ^ 2 =
        (s k).lam * ((∏ j ∈ Finset.Ico (i + 1) k, (s j).lam) *
          ((s i).y - (s i).φ ⬝ᵥ ϑ) ^ 2) := fun i hi => by
    rw [Finset.prod_Ico_succ_top (Finset.mem_range.mp hi)]
    ring
  rw [cost, cost, Finset.prod_range_succ, Finset.sum_range_succ, Finset.sum_congr rfl hforget,
    ← Finset.mul_sum, Finset.Ico_self, Finset.prod_empty]
  ring

end Step

/-! ## Residuals -/

section Shrink

variable [Field 𝕜] [LinearOrder 𝕜] [IsOrderedRing 𝕜] {lam x q : 𝕜}

/-- A residual that has shrunk points the same way. -/
theorem abs_shrink_le (hlam : 0 < lam) (hq : 0 ≤ q) :
    |x * lam / (lam + q)| ≤ |x| := by
  have hden : 0 < lam + q := by linarith
  rw [abs_div, abs_mul, abs_of_pos hlam, abs_of_pos hden, div_le_iff₀ hden]
  exact mul_le_mul_of_nonneg_left (by linarith) (abs_nonneg x)

theorem sign_shrink (hlam : 0 < lam) (hq : 0 ≤ q) :
    SignType.sign (x * lam / (lam + q)) = SignType.sign x := by
  have hpos : 0 < lam / (lam + q) := div_pos hlam (by linarith)
  rw [mul_div_assoc, sign_mul, sign_pos hpos, mul_one]

end Shrink

/-! ## Positive definiteness -/

section Forms

variable [Field 𝕜] [LinearOrder 𝕜] [StarRing 𝕜] {P W : Matrix ι ι 𝕜} {x : ι → 𝕜}

theorem inv_mul_posDef [DecidableEq ι] (h : P.PosDef) : P⁻¹ * P = 1 :=
  nonsing_inv_mul P ((isUnit_iff_isUnit_det P).mp h.isUnit)

theorem mul_inv_posDef [DecidableEq ι] (h : P.PosDef) : P * P⁻¹ = 1 :=
  mul_nonsing_inv P ((isUnit_iff_isUnit_det P).mp h.isUnit)

variable [TrivialStar 𝕜]

omit [Fintype ι] in
theorem isSymm_of_posDef (h : W.PosDef) : W.IsSymm := by
  have := h.isHermitian
  rwa [IsHermitian, conjTranspose_eq_transpose_of_trivial] at this

theorem quad_pos (h : W.PosDef) (hx : x ≠ 0) : 0 < quad W x := by
  simpa [quad] using h.dotProduct_mulVec_pos hx

theorem quad_nonneg (h : W.PosDef) (x : ι → 𝕜) : 0 ≤ quad W x := by
  simpa [quad] using h.posSemidef.dotProduct_mulVec_nonneg x

variable [IsOrderedRing 𝕜] {φ : ι → 𝕜} {lam : 𝕜}

theorem le_denom (h : P.PosDef) : lam ≤ denom P φ lam :=
  le_add_of_nonneg_right (quad_nonneg h φ)

theorem denom_ne_zero (h : P.PosDef) (hlam : 0 < lam) : denom P φ lam ≠ 0 :=
  (hlam.trans_le (le_denom h)).ne'

end Forms

/-! ## Information form -/

section Ordered

variable [DecidableEq ι] [Field 𝕜] [LinearOrder 𝕜] [IsOrderedRing 𝕜] [StarRing 𝕜] [TrivialStar 𝕜]
variable {P W : Matrix ι ι 𝕜} {φ x : ι → 𝕜} {lam : 𝕜} {e : Est ι 𝕜} {s : Sample ι 𝕜}

/-- The updated covariance times the updated information matrix. -/
theorem Est.step_P_mul (h : e.P.PosDef) (hlam : 0 < s.lam) :
    (e.step s).P * (s.lam • e.P⁻¹ + vecMulVec s.φ s.φ) = 1 := by
  have hden : denom e.P s.φ s.lam ≠ 0 := denom_ne_zero h hlam
  have hinner : (1 - vecMulVec (gain e.P s.φ s.lam) s.φ) * e.P *
      (s.lam • e.P⁻¹ + vecMulVec s.φ s.φ) = s.lam • 1 := by
    have hP : e.P * (s.lam • e.P⁻¹ + vecMulVec s.φ s.φ) =
        s.lam • 1 + vecMulVec (e.P *ᵥ s.φ) s.φ := by
      rw [Matrix.mul_add, Matrix.mul_smul, mul_inv_posDef h, mul_vecMulVec]
    rw [Matrix.mul_assoc, hP, Matrix.sub_mul, Matrix.one_mul, Matrix.mul_add, Matrix.mul_smul,
      Matrix.mul_one, vecMulVec_mul_vecMulVec, ← denom_smul_gain hden]
    rw [dotProduct_smul, smul_eq_mul]
    ext i j
    simp only [Matrix.add_apply, Matrix.sub_apply, Matrix.smul_apply, smul_eq_mul, vecMulVec_apply,
      Pi.smul_apply]
    have hquad : denom e.P s.φ s.lam * (s.φ ⬝ᵥ gain e.P s.φ s.lam) = quad e.P s.φ := by
      rw [← smul_eq_mul, ← dotProduct_smul, denom_smul_gain hden, quad]
    rw [hquad, denom]
    ring
  rw [Est.step, Matrix.smul_mul, hinner, smul_smul, one_div_mul_cancel hlam.ne', one_smul]

/-- Information form of the covariance update. -/
theorem Est.step_P_inv (h : e.P.PosDef) (hlam : 0 < s.lam) :
    (e.step s).P⁻¹ = s.lam • e.P⁻¹ + vecMulVec s.φ s.φ :=
  inv_eq_right_inv (step_P_mul h hlam)

/-- The residual of the updated parameters on the sample, from that of the old ones. -/
theorem Est.step_residual (h : e.P.PosDef) (hlam : 0 < s.lam) :
    s.y - s.φ ⬝ᵥ (e.step s).θ = (s.y - s.φ ⬝ᵥ e.θ) * s.lam / (s.lam + quad e.P s.φ) := by
  have hden : s.lam + quad e.P s.φ ≠ 0 := denom_ne_zero h hlam
  have hgain : s.φ ⬝ᵥ gain e.P s.φ s.lam = quad e.P s.φ / (s.lam + quad e.P s.φ) := by
    rw [gain, dotProduct_smul, smul_eq_mul, one_div_mul_eq_div]
    rfl
  rw [Est.step, dotProduct_add, dotProduct_smul, smul_eq_mul, hgain]
  field_simp
  ring

/-- The gain is what the updated information matrix sends to the regressor. -/
theorem Est.step_inv_mulVec_gain (h : e.P.PosDef) (hlam : 0 < s.lam) :
    (e.step s).P⁻¹ *ᵥ gain e.P s.φ s.lam = s.φ := by
  have hden : denom e.P s.φ s.lam ≠ 0 := denom_ne_zero h hlam
  have hinv : e.P⁻¹ *ᵥ (e.P *ᵥ s.φ) = s.φ := by
    rw [mulVec_mulVec, inv_mul_posDef h, one_mulVec]
  rw [step_P_inv h hlam, gain, mulVec_smul, add_mulVec, smul_mulVec, hinv, vecMulVec_mulVec]
  rw [show s.φ ⬝ᵥ e.P *ᵥ s.φ = quad e.P s.φ from rfl]
  funext i
  simp only [Pi.smul_apply, Pi.add_apply, smul_eq_mul, MulOpposite.smul_eq_mul_unop,
    MulOpposite.unop_op]
  rw [show s.lam * s.φ i + s.φ i * quad e.P s.φ = denom e.P s.φ s.lam * s.φ i by
    rw [denom]; ring]
  rw [← mul_assoc, one_div_mul_cancel hden, one_mul]

/-- Information form of the parameter update. -/
theorem Est.step_inv_mulVec_θ (h : e.P.PosDef) (hlam : 0 < s.lam) :
    (e.step s).P⁻¹ *ᵥ (e.step s).θ = s.lam • (e.P⁻¹ *ᵥ e.θ) + s.y • s.φ := by
  have hθ : (e.step s).θ = e.θ + (s.y - s.φ ⬝ᵥ e.θ) • gain e.P s.φ s.lam := rfl
  rw [hθ, mulVec_add, mulVec_smul, step_inv_mulVec_gain h hlam, step_P_inv h hlam,
    add_mulVec, smul_mulVec, vecMulVec_mulVec]
  funext i
  simp only [Pi.smul_apply, Pi.add_apply, smul_eq_mul, MulOpposite.smul_eq_mul_unop,
    MulOpposite.unop_op]
  ring

variable [StarOrderedRing 𝕜]

/-- The update keeps the covariance symmetric and positive definite. -/
theorem Est.step_posDef (h : e.P.PosDef) (hlam : 0 < s.lam) : (e.step s).P.PosDef := by
  rw [← posDef_inv_iff, step_P_inv h hlam]
  have hinv : (s.lam • e.P⁻¹).PosDef := (posDef_inv_iff.mpr h).smul hlam
  have hrank : (vecMulVec s.φ s.φ).PosSemidef := by
    simpa using posSemidef_vecMulVec_self_star s.φ
  exact hinv.add_posSemidef hrank

/-! ## Completing the square -/

/-- One sample, added to a weighted square around `θ`, gives a weighted square
    around the updated `θ` and a remainder that does not depend on `ϑ`. -/
theorem Est.step_cost (h : e.P.PosDef) (hlam : 0 < s.lam) (ϑ : ι → 𝕜) :
    s.lam * quad e.P⁻¹ (ϑ - e.θ) + (s.y - s.φ ⬝ᵥ ϑ) ^ 2 =
      quad (e.step s).P⁻¹ (ϑ - (e.step s).θ) +
        (s.lam * quad e.P⁻¹ ((e.step s).θ - e.θ) + (s.y - s.φ ⬝ᵥ (e.step s).θ) ^ 2) := by
  have hW : e.P⁻¹.IsSymm := isSymm_of_posDef (posDef_inv_iff.mpr h)
  have hW' : (e.step s).P⁻¹.IsSymm := isSymm_of_posDef (posDef_inv_iff.mpr (step_posDef h hlam))
  have hquad : ∀ x, quad (e.step s).P⁻¹ x = s.lam * quad e.P⁻¹ x + (s.φ ⬝ᵥ x) ^ 2 := fun x => by
    rw [step_P_inv h hlam, quad_add, quad_smul, quad_vecMulVec]
  have hcross : ∀ x, x ⬝ᵥ (e.step s).P⁻¹ *ᵥ (e.step s).θ =
      s.lam * (x ⬝ᵥ e.P⁻¹ *ᵥ e.θ) + s.y * (s.φ ⬝ᵥ x) := fun x => by
    rw [step_inv_mulVec_θ h hlam, dotProduct_add, dotProduct_smul, dotProduct_smul,
      dotProduct_comm x s.φ, smul_eq_mul, smul_eq_mul]
  have hself : quad (e.step s).P⁻¹ (e.step s).θ =
      s.lam * ((e.step s).θ ⬝ᵥ e.P⁻¹ *ᵥ e.θ) + s.y * (s.φ ⬝ᵥ (e.step s).θ) :=
    hcross (e.step s).θ
  rw [quad_sub hW', quad_sub hW, quad_sub hW, hcross ϑ, hquad ϑ]
  linear_combination (-2) * hself + hquad (e.step s).θ

section Run

variable {s : ℕ → Sample ι 𝕜}

theorem Est.run_posDef (h : e.P.PosDef) (hlam : ∀ i, 0 < (s i).lam) (k : ℕ) :
    (e.run s k).P.PosDef := by
  induction k with
  | zero => exact h
  | succ k ih => exact step_posDef ih (hlam k)

/-- Along a run the cost is a weighted square around the current parameters, up
    to a constant. -/
theorem Est.run_cost (h : e.P.PosDef) (hlam : ∀ i, 0 < (s i).lam) (k : ℕ) :
    ∃ r, ∀ ϑ, cost e s k ϑ = quad (e.run s k).P⁻¹ (ϑ - (e.run s k).θ) + r := by
  induction k with
  | zero => exact ⟨0, fun ϑ => by simp [cost, run]⟩
  | succ k ih =>
    obtain ⟨r, hr⟩ := ih
    have hpos := run_posDef h hlam k
    have hstep := fun ϑ => step_cost hpos (hlam k) ϑ
    refine ⟨(s k).lam * quad (e.run s k).P⁻¹ ((e.run s (k + 1)).θ - (e.run s k).θ) +
      ((s k).y - (s k).φ ⬝ᵥ (e.run s (k + 1)).θ) ^ 2 + (s k).lam * r, fun ϑ => ?_⟩
    rw [cost_succ, hr, mul_add, add_right_comm, hstep, add_assoc]
    rfl

/-- The parameters of a run are the one minimiser of its cost. -/
theorem Est.run_isStrictMin (h : e.P.PosDef) (hlam : ∀ i, 0 < (s i).lam) (k : ℕ) :
    IsStrictMin (cost e s k) (e.run s k).θ := by
  intro ϑ hϑ
  obtain ⟨r, hr⟩ := run_cost h hlam k
  have hpos := quad_pos (posDef_inv_iff.mpr (run_posDef h hlam k)) (sub_ne_zero.mpr hϑ)
  rw [hr, hr, sub_self]
  simpa [quad] using hpos

end Run

/-! ## Consistent samples -/

omit [StarOrderedRing 𝕜] in
/-- On a sample of the true parameters the information-weighted error is only
    forgotten. -/
theorem Est.step_inv_mulVec_error (h : e.P.PosDef) (hlam : 0 < s.lam) {ϑ : ι → 𝕜}
    (hy : s.y = s.φ ⬝ᵥ ϑ) :
    (e.step s).P⁻¹ *ᵥ ((e.step s).θ - ϑ) = s.lam • (e.P⁻¹ *ᵥ (e.θ - ϑ)) := by
  rw [mulVec_sub, step_inv_mulVec_θ h hlam, step_P_inv h hlam, add_mulVec, smul_mulVec,
    vecMulVec_mulVec, mulVec_sub, smul_sub, hy]
  funext i
  simp only [Pi.sub_apply, Pi.smul_apply, Pi.add_apply, smul_eq_mul,
    MulOpposite.smul_eq_mul_unop, MulOpposite.unop_op]
  ring

/-- Lyapunov bound: the weighted error decreases by the forgetting factor. -/
theorem Est.step_error_le (h : e.P.PosDef) (hlam : 0 < s.lam) {ϑ : ι → 𝕜}
    (hy : s.y = s.φ ⬝ᵥ ϑ) :
    quad (e.step s).P⁻¹ ((e.step s).θ - ϑ) ≤ s.lam * quad e.P⁻¹ (e.θ - ϑ) := by
  have hcost := step_cost h hlam ϑ
  rw [hy, sub_self] at hcost
  have hneg : ∀ (W : Matrix ι ι 𝕜) (x z : ι → 𝕜), quad W (x - z) = quad W (z - x) :=
    fun W x z => by rw [← neg_sub z x, quad, mulVec_neg, neg_dotProduct_neg, quad]
  have hrest : 0 ≤ s.lam * quad e.P⁻¹ ((e.step s).θ - e.θ) :=
    mul_nonneg hlam.le (quad_nonneg (posDef_inv_iff.mpr h) _)
  have hsq := sq_nonneg (s.φ ⬝ᵥ ϑ - s.φ ⬝ᵥ (e.step s).θ)
  rw [hneg _ _ ϑ, hneg _ e.θ ϑ]
  linarith

/-! ## Growth of the covariance -/

/-- An update enlarges the covariance at most by the inverse factor. -/
theorem Est.quad_step_le (h : e.P.PosDef) (hlam : 0 < s.lam) (x : ι → 𝕜) :
    quad (e.step s).P x ≤ (1 / s.lam) * quad e.P x := by
  have hden : 0 < denom e.P s.φ s.lam := hlam.trans_le (le_denom h)
  have hsymm := isSymm_of_posDef h
  have hstep : quad (e.step s).P x = (1 / s.lam) *
      (quad e.P x - (1 / denom e.P s.φ s.lam) * (x ⬝ᵥ e.P *ᵥ s.φ) ^ 2) := by
    rw [Est.step, quad_smul, quad, ← mulVec_mulVec, sub_mulVec, one_mulVec, vecMulVec_mulVec,
      dotProduct_sub, dotProduct_mulVec_comm hsymm x s.φ]
    simp only [gain, dotProduct_smul, op_smul_eq_smul, smul_eq_mul, quad]
    rw [dotProduct_mulVec_comm hsymm x s.φ]
    ring
  rw [hstep]
  have hsub : 0 ≤ (1 / denom e.P s.φ s.lam) * (x ⬝ᵥ e.P *ᵥ s.φ) ^ 2 :=
    mul_nonneg (one_div_pos.mpr hden).le (sq_nonneg _)
  exact mul_le_mul_of_nonneg_left (by linarith) (one_div_pos.mpr hlam).le

omit [StarOrderedRing 𝕜] in
/-- A positive definite form below `b` has entries below `b`. -/
theorem abs_entry_le (h : W.PosDef) {b : 𝕜} (hb : ∀ x, quad W x ≤ b * (x ⬝ᵥ x)) (i j : ι) :
    |W i j| ≤ b := by
  have hsymm := isSymm_of_posDef h
  have hdiag : ∀ i, quad W (Pi.single i 1) = W i i := fun i => by simp [quad]
  have hle : ∀ i, W i i ≤ b := fun i => by
    have := hb (Pi.single i 1)
    rw [hdiag] at this
    simpa using this
  have hmixed : Pi.single i (1 : 𝕜) ⬝ᵥ W *ᵥ Pi.single j 1 = W i j := by simp
  have hminus : 0 ≤ W i i - 2 * W i j + W j j := by
    have := quad_nonneg h (Pi.single i 1 - Pi.single j 1)
    rwa [quad_sub hsymm, hdiag, hdiag, hmixed] at this
  have hplus : 0 ≤ W i i + 2 * W i j + W j j := by
    have := quad_nonneg h (Pi.single i 1 - -Pi.single j 1)
    rw [quad_sub hsymm, hdiag, mulVec_neg, dotProduct_neg, hmixed] at this
    rw [quad, mulVec_neg, neg_dotProduct_neg, ← quad, hdiag] at this
    linarith
  rw [abs_le]
  constructor
  · linarith [hle i, hle j]
  · linarith [hle i, hle j]

omit [StarOrderedRing 𝕜] in
/-- A gain vanishes only without excitation. -/
theorem gain_eq_zero_iff (h : P.PosDef) (hlam : 0 < lam) : gain P φ lam = 0 ↔ φ = 0 := by
  constructor
  · intro hg
    have hPφ : P *ᵥ φ = 0 := by
      rw [← denom_smul_gain (denom_ne_zero h hlam), hg, smul_zero]
    rw [← one_mulVec φ, ← inv_mul_posDef h, ← mulVec_mulVec, hPφ, mulVec_zero]
  · rintro rfl
    rw [gain, mulVec_zero, smul_zero]

omit [StarOrderedRing 𝕜] in
/-- The parameters stay exactly on a sample they predict, or without
    excitation. -/
theorem Est.step_θ_eq_iff (h : e.P.PosDef) (hlam : 0 < s.lam) :
    (e.step s).θ = e.θ ↔ s.y = s.φ ⬝ᵥ e.θ ∨ s.φ = 0 := by
  rw [Est.step, add_eq_left, smul_eq_zero, sub_eq_zero, gain_eq_zero_iff h hlam]

end Ordered

end LeastSquares
