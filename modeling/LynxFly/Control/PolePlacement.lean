-- SUMMARY: The self-tuning pole-placement controllers as a whole: model following, identification of a run, and fixed points.
import LynxFly.Control.Identification

/-! # Direct self-tuning pole placement, with and without integral action -/

open Estimator LeastSquares Polynomials Runs ControlFGR STCPP STCPPPID
open Finset Matrix

variable {M : ℕ} {na nb d : ℤ} {am1 am2 am3 : ℚ}

/-! ## A small configuration -/

/-- The struct for a plant of order two with one input zero and unit delay. -/
def PPCFFRELS.secondOrder (am1 am2 am3 : ℚ) : PPCFFRELS :=
  PPCFFRELS.init PPCFFRELS.ML_A default 2 1 1 am1 am2 am3

namespace PPCFFRELS

theorem secondOrder_configured :
    Configured ML_A 2 1 1 am1 am2 am3 (secondOrder am1 am2 am3) := init_configured

theorem secondOrder_degrees : Degrees 2 1 1 (secondOrder am1 am2 am3) :=
  secondOrder_configured.degrees le_rfl

theorem secondOrder_fits : (secondOrder am1 am2 am3).Fits ML_A := by
  have h : Degrees 2 1 1 (secondOrder am1 am2 am3) := secondOrder_degrees
  constructor
  · rw [h.NF]; norm_num
  · rw [h.NG]; norm_num
  · rw [h.ML]; norm_num [ML_A]
  · rw [h.NAA]; norm_num [ML_A]

theorem secondOrder_NA0 : (secondOrder am1 am2 am3).NA0 = 0 := secondOrder_degrees.NA0

theorem secondOrder_A0 : (secondOrder am1 am2 am3).arr .A0 0 = 1 := by
  have hcfg : Configured ML_A 2 1 1 am1 am2 am3 (secondOrder am1 am2 am3) := secondOrder_configured
  have h := hcfg.A0 le_rfl
    (by rw [secondOrder_NA0]; decide) (i := 0) (by decide)
  simpa [secondOrder_NA0, observer] using h

/-- With `A0 = 1` the coefficients of `AA` are those of `Am`. -/
theorem secondOrder_AA : (secondOrder am1 am2 am3).arr .AA 0 = am1 ∧
    (secondOrder am1 am2 am3).arr .AA 1 = am2 ∧ (secondOrder am1 am2 am3).arr .AA 2 = am3 := by
  have hcfg : Configured ML_A 2 1 1 am1 am2 am3 (secondOrder am1 am2 am3) := secondOrder_configured
  have h := fun i hi => hcfg.AA le_rfl
    secondOrder_NA0.ge (by rw [secondOrder_NA0]; decide) (i := i) hi
  have h0 := h 0 (by decide)
  have h1 := h 1 (by decide)
  have h2 := h 2 (by decide)
  simp only [secondOrder_NA0, observer, Int.toNat_zero, prod_range_zero, one_mul] at h0 h1 h2
  simp [Polynomial.coeff_X, Polynomial.coeff_C] at h0 h1 h2
  exact ⟨h0, h1, h2⟩

theorem secondOrder_thetae {j : ℕ} (hj : j < 4) :
    (secondOrder am1 am2 am3).arr .thetae j = 1 / 1000 :=
  init_thetae (show (j : ℤ) < (secondOrder am1 am2 am3).ML by rw [secondOrder_degrees.ML]; omega)

theorem secondOrder_posDef :
    (est (secondOrder am1 am2 am3).ML.toNat (secondOrder am1 am2 am3).arr).P.PosDef := by
  rw [secondOrder, est_init rfl]
  exact initial_posDef _

theorem secondOrder_guard : 1 / 100000 ≤ |(secondOrder am1 am2 am3).arr .thetae 0| := by
  have h : (secondOrder am1 am2 am3).arr .thetae 0 = 1 / 1000 :=
    secondOrder_thetae (j := 0) (by norm_num)
  rw [h]
  norm_num

end PPCFFRELS

/-- The struct for a plant of order two with one input zero and unit delay. -/
def CFFRELS.secondOrder (am1 am2 am3 : ℚ) : CFFRELS :=
  CFFRELS.init CFFRELS.ML_A default 2 1 1 am1 am2 am3

namespace CFFRELS

theorem secondOrder_configured :
    Configured ML_A 2 1 1 am1 am2 am3 (secondOrder am1 am2 am3) := init_configured

theorem secondOrder_degrees : Degrees 2 1 1 (secondOrder am1 am2 am3) :=
  secondOrder_configured.degrees le_rfl

theorem secondOrder_fits : (secondOrder am1 am2 am3).Fits ML_A := by
  have h : Degrees 2 1 1 (secondOrder am1 am2 am3) := secondOrder_degrees
  constructor
  · rw [h.NF1]; norm_num
  · rw [h.NG]; norm_num
  · rw [h.ML]; norm_num [ML_A]
  · rw [h.NAA]; norm_num [ML_A]

theorem secondOrder_NA0 : (secondOrder am1 am2 am3).NA0 = 0 := secondOrder_degrees.NA0

theorem secondOrder_A0 : (secondOrder am1 am2 am3).arr .A0 0 = 1 := by
  have hcfg : Configured ML_A 2 1 1 am1 am2 am3 (secondOrder am1 am2 am3) := secondOrder_configured
  have h := hcfg.A0 le_rfl
    (by rw [secondOrder_NA0]; decide) (i := 0) (by decide)
  simpa [secondOrder_NA0, observer] using h

/-- With `A0 = 1` the coefficients of `AA` are those of `Am`. -/
theorem secondOrder_AA : (secondOrder am1 am2 am3).arr .AA 0 = am1 ∧
    (secondOrder am1 am2 am3).arr .AA 1 = am2 ∧ (secondOrder am1 am2 am3).arr .AA 2 = am3 := by
  have hcfg : Configured ML_A 2 1 1 am1 am2 am3 (secondOrder am1 am2 am3) := secondOrder_configured
  have h := fun i hi => hcfg.AA le_rfl
    secondOrder_NA0.ge (by rw [secondOrder_NA0]; decide) (i := i) hi
  have h0 := h 0 (by decide)
  have h1 := h 1 (by decide)
  have h2 := h 2 (by decide)
  simp only [secondOrder_NA0, observer, Int.toNat_zero, prod_range_zero, one_mul] at h0 h1 h2
  simp [Polynomial.coeff_X, Polynomial.coeff_C] at h0 h1 h2
  exact ⟨h0, h1, h2⟩

theorem secondOrder_thetae {j : ℕ} (hj : j < 5) :
    (secondOrder am1 am2 am3).arr .thetae j = 1 / 1000 :=
  init_thetae (show (j : ℤ) < (secondOrder am1 am2 am3).ML by rw [secondOrder_degrees.ML]; omega)

theorem secondOrder_posDef :
    (est (secondOrder am1 am2 am3).ML.toNat (secondOrder am1 am2 am3).arr).P.PosDef := by
  rw [secondOrder, est_init rfl]
  exact initial_posDef _

theorem secondOrder_guard : 1 / 100000 ≤ |(secondOrder am1 am2 am3).arr .thetae 0| := by
  have h : (secondOrder am1 am2 am3).arr .thetae 0 = 1 / 1000 :=
    secondOrder_thetae (j := 0) (by norm_num)
  rw [h]
  norm_num

end CFFRELS

/-! ## Model following -/

/-- At every time whose plant equation and delayed input are those of the closed
    loop, the output follows the reference model: the poles are those of `AA`, and
    the reference enters through `Am(1)*A0`. -/
theorem closed_loop_follows_model (hd : 1 ≤ d) :
    (∀ r : PPCFFRELS, PPCFFRELS.Configured M na nb d am1 am2 am3 r → r.Fits M →
      1 / 100000 ≤ |r.arr .thetae 0| → ∀ (yr y u : ℤ → ℚ) (k : ℤ),
        STCPP.Plant r (fun j => r.arr .thetae j) y u k →
        u (k - r.D) = getControlSTCPP (r.clcFGR M) (fun i => yr (k - r.D - i))
          (fun i => y (k - r.D - i)) (fun i => u (k - r.D - i)) →
        ∑ i ∈ range (r.NAA + 1).toNat, r.arr .AA i * y (k - i) =
          (am1 + am2 + am3) *
            ∑ i ∈ range (r.NA0 + 1).toNat, r.arr .A0 i * yr (k - r.D - i)) ∧
    ∀ r : CFFRELS, CFFRELS.Configured M na nb d am1 am2 am3 r → r.Fits M →
      1 / 100000 ≤ |r.arr .thetae 0| → ∀ (yr y u : ℤ → ℚ) (k : ℤ),
        STCPPPID.Plant r (fun j => r.arr .thetae j) y u k →
        u (k - r.D) = getControlSTCPPPID (r.clcFGR M) (fun i => yr (k - r.D - i))
          (fun i => y (k - r.D - i)) (fun i => u (k - r.D - i)) →
        ∑ i ∈ range (r.NAA + 1).toNat, r.arr .AA i * y (k - i) =
          (am1 + am2 + am3) *
            ∑ i ∈ range (r.NA0 + 1).toNat, r.arr .A0 i * yr (k - r.D - i) :=
  ⟨fun _ h hfits hbe0 _ _ _ _ hplant hcontrol =>
      STCPP.plant_closed_loop h hd hfits hbe0 hplant hcontrol,
    fun _ h hfits hbe0 _ _ _ _ hplant hcontrol =>
      STCPPPID.plant_closed_loop h hd hfits hbe0 hplant hcontrol⟩

/-- With the parameters that `init` stores, constant signals close the loop at the
    reference `1`. -/
theorem PPCFFRELS.secondOrder_steady :
    let r := PPCFFRELS.secondOrder (3 / 1000) 0 0
    STCPP.Plant r (fun j => r.arr .thetae j) (fun _ => 1) (fun _ => 1 / 2) 0 ∧
      1 / 2 = getControlSTCPP (r.clcFGR ML_A) (fun _ => 1) (fun _ => 1) fun _ => 1 / 2 := by
  intro r
  have hdeg : Degrees 2 1 1 r := secondOrder_degrees
  have hguard : 1 / 100000 ≤ |r.arr .thetae 0| := secondOrder_guard
  obtain ⟨hAA0, hAA1, hAA2⟩ : r.arr .AA 0 = 3 / 1000 ∧ r.arr .AA 1 = 0 ∧ r.arr .AA 2 = 0 :=
    secondOrder_AA
  have hA0 : r.arr .A0 0 = 1 := secondOrder_A0
  have hθ : ∀ j : ℕ, j < 4 → r.arr .thetae j = 1 / 1000 := fun j => secondOrder_thetae
  have hθ0 : r.arr .thetae 0 = 1 / 1000 := hθ 0 (by norm_num)
  have hθ1 : r.arr .thetae 1 = 1 / 1000 := hθ 1 (by norm_num)
  have hθ2 : r.arr .thetae 2 = 1 / 1000 := hθ 2 (by norm_num)
  have hθ3 : r.arr .thetae 3 = 1 / 1000 := hθ 3 (by norm_num)
  have hNF : ((1 : ℤ) + 1 - 1 + 1).toNat = 2 := rfl
  have hNG : ((2 : ℤ) - 1 + 1).toNat = 2 := rfl
  constructor
  · rw [STCPP.Plant, hdeg.NAA, hdeg.NF, hdeg.NG, hNF, hNG,
      show ((2 : ℤ) * 2 - 1 - 1 + 1).toNat = 3 from rfl]
    norm_num [sum_range_succ, hAA0, hAA1, hAA2, hθ0, hθ1, hθ2, hθ3]
  · have hF1 : (r.clcFGR ML_A).arr .FE (1 : ℕ) = 1 := by
      rw [clcFGR_FE (by rw [hdeg.NF]; norm_num) (by rw [hdeg.NF, hdeg.ML]; norm_num),
        Nat.cast_one, hθ1, hθ0]
      norm_num
    have hG : ∀ i : ℕ, i < 2 → (r.clcFGR ML_A).arr .GE i = 1 := fun i hi => by
      rw [clcFGR_GE (by rw [hdeg.NF]; norm_num) (by rw [hdeg.NG]; omega) (by rw [hdeg.ML_eq]),
        hdeg.NF, show (1 + 1 - 1 + 1 + i : ℤ) = (2 + i : ℕ) by push_cast; ring,
        hθ _ (by omega), hθ0]
      norm_num
    have hR : (r.clcFGR ML_A).arr .R (0 : ℕ) = 3 := by
      rw [clcFGR_R (by decide), clampBE0_of_le hguard, hθ0, Nat.cast_zero, hA0,
        secondOrder_configured.sum_AM le_rfl]
      norm_num
    have hcfg : SameConfig r (r.clcFGR ML_A) := clcFGR_sameConfig
    simp only [getControlSTCPP]
    rw [controlFGR_eq, hcfg.NF, hcfg.NG, hcfg.NR, hdeg.NF, hdeg.NG, hdeg.NR, hNF, hNG,
      show ((2 : ℤ) * 2 - 1 - 3 + 1).toNat = 1 from rfl, sum_range_one, sum_range_one,
      sum_range_succ, sum_range_one, hR, hF1, hG 0 (by norm_num), hG 1 (by norm_num)]
    norm_num

/-- With integral action any constant input does. -/
theorem CFFRELS.secondOrder_steady :
    let r := CFFRELS.secondOrder (3 / 1000) 0 0
    STCPPPID.Plant r (fun j => r.arr .thetae j) (fun _ => 1) (fun _ => 1) 0 ∧
      1 = getControlSTCPPPID (r.clcFGR ML_A) (fun _ => 1) (fun _ => 1) fun _ => 1 := by
  intro r
  have hdeg : Degrees 2 1 1 r := secondOrder_degrees
  have hguard : 1 / 100000 ≤ |r.arr .thetae 0| := secondOrder_guard
  obtain ⟨hAA0, hAA1, hAA2⟩ : r.arr .AA 0 = 3 / 1000 ∧ r.arr .AA 1 = 0 ∧ r.arr .AA 2 = 0 :=
    secondOrder_AA
  have hA0 : r.arr .A0 0 = 1 := secondOrder_A0
  have hθ : ∀ j : ℕ, j < 5 → r.arr .thetae j = 1 / 1000 := fun j => secondOrder_thetae
  have hθ0 : r.arr .thetae 0 = 1 / 1000 := hθ 0 (by norm_num)
  have hθ2 : r.arr .thetae 2 = 1 / 1000 := hθ 2 (by norm_num)
  have hθ3 : r.arr .thetae 3 = 1 / 1000 := hθ 3 (by norm_num)
  have hθ4 : r.arr .thetae 4 = 1 / 1000 := hθ 4 (by norm_num)
  have hNF1 : ((1 : ℤ) + 1 - 1 + 1).toNat = 2 := rfl
  have hNG : ((2 : ℤ) + 1).toNat = 3 := rfl
  constructor
  · rw [STCPPPID.Plant, hdeg.NAA, hdeg.NF1, hdeg.NG, hNF1, hNG,
      show ((2 : ℤ) * 2 - 1 - 1 + 1).toNat = 3 from rfl]
    norm_num [sum_range_succ, hAA0, hAA1, hAA2, hθ2, hθ3, hθ4]
  · have hFE := @clcFGR_FE ML_A r (by rw [hdeg.NF1]; norm_num)
      (by rw [hdeg.NF1]; decide)
    rw [hdeg.NF1, hNF1, show ((1 : ℤ) + 1 - 1 + 2).toNat = 3 from rfl] at hFE
    have hF0 := integrated_zero hFE (by norm_num) (by norm_num)
    have hsum := sum_integrated hFE (fun _ => 1) 0
    simp only [LibMyMath.coeffs_apply, sub_self, mul_zero, sum_const_zero] at hF0 hsum
    rw [clcFGR_F1E (by rw [hdeg.NF1]; norm_num) (by rw [hdeg.NF1, hdeg.ML]; norm_num),
      Nat.cast_zero, hθ0] at hF0
    have hG : ∀ i : ℕ, i < 3 → (r.clcFGR ML_A).arr .GE i = 1 := fun i hi => by
      rw [clcFGR_GE (by rw [hdeg.NF1]; norm_num) (by rw [hdeg.NG]; omega) (by rw [hdeg.ML_eq]),
        hdeg.NF1, show (1 + 1 - 1 + 1 + i : ℤ) = (2 + i : ℕ) by push_cast; ring,
        hθ _ (by omega), hθ0]
      norm_num
    have hR : (r.clcFGR ML_A).arr .R (0 : ℕ) = 3 := by
      rw [clcFGR_R (by decide), clampBE0_of_le hguard, hθ0, Nat.cast_zero, hA0,
        secondOrder_configured.sum_AM le_rfl]
      norm_num
    have hcfg : SameConfig r (r.clcFGR ML_A) := clcFGR_sameConfig
    rw [sum_range_succ', Nat.cast_zero, hF0] at hsum
    have hGsum : ∑ i ∈ range 3, (r.clcFGR ML_A).arr .GE i * 1 = 3 := by
      rw [sum_range_succ, sum_range_succ, sum_range_one, hG 0 (by norm_num),
        hG 1 (by norm_num), hG 2 (by norm_num)]
      norm_num
    simp only [getControlSTCPPPID]
    rw [controlFGR_eq, hcfg.NF, hcfg.NG, hcfg.NR, hdeg.NF, hdeg.NG, hdeg.NR, hNG, hGsum,
      show ((1 : ℤ) + 1 + 1).toNat - 1 = 2 from rfl,
      show ((2 : ℤ) * 2 - 1 - 3 + 1).toNat = 1 from rfl, sum_range_one, hR]
    linarith

theorem closed_loop_follows_model_steady :
    let r := PPCFFRELS.secondOrder (3 / 1000) 0 0
    let r' := CFFRELS.secondOrder (3 / 1000) 0 0
    ∑ i ∈ range (r.NAA + 1).toNat, r.arr .AA i * 1 =
        (3 / 1000 + 0 + 0) * ∑ i ∈ range (r.NA0 + 1).toNat, r.arr .A0 i * 1 ∧
      ∑ i ∈ range (r'.NAA + 1).toNat, r'.arr .AA i * 1 =
        (3 / 1000 + 0 + 0) * ∑ i ∈ range (r'.NA0 + 1).toNat, r'.arr .A0 i * 1 := by
  intro r r'
  obtain ⟨hPP, hCFF⟩ := @closed_loop_follows_model 10 2 1 1 (3 / 1000) 0 0 le_rfl
  obtain ⟨hplant, hcontrol⟩ := PPCFFRELS.secondOrder_steady
  obtain ⟨hplant', hcontrol'⟩ := CFFRELS.secondOrder_steady
  exact ⟨hPP r PPCFFRELS.secondOrder_configured PPCFFRELS.secondOrder_fits
      PPCFFRELS.secondOrder_guard (fun _ => 1) (fun _ => 1) (fun _ => 1 / 2) 0 hplant hcontrol,
    hCFF r' CFFRELS.secondOrder_configured CFFRELS.secondOrder_fits
      CFFRELS.secondOrder_guard (fun _ => 1) (fun _ => 1) (fun _ => 1) 0 hplant' hcontrol'⟩

/-! ## Identification along a run -/

/-- Whatever the unfiltered slots hold, the regressor of every update of a run
    predicts the current output from the parameters of the plant. -/
theorem regressor_predicts_output {am2 am3 : ℚ} (hd : 1 ≤ d) :
    (∀ r : PPCFFRELS, PPCFFRELS.Configured M na nb d 1 am2 am3 r → r.Fits M → 0 ≤ r.NA0 →
      ∀ (theta : ℕ → ℚ) (y u : ℤ → ℚ) (x : ℕ → Sampling), (∀ k < 0, y k = 0) →
        (∀ k < 0, u k = 0) → (∀ k : ℕ, (x k).y = y k) → (∀ k : ℕ, (x k).u = u k) →
        (∀ k, 0 ≤ k → STCPP.Plant r theta y u k) →
        ∀ k : ℕ, phie r.ML.toNat (run (Caller.step PPCFFRELS.D (updateSTCPP M)) (Caller.start r) x
          (k + 1)).cffrelsIn.arr ⬝ᵥ (fun i => theta i) = y k) ∧
    ∀ r : CFFRELS, CFFRELS.Configured M na nb d 1 am2 am3 r → r.Fits M → 0 ≤ r.NA0 →
      ∀ (theta : ℕ → ℚ) (y u : ℤ → ℚ) (x : ℕ → Sampling), (∀ k < 0, y k = 0) →
        (∀ k < 0, u k = 0) → (∀ k : ℕ, (x k).y = y k) → (∀ k : ℕ, (x k).u = u k) →
        (∀ k, 0 ≤ k → STCPPPID.Plant r theta y u k) →
        ∀ k : ℕ, phie r.ML.toNat (run (Caller.step CFFRELS.D (updateSTCPPPID M)) (Caller.start r) x
          (k + 1)).cffrelsIn.arr ⬝ᵥ (fun i => theta i) = y k :=
  ⟨fun _ h hfits hNA0 _ _ _ _ hy hu hxy hxu hplant =>
      STCPP.phie_run h hd hfits hNA0 rfl hy hu hxy hxu hplant,
    fun _ h hfits hNA0 _ _ _ _ hy hu hxy hxu hplant =>
      STCPPPID.phie_run h hd hfits hNA0 rfl hy hu hxy hxu hplant⟩

/-- A unit step of the input on a pure delay, resp. a pure delay with an integrator
    cancelled, with rubbish in the unfiltered slots: the output of time `1`. -/
theorem regressor_predicts_output_delay :
    let r := PPCFFRELS.secondOrder 1 0 0
    let r' := CFFRELS.secondOrder 1 0 0
    let theta := fun j : ℕ => if j = 0 then (1 : ℚ) else 0
    let u := fun k : ℤ => if 0 ≤ k then (1 : ℚ) else 0
    let x := fun k : ℕ => Sampling.mk (u (k - 1)) (u k) (fun _ => 7) (fun _ => 7) fun _ => 7
    let x' := fun k : ℕ => Sampling.mk (u (k - 1) - u (k - 2)) (u k) (fun _ => 7) (fun _ => 7)
      fun _ => 7
    phie r.ML.toNat (run (Caller.step PPCFFRELS.D (updateSTCPP PPCFFRELS.ML_A)) (Caller.start r) x
        2).cffrelsIn.arr ⬝ᵥ (fun i => theta i) = 1 ∧
      phie r'.ML.toNat (run (Caller.step CFFRELS.D (updateSTCPPPID CFFRELS.ML_A))
        (Caller.start r') x' 2).cffrelsIn.arr ⬝ᵥ (fun i => theta i) = 1 := by
  intro r r' theta u x x'
  have hdeg : PPCFFRELS.Degrees 2 1 1 r := PPCFFRELS.secondOrder_degrees
  have hdeg' : CFFRELS.Degrees 2 1 1 r' := CFFRELS.secondOrder_degrees
  have hu : ∀ k < 0, u k = 0 := fun k hk => if_neg (by omega)
  obtain ⟨hPP, hCFF⟩ := @regressor_predicts_output 10 2 1 1 0 0 le_rfl
  constructor
  · have hpredict := hPP r PPCFFRELS.secondOrder_configured PPCFFRELS.secondOrder_fits
      PPCFFRELS.secondOrder_NA0.ge theta (fun k => u (k - 1)) u x (fun k hk => hu _ (by omega)) hu
      (fun _ => rfl) (fun _ => rfl) (fun k _ => by
        obtain ⟨hAA0, hAA1, hAA2⟩ : r.arr .AA 0 = 1 ∧ r.arr .AA 1 = 0 ∧ r.arr .AA 2 = 0 :=
          PPCFFRELS.secondOrder_AA
        rw [STCPP.Plant, hdeg.NAA, hdeg.NF, hdeg.NG, hdeg.D,
          show ((2 : ℤ) * 2 - 1 - 1 + 1).toNat = 3 from rfl,
          show ((1 : ℤ) + 1 - 1 + 1).toNat = 2 from rfl, show ((2 : ℤ) - 1 + 1).toNat = 2 from rfl]
        simp [sum_range_succ, hAA0, hAA1, hAA2, theta]) 1
    rwa [show u ((1 : ℕ) - 1) = 1 from if_pos (by norm_num)] at hpredict
  · have hpredict := hCFF r' CFFRELS.secondOrder_configured CFFRELS.secondOrder_fits
      CFFRELS.secondOrder_NA0.ge theta (fun k => u (k - 1) - u (k - 2)) u x'
      (fun k hk => by rw [hu _ (by omega), hu _ (by omega), sub_zero]) hu
      (fun _ => rfl) (fun _ => rfl) (fun k _ => by
        obtain ⟨hAA0, hAA1, hAA2⟩ : r'.arr .AA 0 = 1 ∧ r'.arr .AA 1 = 0 ∧ r'.arr .AA 2 = 0 :=
          CFFRELS.secondOrder_AA
        rw [STCPPPID.Plant, hdeg'.NAA, hdeg'.NF1, hdeg'.NG, hdeg'.D,
          show ((2 : ℤ) * 2 - 1 - 1 + 1).toNat = 3 from rfl,
          show ((1 : ℤ) + 1 - 1 + 1).toNat = 2 from rfl, show ((2 : ℤ) + 1).toNat = 3 from rfl]
        simp [sum_range_succ, hAA0, hAA1, hAA2, theta, sub_sub, one_add_one_eq_two]) 1
    rwa [show u ((1 : ℕ) - 1) - u ((1 : ℕ) - 2) = 1 by simp [u]] at hpredict

/-! ## Fixed points of the identification -/

/-- The true parameters are kept exactly when the filtered output of the current
    time equals the raw one, or the regressor is zero. -/
theorem parameters_kept_iff {am2 am3 : ℚ} (hd : 1 ≤ d) :
    (∀ r : PPCFFRELS, PPCFFRELS.Configured M na nb d 1 am2 am3 r → r.Fits M →
      ∀ (theta : Fin r.ML.toNat → ℚ) (CDataYFK CDataUFK CDataYE CDataU : ℤ → ℚ),
        (est r.ML.toNat r.arr).P.PosDef → (est r.ML.toNat r.arr).θ = theta →
        FilteredBy (r.arr .AA) r.NAA CDataYFK CDataYE →
        FilteredBy (r.arr .AA) r.NAA CDataUFK CDataU →
        phie r.ML.toNat (updateSTCPP M r CDataYFK CDataUFK CDataYE CDataU).1.arr ⬝ᵥ theta =
          CDataYE 0 →
        ((est r.ML.toNat (updateSTCPP M r CDataYFK CDataUFK CDataYE CDataU).1.arr).θ = theta ↔
          CDataYFK 0 = CDataYE 0 ∨ Quiet (r.arr .AA 0) r.D r.NF r.NG CDataYFK CDataUFK)) ∧
    ∀ r : CFFRELS, CFFRELS.Configured M na nb d 1 am2 am3 r → r.Fits M →
      ∀ (theta : Fin r.ML.toNat → ℚ) (CDataYFK CDataUFK CDataYE CDataU : ℤ → ℚ),
        (est r.ML.toNat r.arr).P.PosDef → (est r.ML.toNat r.arr).θ = theta →
        FilteredBy (r.arr .AA) r.NAA CDataYFK CDataYE →
        FilteredBy (r.arr .AA) r.NAA CDataUFK (fun i => CDataU i - CDataU (i + 1)) →
        phie r.ML.toNat (updateSTCPPPID M r CDataYFK CDataUFK CDataYE CDataU).1.arr ⬝ᵥ theta =
          CDataYE 0 →
        ((est r.ML.toNat (updateSTCPPPID M r CDataYFK CDataUFK CDataYE CDataU).1.arr).θ = theta ↔
          CDataYFK 0 = CDataYE 0 ∨ Quiet (r.arr .AA 0) r.D r.NF1 r.NG CDataYFK CDataUFK) := by
  refine ⟨fun r h hfits theta _ _ _ _ hP hθ hYFK hUFK hy => ?_,
    fun r h hfits theta _ _ _ _ hP hθ hYFK hUFK hy => ?_⟩
  · subst hθ
    exact STCPP.updateSTCPP_θ_eq_iff h hd hfits rfl hP hYFK hUFK hy
  · subst hθ
    exact STCPPPID.updateSTCPPPID_θ_eq_iff h hd hfits rfl hP hYFK hUFK hy

/-- Outputs at rest until two steps ago, then a jump of the filtered sequence. -/
def jump (now before : ℚ) (twoBefore : ℚ) : ℤ → ℚ := fun i =>
  if i = 0 then now else if i = 1 then before else if i = 2 then twoBefore else 0

section Jump

variable {CDataYFK : ℤ → ℚ}

theorem filteredBy_zero {AA : ℤ → ℚ} {NAA : ℤ} : FilteredBy AA NAA (fun _ => 0) fun _ => 0 :=
  fun _ => by simp

/-- For `AA = 1 - q⁻¹/2` the raw sequence is the filtered one less half its past. -/
theorem PPCFFRELS.secondOrder_filteredBy :
    FilteredBy ((secondOrder 1 (-1 / 2) 0).arr .AA) (secondOrder 1 (-1 / 2) 0).NAA CDataYFK
      fun i => CDataYFK i - 1 / 2 * CDataYFK (i + 1) := fun i => by
  obtain ⟨hAA0, hAA1, hAA2⟩ := @secondOrder_AA 1 (-1 / 2) 0
  rw [secondOrder_degrees.NAA, show ((2 : ℤ) * 2 - 1 - 1 + 1).toNat = 3 from rfl]
  simp [sum_range_succ, hAA0, hAA1, hAA2]
  ring

theorem CFFRELS.secondOrder_filteredBy :
    FilteredBy ((secondOrder 1 (-1 / 2) 0).arr .AA) (secondOrder 1 (-1 / 2) 0).NAA CDataYFK
      fun i => CDataYFK i - 1 / 2 * CDataYFK (i + 1) := fun i => by
  obtain ⟨hAA0, hAA1, hAA2⟩ := @secondOrder_AA 1 (-1 / 2) 0
  rw [secondOrder_degrees.NAA, show ((2 : ℤ) * 2 - 1 - 1 + 1).toNat = 3 from rfl]
  simp [sum_range_succ, hAA0, hAA1, hAA2]
  ring

/-- Without input, what the stored parameters predict. -/
theorem PPCFFRELS.secondOrder_predicts :
    let r := secondOrder 1 (-1 / 2) 0
    phie r.ML.toNat (updateSTCPP ML_A r CDataYFK (fun _ => 0)
        (fun i => CDataYFK i - 1 / 2 * CDataYFK (i + 1)) fun _ => 0).1.arr ⬝ᵥ
      (est r.ML.toNat r.arr).θ = 1 / 1000 * CDataYFK 1 + 1 / 1000 * CDataYFK 2 := by
  intro r
  have h : Configured ML_A 2 1 1 1 (-1 / 2) 0 r := secondOrder_configured
  have hfits : r.Fits ML_A := secondOrder_fits
  have hdeg : Degrees 2 1 1 r := secondOrder_degrees
  have hAA0 : r.arr .AA 0 = 1 := secondOrder_AA.1
  have hθ : ∀ j : ℕ, j < 4 → r.arr .thetae j = 1 / 1000 := fun j => secondOrder_thetae
  have hYE : FilteredBy (r.arr .AA) r.NAA CDataYFK fun i => CDataYFK i - 1 / 2 * CDataYFK (i + 1) :=
    secondOrder_filteredBy
  clear_value r
  refine (STCPP.phie_updateSTCPP (M := ML_A) h le_rfl hfits rfl hYE filteredBy_zero
    fun j => r.arr .thetae j).trans ?_
  rw [hdeg.NF, hdeg.NG, hdeg.D, show ((1 : ℤ) + 1 - 1 + 1).toNat = 2 from rfl,
    show ((2 : ℤ) - 1 + 1).toNat = 2 from rfl, hAA0]
  simp only [one_mul, Function.update_eq_self, mul_zero, sum_const_zero, zero_add]
  rw [sum_range_succ, sum_range_one, hθ _ (by norm_num), hθ _ (by norm_num)]
  norm_num

theorem CFFRELS.secondOrder_predicts :
    let r := secondOrder 1 (-1 / 2) 0
    phie r.ML.toNat (updateSTCPPPID ML_A r CDataYFK (fun _ => 0)
        (fun i => CDataYFK i - 1 / 2 * CDataYFK (i + 1)) fun _ => 0).1.arr ⬝ᵥ
      (est r.ML.toNat r.arr).θ =
        1 / 1000 * CDataYFK 1 + 1 / 1000 * CDataYFK 2 + 1 / 1000 * CDataYFK 3 := by
  intro r
  have h : Configured ML_A 2 1 1 1 (-1 / 2) 0 r := secondOrder_configured
  have hfits : r.Fits ML_A := secondOrder_fits
  have hdeg : Degrees 2 1 1 r := secondOrder_degrees
  have hAA0 : r.arr .AA 0 = 1 := secondOrder_AA.1
  have hθ : ∀ j : ℕ, j < 5 → r.arr .thetae j = 1 / 1000 := fun j => secondOrder_thetae
  have hYE : FilteredBy (r.arr .AA) r.NAA CDataYFK fun i => CDataYFK i - 1 / 2 * CDataYFK (i + 1) :=
    secondOrder_filteredBy
  clear_value r
  refine (STCPPPID.phie_updateSTCPPPID (M := ML_A) h le_rfl hfits rfl hYE
    (by simpa using filteredBy_zero) fun j => r.arr .thetae j).trans ?_
  rw [hdeg.NF1, hdeg.NG, hdeg.D, show ((1 : ℤ) + 1 - 1 + 1).toNat = 2 from rfl,
    show ((2 : ℤ) + 1).toNat = 3 from rfl, hAA0]
  simp only [one_mul, Function.update_eq_self, mul_zero, sum_const_zero, zero_add]
  rw [sum_range_succ, sum_range_succ, sum_range_one, hθ _ (by norm_num), hθ _ (by norm_num),
    hθ _ (by norm_num)]
  norm_num

end Jump

/-- Where the past of the filtered output cancels, the parameters are kept although
    the regressor is not zero. -/
theorem parameters_kept_iff_cancelled :
    let r := PPCFFRELS.secondOrder 1 (-1 / 2) 0
    let r' := CFFRELS.secondOrder 1 (-1 / 2) 0
    let YE := fun i => jump 1 0 1000 i - 1 / 2 * jump 1 0 1000 (i + 1)
    (est r.ML.toNat (updateSTCPP PPCFFRELS.ML_A r (jump 1 0 1000) (fun _ => 0) YE
        fun _ => 0).1.arr).θ = (est r.ML.toNat r.arr).θ ∧
      (est r'.ML.toNat (updateSTCPPPID CFFRELS.ML_A r' (jump 1 0 1000) (fun _ => 0) YE
        fun _ => 0).1.arr).θ = (est r'.ML.toNat r'.arr).θ := by
  intro r r' YE
  obtain ⟨hPP, hCFF⟩ := @parameters_kept_iff 10 2 1 1 (-1 / 2) 0 le_rfl
  constructor
  · exact (hPP r PPCFFRELS.secondOrder_configured PPCFFRELS.secondOrder_fits _ (jump 1 0 1000)
      (fun _ => 0) YE (fun _ => 0) PPCFFRELS.secondOrder_posDef rfl
      PPCFFRELS.secondOrder_filteredBy filteredBy_zero
      (PPCFFRELS.secondOrder_predicts.trans (by norm_num [jump, YE]))).2
        (.inl (by norm_num [jump, YE]))
  · exact (hCFF r' CFFRELS.secondOrder_configured CFFRELS.secondOrder_fits _ (jump 1 0 1000)
      (fun _ => 0) YE (fun _ => 0) CFFRELS.secondOrder_posDef rfl
      CFFRELS.secondOrder_filteredBy (by simpa using filteredBy_zero)
      (CFFRELS.secondOrder_predicts.trans (by norm_num [jump, YE]))).2
        (.inl (by norm_num [jump, YE]))

/-- In general they are not: here the raw output is the predicted `1`, the filtered
    one is `501`, and the innovation is `500`. -/
theorem parameters_not_kept :
    let r := PPCFFRELS.secondOrder 1 (-1 / 2) 0
    let YE := fun i => jump 501 1000 0 i - 1 / 2 * jump 501 1000 0 (i + 1)
    (est r.ML.toNat r.arr).P.PosDef ∧ FilteredBy (r.arr .AA) r.NAA (jump 501 1000 0) YE ∧
      FilteredBy (r.arr .AA) r.NAA (fun _ => 0) (fun _ => 0) ∧
      phie r.ML.toNat (updateSTCPP PPCFFRELS.ML_A r (jump 501 1000 0) (fun _ => 0) YE
        fun _ => 0).1.arr ⬝ᵥ (est r.ML.toNat r.arr).θ = YE 0 ∧
      (est r.ML.toNat (updateSTCPP PPCFFRELS.ML_A r (jump 501 1000 0) (fun _ => 0) YE
        fun _ => 0).1.arr).θ ≠ (est r.ML.toNat r.arr).θ := by
  intro r YE
  have hP : (est r.ML.toNat r.arr).P.PosDef := PPCFFRELS.secondOrder_posDef
  have hYE : FilteredBy (r.arr .AA) r.NAA (jump 501 1000 0) YE := PPCFFRELS.secondOrder_filteredBy
  have hy : phie r.ML.toNat (updateSTCPP PPCFFRELS.ML_A r (jump 501 1000 0) (fun _ => 0) YE
      fun _ => 0).1.arr ⬝ᵥ (est r.ML.toNat r.arr).θ = YE 0 :=
    PPCFFRELS.secondOrder_predicts.trans (by norm_num [jump, YE])
  refine ⟨hP, hYE, filteredBy_zero, hy, fun hkept => ?_⟩
  rcases (STCPP.updateSTCPP_θ_eq_iff PPCFFRELS.secondOrder_configured le_rfl
    PPCFFRELS.secondOrder_fits rfl hP hYE filteredBy_zero hy).1 hkept with hsample | hquiet
  · norm_num [jump, YE] at hsample
  · have hyfk := hquiet.yfk_D
    rw [PPCFFRELS.secondOrder_degrees.D, PPCFFRELS.secondOrder_AA.1] at hyfk
    norm_num [jump] at hyfk
