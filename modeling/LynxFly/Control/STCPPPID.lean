-- SUMMARY: The direct self-tuning pole-placement PID controller of STC_PP_PID.c: closed loop, regressor of a run, and fixed points.
import LynxFly.Control.AAFilter
import LynxFly.Control.CFFRELS

/-!
# STC_PP_PID.c

The variant of `STC_PP.c` with integral action: what is filtered is the increment
of the input, and `F` contains the factor `1 - q⁻¹`.
-/

open Buffers Buffers.Prog Estimator Polynomials LeastSquares ShiftPoly DelayLine Runs ControlFGR
open LibMyMath
open Finset Matrix

namespace STCPPPID

/-- `updateSTCFilterOnly`. -/
def updateSTCFilterOnly (cffrelsIn : CFFRELS) (CDataYFK CDataUFK CDataYE CDataU : ℤ → ℚ) :
    Filtered :=
  let tmpFSumAAuf := sumAA (cffrelsIn.arr .AA) cffrelsIn.NAA cffrelsIn.D CDataUFK
  -- deltaF*uk(d:d+ndf)
  let tmpFSumFu := 0
  let tmpFSumFu := tmpFSumFu + 1 * CDataU cffrelsIn.D
  let tmpFSumFu := tmpFSumFu + -1 * CDataU (cffrelsIn.D + 1)
  let tmpFSumAAyf := sumAA (cffrelsIn.arr .AA) cffrelsIn.NAA cffrelsIn.D CDataYFK
  let tmpFSumY := CDataYE cffrelsIn.D
  { CDataUFK := Function.update CDataUFK cffrelsIn.D (tmpFSumAAuf + tmpFSumFu)
    CDataYFK := Function.update CDataYFK cffrelsIn.D (tmpFSumAAyf + tmpFSumY) }

/-- `updateSTCPPPID`. -/
def updateSTCPPPID (M : ℕ) (cffrelsIn : CFFRELS) (CDataYFK CDataUFK CDataYE CDataU : ℤ → ℚ) :
    CFFRELS × Filtered :=
  let fk := updateSTCFilterOnly cffrelsIn CDataYFK CDataUFK CDataYE CDataU
  (cffrelsIn.update M fk.CDataYFK fk.CDataUFK (995 / 1000), fk)

/-- `getControlSTCPPPID`. -/
def getControlSTCPPPID (cffrelsIn : CFFRELS) (CDataYr CDataY CDataU : ℤ → ℚ) : ℚ :=
  let tmpOut := controlFGR CDataYr CDataY CDataU (cffrelsIn.arr .FE) (cffrelsIn.NF + 1)
    (cffrelsIn.arr .GE) (cffrelsIn.NG + 1) (cffrelsIn.arr .R) (cffrelsIn.NR + 1)
  tmpOut

variable {M n : ℕ} {r : CFFRELS} {na nb d : ℤ} {am1 am2 am3 : ℚ}
variable {CDataYFK CDataUFK CDataYE CDataU : ℤ → ℚ}

/-! ## The closed loop -/

/-- The plant, at time `k`, whose parameters are `theta`, whose denominator is
    the `AA` of the struct, and whose input acts through its increments. -/
def Plant (r : CFFRELS) (theta : ℕ → ℚ) (y u : ℤ → ℚ) (k : ℤ) : Prop :=
  ∑ i ∈ range (r.NAA + 1).toNat, r.arr .AA i * y (k - i) =
    ∑ j ∈ range (r.NF1 + 1).toNat, theta j * (u (k - r.D - j) - u (k - r.D - j - 1)) +
      ∑ j ∈ range (r.NG + 1).toNat, theta ((r.NF1 + 1).toNat + j) * y (k - r.D - j)

/-- Coefficients multiplied by `1 - q⁻¹` act as the others do on increments. -/
theorem sum_integrated {f g : ℕ → ℚ} {n m : ℕ}
    (h : ofCoeffs m f = ofCoeffs n g * (1 - Polynomial.X)) (u : ℤ → ℚ) (k : ℤ) :
    ∑ i ∈ range m, f i * u (k - i) = ∑ j ∈ range n, g j * (u (k - j) - u (k - j - 1)) := by
  have hincrement : act (1 - Polynomial.X) u = fun k => u k - u (k - 1) := by
    simp only [act, map_sub, map_one, Polynomial.aeval_X]
    rfl
  rw [← act_ofCoeffs_apply, h, act_mul, hincrement, act_ofCoeffs_apply]

theorem integrated_zero {f g : ℕ → ℚ} {n m : ℕ}
    (h : ofCoeffs m f = ofCoeffs n g * (1 - Polynomial.X)) (hm : 0 < m) (hn : 0 < n) :
    f 0 = g 0 := by
  have hcoeff : (ofCoeffs m f).coeff 0 = (ofCoeffs n g * (1 - Polynomial.X)).coeff 0 := by rw [h]
  rw [Polynomial.mul_coeff_zero, coeff_ofCoeffs, coeff_ofCoeffs, if_pos hm, if_pos hn] at hcoeff
  simpa using hcoeff

theorem fits_FE (h : CFFRELS.Configured M na nb d am1 am2 am3 r) (hd : 1 ≤ d)
    (hfits : r.Fits M) : r.NF1 + 1 < M := by
  have hML := hfits.ML
  rw [(h.degrees hd).ML_eq] at hML
  have hNG := hfits.NG
  omega

section ClosedLoop

variable (h : CFFRELS.Configured M na nb d am1 am2 am3 r) (hd : 1 ≤ d) (hfits : r.Fits M)
variable (hbe0 : 1 / 100000 ≤ |r.arr .thetae 0|)

include h hd hfits hbe0

theorem thetae_eq_mul_F1E {j : ℕ} (hj : j < r.NF1 + 1) :
    r.arr .thetae j = r.arr .thetae 0 * (r.clcFGR M).arr .F1E j := by
  have hdeg := h.degrees hd
  have hb := ne_zero_of_guard hbe0
  have hNG := hfits.NG
  rw [CFFRELS.clcFGR_F1E hj (by rw [hdeg.ML_eq]; omega)]
  field_simp

theorem thetae_eq_mul_GE {j : ℕ} (hj : j < r.NG + 1) :
    r.arr .thetae ((r.NF1 + 1).toNat + j : ℕ) =
      r.arr .thetae 0 * (r.clcFGR M).arr .GE j := by
  have hdeg := h.degrees hd
  have hb := ne_zero_of_guard hbe0
  have hNF := hfits.NF1
  rw [CFFRELS.clcFGR_GE (by omega) hj hdeg.ML_eq.ge, Nat.cast_add,
    Int.toNat_of_nonneg (by omega)]
  field_simp

theorem mul_R_eq {i : ℕ} (hi : i < r.NA0 + 1) :
    r.arr .thetae 0 * (r.clcFGR M).arr .R i = (am1 + am2 + am3) * r.arr .A0 i := by
  have hb := ne_zero_of_guard hbe0
  have hNAA := hfits.NAA
  rw [(h.degrees hd).NAA_eq] at hNAA
  rw [CFFRELS.clcFGR_R (by omega), clampBE0_of_le hbe0, h.sum_AM hd]
  field_simp

/-- The control law, closed around the plant it was computed from, makes the
    output follow the reference model. -/
theorem plant_closed_loop {yr y u : ℤ → ℚ} {k : ℤ}
    (hplant : Plant r (fun j => r.arr .thetae j) y u k)
    (hcontrol : u (k - r.D) = getControlSTCPPPID (r.clcFGR M) (fun i => yr (k - r.D - i))
      (fun i => y (k - r.D - i)) (fun i => u (k - r.D - i))) :
    ∑ i ∈ range (r.NAA + 1).toNat, r.arr .AA i * y (k - i) =
      (am1 + am2 + am3) * ∑ i ∈ range (r.NA0 + 1).toNat, r.arr .A0 i * yr (k - r.D - i) := by
  have hcfg : CFFRELS.SameConfig r (r.clcFGR M) := CFFRELS.clcFGR_sameConfig
  have hNF := (h.degrees hd).NF_eq
  have hNF1 := hfits.NF1
  have hFE := @CFFRELS.clcFGR_FE M r (by omega) (fits_FE h hd hfits)
  have hmonic : (r.clcFGR M).arr .FE 0 = 1 := by
    have hzero := thetae_eq_mul_F1E h hd hfits hbe0 (j := 0) (by omega)
    rw [Nat.cast_zero] at hzero
    have hlead := integrated_zero hFE (by omega) (by omega)
    rw [coeffs_apply, coeffs_apply, Nat.cast_zero] at hlead
    rw [hlead]
    exact mul_left_cancel₀ (ne_zero_of_guard hbe0) (by rw [← hzero, mul_one])
  simp only [getControlSTCPPPID] at hcontrol
  have hloop := controlFGR_closes (by rw [hcfg.NF]; omega) hmonic hcontrol
  rw [hcfg.NF, hcfg.NG, hcfg.NR, (h.degrees hd).NR_eq, show r.NF + 1 = r.NF1 + 2 by omega] at hloop
  have hincrements := sum_integrated hFE u (k - r.D)
  simp only [coeffs_apply] at hincrements
  rw [hincrements] at hloop
  rw [hplant]
  exact plant_eq_of_controller (fun j hj => thetae_eq_mul_F1E h hd hfits hbe0 (by omega))
    (fun j hj => thetae_eq_mul_GE h hd hfits hbe0 (by omega))
    (fun i hi => mul_R_eq h hd hfits hbe0 (by omega)) hloop

end ClosedLoop

/-! ## The regressor of a run -/

section Regressor

theorem increment_eq (a b : ℚ) : 0 + 1 * a + -1 * b = a - b := by ring

theorem filtersBy_updateSTCPPPID :
    Caller.FiltersBy (CFFRELS.SameConfig r) CFFRELS.D (updateSTCPPPID M) (fun j => r.arr .AA j)
      r.NAA.toNat r.D fun CDataU => CDataU r.D - CDataU (r.D + 1) where
  delay _ h := h.D
  keeps _ _ _ _ _ h := h.trans CFFRELS.update_sameConfig
  yfk r' yfk ufk ye u h := by
    simp only [updateSTCPPPID, updateSTCFilterOnly, sumAA_add_eq_filtered, h.AA, h.NAA, h.D]
  ufk r' yfk ufk ye u h := by
    simp only [updateSTCPPPID, updateSTCFilterOnly, sumAA_add_eq_filtered, h.AA, h.NAA, h.D,
      increment_eq]

/-- The regressor a step builds, from the filtered arrays it leaves. -/
theorem phie_step {s : Caller CFFRELS} {x : Sampling} (hNF : 0 ≤ s.cffrelsIn.NF1 + 1)
    (hNG : 0 ≤ s.cffrelsIn.NG + 1) (hML : s.cffrelsIn.ML = s.cffrelsIn.NF1 + 1 + s.cffrelsIn.NG + 1)
    (hn : s.cffrelsIn.ML.toNat = n) (theta : ℕ → ℚ) :
    phie n (s.step CFFRELS.D (updateSTCPPPID M) x).cffrelsIn.arr ⬝ᵥ (fun i => theta i) =
      ∑ j ∈ range (s.cffrelsIn.NF1 + 1).toNat, theta j *
          (s.step CFFRELS.D (updateSTCPPPID M) x).CDataUFK (s.cffrelsIn.D + j) +
        ∑ j ∈ range (s.cffrelsIn.NG + 1).toNat, theta ((s.cffrelsIn.NF1 + 1).toNat + j) *
          (s.step CFFRELS.D (updateSTCPPPID M) x).CDataYFK (s.cffrelsIn.D + j) :=
  CFFRELS.phie_update_dotProduct hNF hNG hML hn theta

/-- Along a run of the caller the regressor of every update predicts the current
    output from the parameters of the plant. -/
theorem phie_run (h : CFFRELS.Configured M na nb d 1 am2 am3 r) (hd : 1 ≤ d) (hfits : r.Fits M)
    (hNA0 : 0 ≤ r.NA0) (hn : r.ML.toNat = n) {theta : ℕ → ℚ} {y u : ℤ → ℚ} {x : ℕ → Sampling}
    (hy : ∀ k < 0, y k = 0) (hu : ∀ k < 0, u k = 0) (hxy : ∀ k : ℕ, (x k).y = y k)
    (hxu : ∀ k : ℕ, (x k).u = u k) (hplant : ∀ k, 0 ≤ k → Plant r theta y u k) (k : ℕ) :
    phie n (run (Caller.step CFFRELS.D (updateSTCPPPID M)) (Caller.start r) x (k + 1)).cffrelsIn.arr
      ⬝ᵥ (fun i => theta i) = y k := by
  have hdeg := h.degrees hd
  have hD : 1 ≤ r.D := hdeg.D ▸ hd
  have hAA : r.arr .AA (0 : ℕ) = 1 := by
    rw [Nat.cast_zero, h.AA_zero hd (hfits.NA0_lt hdeg), if_pos hNA0]
  have hdelay : ∀ z : ℤ → ℚ, act (Polynomial.X ^ r.D.toNat) z = fun k => z (k - r.D) :=
    act_X_pow_toNat (by omega)
  let du : ℤ → ℚ := fun k => u k - u (k - 1)
  have hdu : ∀ k < 0, du k = 0 := fun k hk => by
    simp only [du]
    rw [hu k hk, hu (k - 1) (by omega), sub_zero]
  obtain ⟨wy, wu, hwy, hwu, hfy, hfu, hholds⟩ := Caller.exists_responses
    (filtersBy_updateSTCPPPID (M := M)) CFFRELS.SameConfig.refl hD hAA hy hu hxy hxu
    (v := fun k => du (k - r.D)) (fun k hk => hdu _ (by omega)) (fun b k hb => by
      have hslot := hb (r.D - 1).toNat
      have hnext := hb r.D.toNat
      rw [show (((r.D - 1).toNat + 1 : ℕ) : ℤ) = r.D by omega] at hslot
      rw [show ((r.D.toNat + 1 : ℕ) : ℤ) = r.D + 1 by omega] at hnext
      rw [hslot, hnext, ← sub_sub])
  have hpredict := relation_of_filtered (b := ofCoeffs (r.NF1 + 1).toNat theta)
    (c := ofCoeffs (r.NG + 1).toNat fun j => theta ((r.NF1 + 1).toNat + j))
    (Nat.succ_pos _) hAA hy hwy hwu (hfy.trans (hdelay y).symm) (hfu.trans (hdelay du).symm)
    fun k hk => by
      have hk' := hplant k hk
      have hNAA := hdeg.NAA_eq
      rw [Plant, show (r.NAA + 1).toNat = r.NAA.toNat + 1 by omega] at hk'
      rw [hdelay, hdelay, act_ofCoeffs_apply, act_ofCoeffs_apply, act_ofCoeffs_apply, hk']
      simp only [du, sub_right_comm k r.D]
  have hcfg := Caller.run_struct (x := x) (filtersBy_updateSTCPPPID (M := M) (r := r))
    CFFRELS.SameConfig.refl k
  obtain ⟨hYFK, hUFK⟩ := hholds k
  have hNF := hfits.NF1
  have hNG := hfits.NG
  rw [run_succ] at hYFK hUFK ⊢
  rw [phie_step (by rw [hcfg.NF1]; omega) (by rw [hcfg.NG]; omega)
    (by rw [hcfg.ML, hcfg.NF1, hcfg.NG, hdeg.ML_eq]) (by rw [hcfg.ML, hn]) theta]
  rw [hcfg.NF1, hcfg.NG, hcfg.D, ← congrFun hpredict k, Pi.add_apply, act_ofCoeffs_apply,
    act_ofCoeffs_apply]
  congr 1
  · exact sum_congr rfl fun j _ => congrArg _ (hUFK j)
  · exact sum_congr rfl fun j _ => congrArg _ (hYFK j)

end Regressor

/-! ## Fixed points -/

section FixedPoint

theorem filterOnly_filteredBy (hD : 0 ≤ r.D) (hAA : r.NAA < 0 → r.arr .AA 0 = 0)
    (hYFK : FilteredBy (r.arr .AA) r.NAA CDataYFK CDataYE)
    (hUFK : FilteredBy (r.arr .AA) r.NAA CDataUFK fun i => CDataU i - CDataU (i + 1)) :
    updateSTCFilterOnly r CDataYFK CDataUFK CDataYE CDataU =
      ⟨Function.update CDataYFK r.D (r.arr .AA 0 * CDataYFK r.D),
        Function.update CDataUFK r.D (r.arr .AA 0 * CDataUFK r.D)⟩ := by
  have hy := hYFK r.D.toNat
  have hu := hUFK r.D.toNat
  rw [Int.toNat_of_nonneg hD] at hy hu
  rw [updateSTCFilterOnly]
  simp only [increment_eq, sumAA_add_of_relation hAA hy, sumAA_add_of_relation hAA hu]

/-- The regressor the update builds from arrays that are filtered already. -/
theorem phie_updateSTCPPPID (h : CFFRELS.Configured M na nb d am1 am2 am3 r) (hd : 1 ≤ d)
    (hfits : r.Fits M) (hn : r.ML.toNat = n)
    (hYFK : FilteredBy (r.arr .AA) r.NAA CDataYFK CDataYE)
    (hUFK : FilteredBy (r.arr .AA) r.NAA CDataUFK fun i => CDataU i - CDataU (i + 1)) (theta : ℕ → ℚ) :
    phie n (updateSTCPPPID M r CDataYFK CDataUFK CDataYE CDataU).1.arr ⬝ᵥ (fun i => theta i) =
      ∑ j ∈ range (r.NF1 + 1).toNat,
          theta j * Function.update CDataUFK r.D (r.arr .AA 0 * CDataUFK r.D) (r.D + j) +
        ∑ j ∈ range (r.NG + 1).toNat, theta ((r.NF1 + 1).toNat + j) *
          Function.update CDataYFK r.D (r.arr .AA 0 * CDataYFK r.D) (r.D + j) := by
  have hdeg := h.degrees hd
  have hD : 1 ≤ r.D := hdeg.D ▸ hd
  have hNF := hfits.NF1
  have hNG := hfits.NG
  rw [updateSTCPPPID, filterOnly_filteredBy (by omega) (fun hneg => ?_) hYFK hUFK]
  · exact CFFRELS.phie_update_dotProduct (by omega) (by omega) hdeg.ML_eq hn theta
  · have hNAA := hdeg.NAA_eq
    rw [h.AA_zero hd (hfits.NA0_lt hdeg), if_neg (by omega)]

/-- True parameters are kept exactly when the sample of the filtered output
    happens to be the raw one, or there is no excitation: the innovation is taken
    from `YFK[0]` where the regressor predicts `YE[0]`. -/
theorem updateSTCPPPID_θ_eq_iff (h : CFFRELS.Configured M na nb d am1 am2 am3 r) (hd : 1 ≤ d)
    (hfits : r.Fits M) (hn : r.ML.toNat = n) (hP : (est n r.arr).P.PosDef)
    (hYFK : FilteredBy (r.arr .AA) r.NAA CDataYFK CDataYE)
    (hUFK : FilteredBy (r.arr .AA) r.NAA CDataUFK fun i => CDataU i - CDataU (i + 1))
    (hy : phie n (updateSTCPPPID M r CDataYFK CDataUFK CDataYE CDataU).1.arr ⬝ᵥ (est n r.arr).θ =
      CDataYE 0) :
    (est n (updateSTCPPPID M r CDataYFK CDataUFK CDataYE CDataU).1.arr).θ = (est n r.arr).θ ↔
      CDataYFK 0 = CDataYE 0 ∨ Quiet (r.arr .AA 0) r.D r.NF1 r.NG CDataYFK CDataUFK := by
  have hdeg := h.degrees hd
  have hD : 1 ≤ r.D := hdeg.D ▸ hd
  have hNF := hfits.NF1
  have hNG := hfits.NG
  have hAA : r.NAA < 0 → r.arr .AA 0 = 0 := fun hneg => by
    have hNAA := hdeg.NAA_eq
    rw [h.AA_zero hd (hfits.NA0_lt hdeg), if_neg (by omega)]
  rw [updateSTCPPPID, filterOnly_filteredBy (by omega) hAA hYFK hUFK] at hy ⊢
  dsimp only at hy ⊢
  rw [CFFRELS.update_θ_eq_iff (by omega) (by omega) hdeg.ML_eq hn hP, hy,
    Function.update_of_ne (by omega), quiet_iff hNF hNG]

end FixedPoint

end STCPPPID
