-- SUMMARY: The forgetting least squares estimator of CFFRELS.c, for the direct pole-placement PID controller.
import LynxFly.Control.Polynomials

/-!
# CFFRELS.c

The variant of `PPCFFRELS.c` for a controller with integral action. It identifies
`F` without its factor `1 - q⁻¹`, as the array `F1E` of degree `NF1`, and obtains
`FE` by multiplying the factor back in.

The capacity `CFFRELS_ML_A` is the parameter `M`.
-/

open Buffers Buffers.Prog LibMatrix LibMyMath Estimator Polynomials LeastSquares ShiftPoly
open Polynomial

/-- `CFFRELS_T`. -/
structure CFFRELS where
  NA : ℤ
  NB : ℤ
  D : ℤ
  NF : ℤ
  NF1 : ℤ
  NG : ℤ
  NR : ℤ
  NAM : ℤ
  NA0 : ℤ
  NAA : ℤ
  ML : ℤ
  arr : Cells Arr ℚ
  deriving Inhabited

namespace CFFRELS

/-- `CFFRELS_ML_A`. -/
def ML_A : ℕ := 10

/-- The test for an unset configuration. -/
abbrev IsUnset (na nb d : ℤ) (am1 am2 am3 : ℚ) : Prop :=
  na ≤ 0 ∧ nb ≤ 0 ∧ d ≤ 0 ∧ am1 ≤ 0 ∧ am2 ≤ 0 ∧ am3 ≤ 0

/-- The degrees, all computed from the three orders. -/
def setDegrees (relsIn : CFFRELS) : CFFRELS :=
  let relsIn := { relsIn with NAM := 2 }
  let relsIn := { relsIn with
    NF := relsIn.NB + relsIn.D
    NG := relsIn.NA
    NA0 := 2 * relsIn.NA - relsIn.NAM - relsIn.NB - 1 }
  let relsIn := { relsIn with NF1 := relsIn.NF - 1 }
  { relsIn with
    ML := relsIn.NF1 + 1 + relsIn.NG + 1
    NAA := relsIn.NA0 + relsIn.NAM
    NR := relsIn.NA0 }

def setOrders (relsIn : CFFRELS) (na nb d : ℤ) : CFFRELS :=
  { relsIn with NA := na, NB := nb, D := d }.setDegrees

/-- `CFFRELS_init` for orders that are set. -/
def configure (M : ℕ) (relsIn : CFFRELS) (na nb d : ℤ) (am1 am2 am3 : ℚ) : CFFRELS :=
  let relsIn := relsIn.setOrders na nb d
  { relsIn with
    arr := (initProg M relsIn.NA0 relsIn.NAM relsIn.ML am1 am2 am3).exec relsIn.arr }

/-- `CFFRELS_init`. -/
def init (M : ℕ) (relsIn : CFFRELS) (na nb d : ℤ) (am1 am2 am3 : ℚ) : CFFRELS :=
  if IsUnset na nb d am1 am2 am3 then
    configure M relsIn 2 1 3 1 (-16 / 10) (66 / 100)
  else
    configure M relsIn na nb d am1 am2 am3

/-- `phie=[ufk(d:d+nf1);yfk(d:d+ng)]`. -/
def regressor (relsIn : CFFRELS) (CDataYFK CDataUFK : ℤ → ℚ) : Prog Arr ℚ Unit :=
  ufkYfk relsIn.NF1 relsIn.NG relsIn.D CDataYFK CDataUFK

/-- `Fe=conv(F1e,[1 -1])`. -/
def integrateF (M : ℕ) (NF1 : ℤ) : Prog Arr ℚ Unit := do
  matrixInit0 .RELS_tmp_VT2 1 M
  wr .RELS_tmp_VT2 0 1
  wr .RELS_tmp_VT2 1 (-1)
  matrixInit0 .FE 1 M
  fconv .F1E (NF1 + 1).toNat .RELS_tmp_VT2 2 .FE

/-- `CFFRELS_ClcFGR`, on the arrays. -/
def clcFGRProg (M : ℕ) (relsIn : CFFRELS) : Prog Arr ℚ Unit := do
  extractFG .F1E relsIn.NF1 relsIn.NG relsIn.ML.toNat
  integrateF M relsIn.NF1
  calcR M relsIn.NAM

/-- `CFFRELS_ClcFGR`. -/
def clcFGR (M : ℕ) (relsIn : CFFRELS) : CFFRELS :=
  { relsIn with arr := (relsIn.clcFGRProg M).exec relsIn.arr }

def updateProg (M : ℕ) (relsIn : CFFRELS) (CDataYFK CDataUFK : ℤ → ℚ) (lambda : ℚ) :
    Prog Arr ℚ Unit := do
  let lambda := clampLambda lambda
  forgettingUpdate relsIn.ML.toNat (relsIn.regressor CDataYFK CDataUFK) lambda (CDataYFK 0)
  clcFGRProg M relsIn

/-- `CFFRELS_Update`. -/
def update (M : ℕ) (relsIn : CFFRELS) (CDataYFK CDataUFK : ℤ → ℚ) (lambda : ℚ) : CFFRELS :=
  { relsIn with arr := (relsIn.updateProg M CDataYFK CDataUFK lambda).exec relsIn.arr }

section Spec

variable {M n : ℕ} {relsIn : CFFRELS} {na nb d : ℤ} {am1 am2 am3 : ℚ}
variable {CDataYFK CDataUFK : ℤ → ℚ} {lambda : ℚ} {c : Cells Arr ℚ} {b : Arr}

/-! ## The configuration -/

/-- The fields only `init` writes: the orders and the target polynomials. -/
structure SameConfig (r r' : CFFRELS) : Prop where
  NA : r'.NA = r.NA
  NB : r'.NB = r.NB
  D : r'.D = r.D
  NF : r'.NF = r.NF
  NF1 : r'.NF1 = r.NF1
  NG : r'.NG = r.NG
  NR : r'.NR = r.NR
  NAM : r'.NAM = r.NAM
  NA0 : r'.NA0 = r.NA0
  NAA : r'.NAA = r.NAA
  ML : r'.ML = r.ML
  AM : r'.arr .AM = r.arr .AM
  A0 : r'.arr .A0 = r.arr .A0
  AA : r'.arr .AA = r.arr .AA

theorem SameConfig.refl : SameConfig relsIn relsIn :=
  ⟨rfl, rfl, rfl, rfl, rfl, rfl, rfl, rfl, rfl, rfl, rfl, rfl, rfl, rfl⟩

theorem SameConfig.trans {r r' r'' : CFFRELS} (h : SameConfig r r') (h' : SameConfig r' r'') :
    SameConfig r r'' :=
  ⟨h'.NA.trans h.NA, h'.NB.trans h.NB, h'.D.trans h.D, h'.NF.trans h.NF, h'.NF1.trans h.NF1,
    h'.NG.trans h.NG, h'.NR.trans h.NR, h'.NAM.trans h.NAM, h'.NA0.trans h.NA0, h'.NAA.trans h.NAA,
    h'.ML.trans h.ML, h'.AM.trans h.AM, h'.A0.trans h.A0, h'.AA.trans h.AA⟩

/-- A struct that `init` configured, whatever happened to its estimate since. -/
def Configured (M : ℕ) (na nb d : ℤ) (am1 am2 am3 : ℚ) (relsIn : CFFRELS) : Prop :=
  ∃ r, SameConfig (init M r na nb d am1 am2 am3) relsIn

theorem init_configured : Configured M na nb d am1 am2 am3 (init M relsIn na nb d am1 am2 am3) :=
  ⟨relsIn, SameConfig.refl⟩

theorem configure_arr : (configure M relsIn na nb d am1 am2 am3).arr =
    (initProg M (relsIn.setOrders na nb d).NA0 (relsIn.setOrders na nb d).NAM
      (relsIn.setOrders na nb d).ML am1 am2 am3).exec (relsIn.setOrders na nb d).arr := by
  simp only [configure]

/-- The degrees, from the orders. -/
structure Degrees (na nb d : ℤ) (relsIn : CFFRELS) : Prop where
  D : relsIn.D = d
  NF : relsIn.NF = nb + d
  NF1 : relsIn.NF1 = nb + d - 1
  NG : relsIn.NG = na
  NAM : relsIn.NAM = 2
  NA0 : relsIn.NA0 = 2 * na - nb - 3
  NAA : relsIn.NAA = 2 * na - nb - 1
  NR : relsIn.NR = 2 * na - nb - 3
  ML : relsIn.ML = nb + d + na + 1

theorem configure_degrees : Degrees na nb d (configure M relsIn na nb d am1 am2 am3) := by
  constructor <;> simp only [configure, setOrders, setDegrees] <;> omega

theorem Degrees.NF_eq (h : Degrees na nb d relsIn) : relsIn.NF = relsIn.NF1 + 1 := by
  rw [h.NF, h.NF1]
  ring

theorem Degrees.ML_eq (h : Degrees na nb d relsIn) :
    relsIn.ML = relsIn.NF1 + 1 + relsIn.NG + 1 := by
  rw [h.ML, h.NF1, h.NG]
  ring

theorem Degrees.NAA_eq (h : Degrees na nb d relsIn) : relsIn.NAA = relsIn.NA0 + 2 := by
  rw [h.NAA, h.NA0]
  ring

theorem Degrees.NR_eq (h : Degrees na nb d relsIn) : relsIn.NR = relsIn.NA0 := by
  rw [h.NR, h.NA0]

/-- Every polynomial has a leading coefficient, and the arrays have a cell for
    every coefficient and every parameter. -/
structure Fits (M : ℕ) (relsIn : CFFRELS) : Prop where
  NF1 : 0 ≤ relsIn.NF1
  NG : 0 ≤ relsIn.NG
  ML : relsIn.ML ≤ M
  NAA : relsIn.NAA < M

theorem Fits.NA0_lt (h : Fits M relsIn) (hdeg : Degrees na nb d relsIn) :
    relsIn.NA0.toNat < M := by
  have hML := hdeg.ML_eq
  have hNAA := hdeg.NAA_eq
  obtain ⟨_, _, _, _⟩ := h
  omega

/-- Orders with a delay are set, so `init` takes them. -/
theorem init_of_delay (hd : 1 ≤ d) :
    init M relsIn na nb d am1 am2 am3 = configure M relsIn na nb d am1 am2 am3 := by
  rw [init, if_neg]
  rintro ⟨_, _, hd', _⟩
  omega

section Configured

variable (h : Configured M na nb d am1 am2 am3 relsIn) (hd : 1 ≤ d)

include h hd

theorem Configured.degrees : Degrees na nb d relsIn := by
  obtain ⟨r, h⟩ := h
  rw [init_of_delay hd] at h
  have hs : Degrees na nb d (configure M r na nb d am1 am2 am3) := configure_degrees
  exact ⟨h.D.trans hs.D, h.NF.trans hs.NF, h.NF1.trans hs.NF1, h.NG.trans hs.NG,
    h.NAM.trans hs.NAM, h.NA0.trans hs.NA0, h.NAA.trans hs.NAA, h.NR.trans hs.NR, h.ML.trans hs.ML⟩

theorem Configured.AM : relsIn.arr .AM 0 = am1 ∧ relsIn.arr .AM 1 = am2 ∧
    relsIn.arr .AM 2 = am3 := by
  obtain ⟨r, h⟩ := h
  rw [init_of_delay hd] at h
  rw [h.AM, configure_arr]
  simp only [exec_initProg_AM]
  exact ⟨exec_setAM_zero, exec_setAM_one, exec_setAM_two⟩

/-- `Am(1)`. -/
theorem Configured.sum_AM :
    ∑ k ∈ Finset.range (relsIn.NAM + 1).toNat, relsIn.arr .AM (k : ℕ) = am1 + am2 + am3 := by
  obtain ⟨hAM0, hAM1, hAM2⟩ := h.AM hd
  rw [(h.degrees hd).NAM, show ((2 : ℤ) + 1).toNat = 3 from rfl, Finset.sum_range_succ,
    Finset.sum_range_succ, Finset.sum_range_one, Nat.cast_zero, Nat.cast_one, Nat.cast_two, hAM0,
    hAM1, hAM2]

theorem Configured.A0 (hM : relsIn.NA0.toNat < M) {i : ℕ} (hi : i < M) :
    relsIn.arr .A0 i = (observer relsIn.NA0.toNat).coeff i := by
  obtain ⟨r, h⟩ := h
  rw [init_of_delay hd] at h
  have hdeg : relsIn.NA0 = (r.setOrders na nb d).NA0 := h.NA0
  rw [hdeg] at hM ⊢
  rw [h.A0, configure_arr]
  exact exec_initProg_A0 hM hi

theorem Configured.AA (hNA0 : 0 ≤ relsIn.NA0) (hM : relsIn.NA0.toNat < M) {i : ℕ} (hi : i < M) :
    relsIn.arr .AA i = (observer relsIn.NA0.toNat *
      (Polynomial.C am1 + Polynomial.C am2 * Polynomial.X +
        Polynomial.C am3 * Polynomial.X ^ 2)).coeff i := by
  obtain ⟨r, h⟩ := h
  rw [init_of_delay hd] at h
  have hdeg : relsIn.NA0 = (r.setOrders na nb d).NA0 := h.NA0
  rw [hdeg] at hNA0 hM ⊢
  rw [h.AA, configure_arr]
  exact exec_initProg_AA hNA0 hM hi

theorem Configured.AA_zero (hM : relsIn.NA0.toNat < M) :
    relsIn.arr .AA 0 = if 0 ≤ relsIn.NA0 then am1 else 0 := by
  obtain ⟨r, h⟩ := h
  rw [init_of_delay hd] at h
  have hNA0 : relsIn.NA0 = (r.setOrders na nb d).NA0 := h.NA0
  rw [hNA0] at hM ⊢
  rw [h.AA, configure_arr, exec_initProg_AA_zero hM]
  exact zero_le_two

end Configured

/-! ## One call -/

theorem exec_regressor_of_ne (hb : b ≠ .phie) :
    (relsIn.regressor CDataYFK CDataUFK).exec c b = c b := exec_ufkYfk_of_ne hb

theorem exec_integrateF_of_notMem {NF1 : ℤ} (hb : b ∉ [Arr.RELS_tmp_VT2, .FE]) :
    (integrateF M NF1).exec c b = c b := by
  simp only [List.mem_cons, List.not_mem_nil, or_false, not_or] at hb
  simp [integrateF, hb]

/-- `FE` is `F1E` times `1 - q⁻¹`. -/
theorem ofCoeffs_integrateF {NF1 : ℤ} (hNF1 : 0 ≤ NF1 + 1) (hM : NF1 + 1 < M) :
    ofCoeffs (NF1 + 2).toNat (coeffs ((integrateF M NF1).exec c .FE)) =
      ofCoeffs (NF1 + 1).toNat (coeffs (c .F1E)) * (1 - X) := by
  have hlen : (NF1 + 2).toNat = (NF1 + 1).toNat + 2 - 1 := by omega
  have hclear : ∀ i : ℕ, i < (NF1 + 1).toNat + 2 - 1 → (matrixInit0 Arr.FE 1 M).exec
      ((wr .RELS_tmp_VT2 1 (-1)).exec ((wr .RELS_tmp_VT2 0 1).exec
        ((matrixInit0 .RELS_tmp_VT2 1 M).exec c))) .FE i = 0 :=
    fun i hi => exec_matrixInit0_row (by omega)
  simp only [integrateF, exec_bind]
  rw [hlen, ofCoeffs_fconv (by decide) (by decide) hclear]
  congr 1
  · simp
  · simp [ofCoeffs, Finset.sum_range_succ, sub_eq_add_neg, monomial_one_one_eq_X]

/-- What `CFFRELS_ClcFGR` writes. -/
def fgr : List Arr :=
  [.BE0, .RELS_tmp_V1, .F1E, .GE, .RELS_tmp_VT2, .FE, .R, .RELS_tmp_U1]

theorem exec_clcFGRProg_of_notMem (hb : b ∉ fgr) : (clcFGRProg M relsIn).exec c b = c b := by
  simp only [fgr, List.mem_cons, List.not_mem_nil, or_false, not_or] at hb
  simp only [clcFGRProg, exec_bind]
  rw [exec_calcR_of_notMem (by simp [hb]), exec_integrateF_of_notMem (by simp [hb]),
    exec_extractFG_of_notMem (by decide) (by simp [hb])]

theorem clcFGR_F1E {i : ℕ} (hi : i < relsIn.NF1 + 1) (hML : relsIn.NF1 + 1 ≤ relsIn.ML) :
    (clcFGR M relsIn).arr .F1E i = relsIn.arr .thetae i * (1 / relsIn.arr .thetae 0) := by
  simp only [clcFGR, clcFGRProg, exec_bind]
  rw [exec_calcR_of_notMem (by decide), exec_integrateF_of_notMem (by decide),
    exec_extractFG_F (by decide) (by decide) (by omega) hi]

theorem clcFGR_FE (hNF1 : 0 ≤ relsIn.NF1 + 1) (hM : relsIn.NF1 + 1 < M) :
    ofCoeffs (relsIn.NF1 + 2).toNat (coeffs ((clcFGR M relsIn).arr .FE)) =
      ofCoeffs (relsIn.NF1 + 1).toNat (coeffs ((clcFGR M relsIn).arr .F1E)) * (1 - X) := by
  simp only [clcFGR, clcFGRProg, exec_bind]
  rw [exec_calcR_of_notMem (by decide), exec_calcR_of_notMem (by decide),
    ofCoeffs_integrateF hNF1 hM, exec_integrateF_of_notMem (b := .F1E) (by decide)]

theorem clcFGR_GE (hNF1 : 0 ≤ relsIn.NF1 + 1) {i : ℕ} (hi : i < relsIn.NG + 1)
    (hML : relsIn.NF1 + 1 + relsIn.NG + 1 ≤ relsIn.ML) :
    (clcFGR M relsIn).arr .GE i =
      relsIn.arr .thetae (relsIn.NF1 + 1 + i) * (1 / relsIn.arr .thetae 0) := by
  simp only [clcFGR, clcFGRProg, exec_bind]
  rw [exec_calcR_of_notMem (by decide), exec_integrateF_of_notMem (by decide),
    exec_extractFG_GE (by decide) hNF1 (by omega) hi]

theorem clcFGR_R {i : ℕ} (hi : i < M) :
    (clcFGR M relsIn).arr .R i = relsIn.arr .A0 i *
      ((∑ k ∈ Finset.range (relsIn.NAM + 1).toNat, relsIn.arr .AM (k : ℕ)) /
        clampBE0 (relsIn.arr .thetae 0)) := by
  simp only [clcFGR, clcFGRProg, exec_bind]
  rw [exec_calcR_R hi, exec_integrateF_of_notMem (by decide),
    exec_integrateF_of_notMem (by decide), exec_integrateF_of_notMem (by decide),
    exec_extractFG_BE0 (by decide) (by decide), exec_extractFG_of_notMem (by decide) (by decide),
    exec_extractFG_of_notMem (by decide) (by decide)]

theorem clcFGR_sameConfig : SameConfig relsIn (clcFGR M relsIn) := by
  have hkeep : ∀ b ∉ fgr, (clcFGR M relsIn).arr b = relsIn.arr b := fun b hb => by
    simp only [clcFGR]
    rw [exec_clcFGRProg_of_notMem hb]
  exact ⟨rfl, rfl, rfl, rfl, rfl, rfl, rfl, rfl, rfl, rfl, rfl, hkeep _ (by decide),
    hkeep _ (by decide), hkeep _ (by decide)⟩

theorem est_configure (hn : (configure M relsIn na nb d am1 am2 am3).ML.toNat = n) :
    est n (configure M relsIn na nb d am1 am2 am3).arr = initial n := by
  rw [configure_arr]
  exact est_initProg hn

theorem est_init (hn : (init M relsIn na nb d am1 am2 am3).ML.toNat = n) :
    est n (init M relsIn na nb d am1 am2 am3).arr = initial n := by
  rw [init] at hn ⊢
  split at hn
  · rw [if_pos ‹_›]
    exact est_configure hn
  · rw [if_neg ‹_›]
    exact est_configure hn

theorem thetae_1_init (hn : (init M relsIn na nb d am1 am2 am3).ML.toNat = n) :
    asVec n ((init M relsIn na nb d am1 am2 am3).arr .thetae_1) = fun _ => 1 / 1000 := by
  rw [init] at hn ⊢
  split at hn
  · rw [if_pos ‹_›, configure_arr]
    exact thetae_1_initProg hn
  · rw [if_neg ‹_›, configure_arr]
    exact thetae_1_initProg hn

theorem init_thetae {j : ℕ} (hj : j < (init M relsIn na nb d am1 am2 am3).ML) :
    (init M relsIn na nb d am1 am2 am3).arr .thetae j = 1 / 1000 :=
  congrFun (congrArg Est.θ (est_init rfl)) ⟨j, by omega⟩

/-- `CFFRELS_Update` is an abstract step with the clamped factor, on the sample
    `CDataYFK[0]`. -/
theorem est_update (hn : relsIn.ML.toNat = n) :
    est n (update M relsIn CDataYFK CDataUFK lambda).arr =
      (est n relsIn.arr).step ⟨phie n (update M relsIn CDataYFK CDataUFK lambda).arr,
        CDataYFK 0, max (9 / 10) (min 1 lambda)⟩ := by
  subst hn
  rw [← clampLambda_eq]
  simp only [update, updateProg, exec_bind, phie]
  rw [est_congr (exec_clcFGRProg_of_notMem (by decide)) (exec_clcFGRProg_of_notMem (by decide)),
    exec_clcFGRProg_of_notMem (b := .phie) (by decide)]
  exact est_forgettingUpdate fun _ _ hb => exec_regressor_of_ne hb

theorem update_sameConfig : SameConfig relsIn (update M relsIn CDataYFK CDataUFK lambda) := by
  have hkeep : ∀ b ∉ fgr ++ .phie :: updateScratch,
      (update M relsIn CDataYFK CDataUFK lambda).arr b = relsIn.arr b := fun b hb => by
    rw [List.mem_append, List.mem_cons, not_or, not_or] at hb
    simp only [update, updateProg, exec_bind]
    rw [exec_clcFGRProg_of_notMem hb.1,
      exec_forgettingUpdate_of_notMem hb.2.2 fun _ => exec_regressor_of_ne hb.2.1]
  exact ⟨rfl, rfl, rfl, rfl, rfl, rfl, rfl, rfl, rfl, rfl, rfl, hkeep _ (by decide),
    hkeep _ (by decide), hkeep _ (by decide)⟩

/-- The first division of `CFFRELS_Update` is that of the gain. -/
theorem head_divisors_update (hn : relsIn.ML.toNat = n) :
    (divisors (relsIn.updateProg M CDataYFK CDataUFK lambda) relsIn.arr).head? =
      some (denom (est n relsIn.arr).P (phie n (update M relsIn CDataYFK CDataUFK lambda).arr)
        (max (9 / 10) (min 1 lambda))) := by
  subst hn
  rw [← clampLambda_eq]
  have hphie : phie relsIn.ML.toNat (update M relsIn CDataYFK CDataUFK lambda).arr =
      phie relsIn.ML.toNat ((forgettingUpdate relsIn.ML.toNat
        (relsIn.regressor CDataYFK CDataUFK) (clampLambda lambda) (CDataYFK 0)).exec relsIn.arr) := by
    simp only [update, updateProg, exec_bind, phie]
    rw [exec_clcFGRProg_of_notMem (b := .phie) (by decide)]
  rw [hphie, updateProg, divisors_bind, divisors_forgettingUpdate
    (fun _ _ hb => exec_regressor_of_ne hb)
    (within_ufkYfk (fun _ _ => trivial) fun _ _ => trivial)]
  rfl

/-- The regressor of an update, from the data. -/
theorem phie_update (hn : relsIn.ML.toNat = n) :
    phie n (update M relsIn CDataYFK CDataUFK lambda).arr =
      phie n ((relsIn.regressor CDataYFK CDataUFK).exec
        ((matrixCopy .thetae n 1 .thetae_1).exec relsIn.arr)) := by
  subst hn
  simp only [update, updateProg, exec_bind, phie]
  rw [exec_clcFGRProg_of_notMem (b := .phie) (by decide)]
  exact phie_forgettingUpdate

/-- The regressor of an update against a parameter vector. -/
theorem phie_update_dotProduct (hNF : 0 ≤ relsIn.NF1 + 1) (hNG : 0 ≤ relsIn.NG + 1)
    (hML : relsIn.ML = relsIn.NF1 + 1 + relsIn.NG + 1) (hn : relsIn.ML.toNat = n) (theta : ℕ → ℚ) :
    phie n (update M relsIn CDataYFK CDataUFK lambda).arr ⬝ᵥ (fun i => theta i) =
      ∑ j ∈ Finset.range (relsIn.NF1 + 1).toNat, theta j * CDataUFK (relsIn.D + j) +
        ∑ j ∈ Finset.range (relsIn.NG + 1).toNat,
          theta ((relsIn.NF1 + 1).toNat + j) * CDataYFK (relsIn.D + j) := by
  rw [phie_update hn]
  exact phie_ufkYfk_dotProduct hNF hNG (by omega) theta

/-- When the regressor of an update is zero. -/
theorem phie_update_eq_zero_iff (hNF : 0 ≤ relsIn.NF1 + 1) (hNG : 0 ≤ relsIn.NG + 1)
    (hML : relsIn.ML = relsIn.NF1 + 1 + relsIn.NG + 1) (hn : relsIn.ML.toNat = n) :
    phie n (update M relsIn CDataYFK CDataUFK lambda).arr = 0 ↔
      (∀ j : ℕ, (j : ℤ) ≤ relsIn.NF1 → CDataUFK (relsIn.D + j) = 0) ∧
        ∀ j : ℕ, (j : ℤ) ≤ relsIn.NG → CDataYFK (relsIn.D + j) = 0 := by
  rw [phie_update hn]
  exact phie_ufkYfk_eq_zero_iff hNF hNG (by omega)

/-- When an update keeps the parameters. -/
theorem update_θ_eq_iff (hNF : 0 ≤ relsIn.NF1 + 1) (hNG : 0 ≤ relsIn.NG + 1)
    (hML : relsIn.ML = relsIn.NF1 + 1 + relsIn.NG + 1) (hn : relsIn.ML.toNat = n)
    (hP : (est n relsIn.arr).P.PosDef) :
    (est n (update M relsIn CDataYFK CDataUFK lambda).arr).θ = (est n relsIn.arr).θ ↔
      CDataYFK 0 = phie n (update M relsIn CDataYFK CDataUFK lambda).arr ⬝ᵥ (est n relsIn.arr).θ ∨
        (∀ j : ℕ, (j : ℤ) ≤ relsIn.NF1 → CDataUFK (relsIn.D + j) = 0) ∧
          ∀ j : ℕ, (j : ℤ) ≤ relsIn.NG → CDataYFK (relsIn.D + j) = 0 := by
  rw [est_update hn, Est.step_θ_eq_iff hP (clamped_pos lambda),
    phie_update_eq_zero_iff hNF hNG hML hn]

end Spec

end CFFRELS
