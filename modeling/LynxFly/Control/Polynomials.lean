-- SUMMARY: What CFFRELS and PPCFFRELS share: the polynomials Am, A0 and AA, the regressor, and the extraction of the controller.
import LynxFly.Control.Estimator
import LynxFly.Math.LibMyMath

/-!
# Polynomials of the pole-placement estimators

`CFFRELS_T` and `PPCFFRELS_T` store `Am`, `A0` and `AA = A0*Am` as arrays of `M`
coefficients. `A0` is built one factor `[1 0.3-i*0.1]` at a time through the
temporary `RELS_tmp_VT2`, which is cleared after every round.
-/

open Buffers Buffers.Prog LibMatrix LibMyMath ShiftPoly Polynomial

namespace Polynomials

/-! ## Lines shared by the two structs -/

/-- Stores the coefficients of `Am`. -/
def setAM (M : ℕ) (am1 am2 am3 : ℚ) : Prog Arr ℚ Unit := do
  matrixInit0 .AM 1 M
  wr .AM 0 am1
  wr .AM 1 am2
  wr .AM 2 am3

/-- One round of `A0=conv(A0,[1 0.3-i*0.1])`. -/
def observerRound (M RELS_i : ℕ) : Prog Arr ℚ Unit := do
  wr .RELS_tmp_VT1 1 ((← rd .RELS_tmp_VT1 1) - 1 / 10)
  fconv .A0 (1 + RELS_i) .RELS_tmp_VT1 2 .RELS_tmp_VT2
  matrixCopy .RELS_tmp_VT2 1 M .A0
  matrixInit0 .RELS_tmp_VT2 1 M

/-- `A0`, with the clearing of the temporaries before it. -/
def calcA0 (M : ℕ) (NA0 : ℤ) : Prog Arr ℚ Unit := do
  matrixInit0 .A0 1 M
  matrixInit0 .RELS_tmp_VT1 1 M
  matrixInit0 .RELS_tmp_VT2 1 M
  wr .A0 0 1
  wr .RELS_tmp_VT1 0 1
  wr .RELS_tmp_VT1 1 (3 / 10)
  loop NA0.toNat fun RELS_i => observerRound M RELS_i

/-- `AA=conv(A0,Am)`. -/
def calcAA (M : ℕ) (NA0 NAM : ℤ) : Prog Arr ℚ Unit := do
  matrixInit0 .AA 1 M
  fconv .A0 (NA0 + 1).toNat .AM (NAM + 1).toNat .AA

/-- `CFFRELS_init` and `PPCFFRELS_init` once the orders are known. -/
def initProg (M : ℕ) (NA0 NAM ML : ℤ) (am1 am2 am3 : ℚ) : Prog Arr ℚ Unit := do
  setAM M am1 am2 am3
  calcA0 M NA0
  calcAA M NA0 NAM
  Estimator.initThetaeP ML.toNat

/-- `be0=thetae(1)` and `thetaeb=thetae/be0`, into `RELS_tmp_V1`. -/
def scaleThetae (ML : ℕ) : Prog Arr ℚ Unit := do
  wr .BE0 0 (← rd .thetae 0)
  matrixMultiplyK .thetae (← fdiv 1 (← rd .BE0 0)) 1 ML .RELS_tmp_V1

/-- `phie=[ufk(d:d+nf);yfk(d:d+ng)]`. -/
def ufkYfk (NF NG D : ℤ) (CDataYFK CDataUFK : ℤ → ℚ) : Prog Arr ℚ Unit := do
  loop (NF + 1).toNat fun RELS_i => wr .phie RELS_i (CDataUFK (D + RELS_i))
  loop (NG + 1).toNat fun RELS_i => wr .phie (NF + 1 + RELS_i) (CDataYFK (D + RELS_i))

/-- `thetaeb` split into the coefficients of `F` (kept in the array `F`) and `G`. -/
def extractFG (F : Arr) (NF NG : ℤ) (ML : ℕ) : Prog Arr ℚ Unit := do
  scaleThetae ML
  loop (NF + 1).toNat fun RELS_i => do
    wr F RELS_i (← rd .RELS_tmp_V1 RELS_i)
  loop (NG + 1).toNat fun RELS_i => do
    wr .GE RELS_i (← rd .RELS_tmp_V1 (NF + 1 + RELS_i))

/-- `sum(Am)`, into `RELS_tmp_U1`. -/
def sumAM (NAM : ℤ) : Prog Arr ℚ Unit := do
  wr .RELS_tmp_U1 0 0
  loop (NAM + 1).toNat fun RELS_i => do
    wr .RELS_tmp_U1 0 ((← rd .RELS_tmp_U1 0) + (← rd .AM RELS_i))

/-- Keeps `be0` off zero. -/
def guardBE0 : Prog Arr ℚ Unit := do
  let BE0 ← rd .BE0 0
  if BE0 < 1 / 100000 ∧ BE0 > -(1 / 100000) then wr .BE0 0 (1 / 100000) else pure ()

/-- `Bm1=sum(Am)/be0` and `R=Bm1*A0`. -/
def calcR (M : ℕ) (NAM : ℤ) : Prog Arr ℚ Unit := do
  matrixInit0 .R 1 M
  sumAM NAM
  guardBE0
  wr .RELS_tmp_U1 0 (← fdiv (← rd .RELS_tmp_U1 0) (← rd .BE0 0))
  matrixMultiplyK .A0 (← rd .RELS_tmp_U1 0) 1 M .R

section Spec

variable {c : Cells Arr ℚ} {M ML : ℕ} {NA0 NAM : ℤ} {am1 am2 am3 : ℚ} {b : Arr}

/-! ## Am -/

theorem exec_setAM_zero : (setAM M am1 am2 am3).exec c .AM 0 = am1 := by
  simp [setAM]

theorem exec_setAM_one : (setAM M am1 am2 am3).exec c .AM 1 = am2 := by
  simp [setAM]

theorem exec_setAM_two : (setAM M am1 am2 am3).exec c .AM 2 = am3 := by
  simp [setAM]

/-! ## The observer polynomial -/

/-- `(1 + 0.2 q⁻¹)(1 + 0.1 q⁻¹)(1 + 0 q⁻¹)…`, the first `k` factors. -/
noncomputable def observer (k : ℕ) : ℚ[X] :=
  ∏ i ∈ Finset.range k, (1 + C (3 / 10 - ((i : ℚ) + 1) / 10) * X)

theorem observer_succ (k : ℕ) :
    observer (k + 1) = observer k * (1 + C (3 / 10 - ((k : ℚ) + 1) / 10) * X) :=
  Finset.prod_range_succ _ k

theorem natDegree_observer_le (k : ℕ) : (observer k).natDegree ≤ k := by
  induction k with
  | zero => simp [observer]
  | succ k ih =>
    have hfactor : (1 + C (3 / 10 - ((k : ℚ) + 1) / 10) * X).natDegree ≤ 1 := by compute_degree
    rw [observer_succ]
    exact natDegree_mul_le.trans (Nat.add_le_add ih hfactor)

theorem coeff_observer_zero (k : ℕ) : (observer k).coeff 0 = 1 := by
  induction k with
  | zero => simp [observer]
  | succ k ih => simp [observer_succ, ih]

/-- What the rounds of `calcA0` keep: `A0` holds the partial product, and the
    temporaries are ready for the next factor. -/
structure ObserverInv (M k : ℕ) (c : Cells Arr ℚ) : Prop where
  A0 : ∀ i : ℕ, i < M → c .A0 i = (observer k).coeff i
  VT1_zero : c .RELS_tmp_VT1 0 = 1
  VT1_one : c .RELS_tmp_VT1 1 = 3 / 10 - k / 10
  VT2 : ∀ i : ℕ, i < M → c .RELS_tmp_VT2 i = 0

theorem ObserverInv.round {k : ℕ} (h : ObserverInv M k c) (hk : k + 1 < M) :
    ObserverInv M (k + 1) ((observerRound M k).exec c) := by
  -- the factor of this round, and the product it is convolved into
  let c₁ := (wr .RELS_tmp_VT1 1 (c .RELS_tmp_VT1 1 - 1 / 10)).exec c
  let c₂ := (fconv .A0 (1 + k) .RELS_tmp_VT1 2 .RELS_tmp_VT2).exec c₁
  have hexec : (observerRound M k).exec c = (matrixInit0 .RELS_tmp_VT2 1 M).exec
      ((matrixCopy .RELS_tmp_VT2 1 M .A0).exec c₂) := by
    simp [observerRound, c₁, c₂]
  have hone : c₁ .RELS_tmp_VT1 1 = 3 / 10 - (k + 1) / 10 := by
    simp only [c₁, exec_wr_self, h.VT1_one]
    ring
  have hzero : c₁ .RELS_tmp_VT1 0 = 1 := by
    simp [c₁, h.VT1_zero]
  have hA0 : ofCoeffs (1 + k) (coeffs (c₁ .A0)) = observer k := by
    refine ofCoeffs_eq ((natDegree_observer_le k).trans_lt (by omega)) fun i hi => ?_
    rw [coeffs_apply, ← h.A0 i (by omega)]
    simp [c₁]
  have hfactor : ofCoeffs 2 (coeffs (c₁ .RELS_tmp_VT1)) =
      1 + C (3 / 10 - ((k : ℚ) + 1) / 10) * X := by
    rw [ofCoeffs, Finset.sum_range_succ, Finset.sum_range_one, coeffs_apply, coeffs_apply,
      Nat.cast_zero, Nat.cast_one, hone, hzero, C_mul_X_eq_monomial, monomial_zero_left, C_1]
  have hVT2 : ∀ i : ℕ, i < M → c₂ .RELS_tmp_VT2 i = (observer (k + 1)).coeff i := fun i hi => by
    have hclear : c₁ .RELS_tmp_VT2 i = 0 := by simp [c₁, h.VT2 i hi]
    simp only [c₂]
    rw [exec_fconv_eq_coeff (by decide) (by decide) hclear, hA0, hfactor, observer_succ]
  rw [hexec]
  refine ⟨fun i hi => ?_, ?_, ?_, fun i hi => exec_matrixInit0_row hi⟩
  · rw [exec_matrixInit0_of_ne (by decide), exec_matrixCopy_row (by decide) hi, hVT2 i hi]
  · simpa [c₂] using hzero
  · simpa [c₂] using hone

theorem observerInv_calcA0 (hM : NA0.toNat < M) :
    ObserverInv M NA0.toNat ((calcA0 M NA0).exec c) := by
  let c₀ := (do
    matrixInit0 .A0 1 M
    matrixInit0 .RELS_tmp_VT1 1 M
    matrixInit0 .RELS_tmp_VT2 1 M
    wr .A0 0 1
    wr .RELS_tmp_VT1 0 1
    wr .RELS_tmp_VT1 1 (3 / 10) : Prog Arr ℚ Unit).exec c
  have hexec : (calcA0 M NA0).exec c =
      (loop NA0.toNat fun RELS_i => observerRound M RELS_i).exec c₀ := by
    simp [calcA0, c₀]
  have hstart : ObserverInv M 0 c₀ := by
    refine ⟨fun i hi => ?_, ?_, ?_, fun i hi => ?_⟩
    · by_cases h0 : i = 0
      · subst h0
        simp [c₀, observer]
      · simp [c₀, observer, coeff_one, h0, exec_matrixInit0_row hi]
    · simp [c₀]
    · simp [c₀]
    · simp [c₀, exec_matrixInit0_row hi]
  rw [hexec]
  exact exec_loop_induct (fun k c' => ObserverInv M k c') hstart
    fun k hk c' h => h.round (by omega)

theorem exec_observerRound_of_notMem {k : ℕ}
    (hb : b ∉ [Arr.A0, .RELS_tmp_VT1, .RELS_tmp_VT2]) :
    (observerRound M k).exec c b = c b := by
  simp only [List.mem_cons, List.not_mem_nil, or_false, not_or] at hb
  obtain ⟨h1, h2, h3⟩ := hb
  simp [observerRound, h1, h2, h3]

theorem exec_calcA0_of_notMem (hb : b ∉ [Arr.A0, .RELS_tmp_VT1, .RELS_tmp_VT2]) :
    (calcA0 M NA0).exec c b = c b := by
  have hloop : ∀ n (c' : Cells Arr ℚ),
      (loop n fun RELS_i => observerRound M RELS_i).exec c' b = c' b := fun n c' =>
    exec_loop_induct (fun _ c'' => c'' b = c' b) rfl fun k _ c'' h =>
      (exec_observerRound_of_notMem hb).trans h
  simp only [List.mem_cons, List.not_mem_nil, or_false, not_or] at hb
  obtain ⟨h1, h2, h3⟩ := hb
  simp [calcA0, hloop, h1, h2, h3]

/-! ## AA -/

theorem exec_calcAA_of_ne (hb : b ≠ .AA) : (calcAA M NA0 NAM).exec c b = c b := by
  simp [calcAA, hb]

/-- The coefficients of `A0*Am`, when `A0` has at least one coefficient. -/
theorem exec_calcAA {i : ℕ} (hi : i < M) :
    (calcAA M NA0 NAM).exec c .AA i =
      (ofCoeffs (NA0 + 1).toNat (coeffs (c .A0)) *
        ofCoeffs (NAM + 1).toNat (coeffs (c .AM))).coeff i := by
  rw [calcAA, exec_bind, exec_fconv_eq_coeff (by decide) (by decide) (exec_matrixInit0_row hi),
    exec_matrixInit0_of_ne (by decide), exec_matrixInit0_of_ne (by decide)]

/-! ## What init leaves -/

section Init

variable {ML : ℤ}

theorem exec_initProg_AM (i : ℤ) :
    (initProg M NA0 NAM ML am1 am2 am3).exec c .AM i = (setAM M am1 am2 am3).exec c .AM i := by
  simp only [initProg, exec_bind]
  rw [Estimator.exec_initThetaeP_of_notMem (by decide), exec_calcAA_of_ne (by decide),
    exec_calcA0_of_notMem (by decide)]

theorem exec_initProg_A0 (hM : NA0.toNat < M) {i : ℕ} (hi : i < M) :
    (initProg M NA0 NAM ML am1 am2 am3).exec c .A0 i = (observer NA0.toNat).coeff i := by
  simp only [initProg, exec_bind]
  rw [Estimator.exec_initThetaeP_of_notMem (by decide), exec_calcAA_of_ne (by decide)]
  exact (observerInv_calcA0 hM).A0 i hi

/-- `AA` holds the coefficients of `A0*Am`. -/
theorem exec_initProg_AA (hNA0 : 0 ≤ NA0) (hM : NA0.toNat < M) {i : ℕ} (hi : i < M) :
    (initProg M NA0 2 ML am1 am2 am3).exec c .AA i =
      (observer NA0.toNat * (C am1 + C am2 * X + C am3 * X ^ 2)).coeff i := by
  have hA0 : ofCoeffs (NA0 + 1).toNat (coeffs ((calcA0 M NA0).exec
      ((setAM M am1 am2 am3).exec c) .A0)) = observer NA0.toNat :=
    ofCoeffs_eq ((natDegree_observer_le _).trans_lt (by omega))
      fun j hj => (coeffs_apply _ _).trans ((observerInv_calcA0 hM).A0 j (by omega))
  have hAM : ofCoeffs ((2 : ℤ) + 1).toNat (coeffs ((setAM M am1 am2 am3).exec c .AM)) =
      C am1 + C am2 * X + C am3 * X ^ 2 := by
    rw [show ((2 : ℤ) + 1).toNat = 3 from rfl, ofCoeffs, Finset.sum_range_succ,
      Finset.sum_range_succ, Finset.sum_range_one, coeffs_apply, coeffs_apply, coeffs_apply,
      Nat.cast_zero, Nat.cast_one, Nat.cast_two, exec_setAM_zero, exec_setAM_one, exec_setAM_two,
      monomial_zero_left, C_mul_X_eq_monomial, C_mul_X_pow_eq_monomial]
  simp only [initProg, exec_bind]
  rw [Estimator.exec_initThetaeP_of_notMem (by decide), exec_calcAA hi, hA0,
    exec_calcA0_of_notMem (b := .AM) (by decide), hAM]

/-- `AA` is monic when `Am` is, and not set at all for a negative observer
    degree. -/
theorem exec_initProg_AA_zero (hM : NA0.toNat < M) (hNAM : 0 ≤ NAM) :
    (initProg M NA0 NAM ML am1 am2 am3).exec c .AA 0 = if 0 ≤ NA0 then am1 else 0 := by
  simp only [initProg, exec_bind]
  rw [Estimator.exec_initThetaeP_of_notMem (by decide), ← Nat.cast_zero,
    exec_calcAA (by omega), mul_coeff_zero, coeff_ofCoeffs, coeff_ofCoeffs,
    exec_calcA0_of_notMem (b := .AM) (by decide), coeffs_apply, coeffs_apply,
    (observerInv_calcA0 hM).A0 0 (by omega), coeff_observer_zero, Nat.cast_zero,
    exec_setAM_zero, if_pos (by omega : 0 < (NAM + 1).toNat)]
  by_cases h : 0 ≤ NA0
  · rw [if_pos h, if_pos (by omega), one_mul]
  · rw [if_neg h, if_neg (by omega), zero_mul]

theorem est_initProg {n : ℕ} (hn : ML.toNat = n) :
    Estimator.est n ((initProg M NA0 NAM ML am1 am2 am3).exec c) = Estimator.initial n := by
  subst hn
  simp only [initProg, exec_bind]
  exact Estimator.est_initThetaeP

theorem thetae_1_initProg {n : ℕ} (hn : ML.toNat = n) :
    asVec n ((initProg M NA0 NAM ML am1 am2 am3).exec c .thetae_1) = fun _ => 1 / 1000 := by
  subst hn
  simp only [initProg, exec_bind]
  exact Estimator.thetae_1_initThetaeP

end Init

/-! ## The regressor -/

section Regressor

variable {NF NG D : ℤ} {CDataYFK CDataUFK : ℤ → ℚ}

theorem exec_ufkYfk_of_ne (hb : b ≠ .phie) :
    (ufkYfk NF NG D CDataYFK CDataUFK).exec c b = c b := by
  rw [ufkYfk, exec_bind, (fillsRow_wr _ _ _).frame b hb, (fillsRow_wr_zero _ _).frame b hb]

theorem within_ufkYfk {ok : Access Arr ℚ → Prop}
    (hu : ∀ i : ℕ, i < (NF + 1).toNat → ok (.write .phie i))
    (hy : ∀ i : ℕ, i < (NG + 1).toNat → ok (.write .phie (NF + 1 + i))) :
    Within ok (ufkYfk NF NG D CDataYFK CDataUFK) :=
  (within_loop fun i hi => within_wr (hu i hi)).bind fun _ =>
    within_loop fun i hi => within_wr (hy i hi)

theorem exec_ufkYfk_u (hNF : 0 ≤ NF + 1) {i : ℕ} (hi : i < NF + 1) :
    (ufkYfk NF NG D CDataYFK CDataUFK).exec c .phie i = CDataUFK (D + i) := by
  rw [ufkYfk, exec_bind, (fillsRow_wr _ _ _).rest _ fun j _ => by omega,
    (fillsRow_wr_zero _ _).cell i (by omega)]

theorem exec_ufkYfk_y {i : ℕ} (hi : i < NG + 1) :
    (ufkYfk NF NG D CDataYFK CDataUFK).exec c .phie (NF + 1 + i) = CDataYFK (D + i) := by
  rw [ufkYfk, exec_bind, (fillsRow_wr _ _ _).cell i (by omega)]

/-- The regressor against a parameter vector. -/
theorem phie_ufkYfk_dotProduct (hNF : 0 ≤ NF + 1) (hNG : 0 ≤ NG + 1) {n : ℕ}
    (hn : (n : ℤ) = NF + 1 + NG + 1) (θ : ℕ → ℚ) :
    Estimator.phie n ((ufkYfk NF NG D CDataYFK CDataUFK).exec c) ⬝ᵥ (fun i => θ i) =
      ∑ j ∈ Finset.range (NF + 1).toNat, θ j * CDataUFK (D + j) +
        ∑ j ∈ Finset.range (NG + 1).toNat, θ ((NF + 1).toNat + j) * CDataYFK (D + j) := by
  obtain rfl : n = (NF + 1).toNat + (NG + 1).toNat := by omega
  simp only [dotProduct, Estimator.phie, asVec_apply]
  rw [← Finset.sum_range fun i : ℕ =>
    (ufkYfk NF NG D CDataYFK CDataUFK).exec c .phie i * θ i, Finset.sum_range_add]
  congr 1
  · refine Finset.sum_congr rfl fun j hj => ?_
    rw [Finset.mem_range] at hj
    rw [exec_ufkYfk_u hNF (by omega), mul_comm]
  · refine Finset.sum_congr rfl fun j hj => ?_
    rw [Finset.mem_range] at hj
    have hidx : (((NF + 1).toNat + j : ℕ) : ℤ) = NF + 1 + j := by omega
    rw [hidx, exec_ufkYfk_y (by omega), mul_comm]

theorem phie_ufkYfk_eq_zero_iff (hNF : 0 ≤ NF + 1) (hNG : 0 ≤ NG + 1) {n : ℕ}
    (hn : (n : ℤ) = NF + 1 + NG + 1) :
    Estimator.phie n ((ufkYfk NF NG D CDataYFK CDataUFK).exec c) = 0 ↔
      (∀ j : ℕ, (j : ℤ) ≤ NF → CDataUFK (D + j) = 0) ∧
        ∀ j : ℕ, (j : ℤ) ≤ NG → CDataYFK (D + j) = 0 := by
  constructor
  · intro h
    have hcell : ∀ i : ℕ, i < n → (ufkYfk NF NG D CDataYFK CDataUFK).exec c .phie i = 0 :=
      fun i hi => congrFun h ⟨i, hi⟩
    refine ⟨fun j hj => ?_, fun j hj => ?_⟩
    · exact (exec_ufkYfk_u hNF (by omega)).symm.trans (hcell j (by omega))
    · have hidx := hcell ((NF + 1).toNat + j) (by omega)
      rw [Nat.cast_add, Int.toNat_of_nonneg hNF] at hidx
      exact (exec_ufkYfk_y (by omega)).symm.trans hidx
  · rintro ⟨hU, hY⟩
    funext i
    have hi := i.isLt
    by_cases hiNF : (i : ℤ) < NF + 1
    · exact (exec_ufkYfk_u hNF hiNF).trans (hU i (by omega))
    · obtain ⟨j, hj⟩ : ∃ j : ℕ, (i : ℤ) = NF + 1 + j := ⟨(i - (NF + 1)).toNat, by omega⟩
      rw [Estimator.phie, asVec_apply, hj]
      exact (exec_ufkYfk_y (by omega)).trans (hY j (by omega))

end Regressor

/-! ## The scaling by b0 -/

theorem exec_scaleThetae_of_notMem (hb : b ∉ [Arr.BE0, .RELS_tmp_V1]) :
    (scaleThetae ML).exec c b = c b := by
  simp only [List.mem_cons, List.not_mem_nil, or_false, not_or] at hb
  simp [scaleThetae, hb]

theorem exec_scaleThetae_BE0 : (scaleThetae ML).exec c .BE0 0 = c .thetae 0 := by
  simp [scaleThetae]

theorem exec_scaleThetae_V1 {i : ℕ} (hi : i < ML) :
    (scaleThetae ML).exec c .RELS_tmp_V1 i = c .thetae i * (1 / c .thetae 0) := by
  simp [scaleThetae, exec_matrixMultiplyK_row, hi]

section ExtractFG

variable {F : Arr} {NF NG : ℤ}

private theorem fillsRow_F (hF : F ≠ .RELS_tmp_V1) : FillsRow (loop (NF + 1).toNat fun RELS_i => do
      wr F RELS_i (← rd .RELS_tmp_V1 RELS_i)) c F (NF + 1).toNat
    (fun i => i) fun i => c .RELS_tmp_V1 i :=
  FillsRow.of_loop (fun i _ j _ h => by omega) fun i _ c' hframe => Fills.of_rd (by
    rw [hframe _ hF.symm]
    exact fills_wr _ _)

private theorem fillsRow_GE : FillsRow (loop (NG + 1).toNat fun RELS_i => do
      wr .GE RELS_i (← rd .RELS_tmp_V1 (NF + 1 + RELS_i))) c Arr.GE (NG + 1).toNat
    (fun i => i) fun i => c .RELS_tmp_V1 (NF + 1 + i) :=
  FillsRow.of_loop (fun i _ j _ h => by omega) fun i _ c' hframe => Fills.of_rd (by
    rw [hframe _ (by decide)]
    exact fills_wr _ _)

theorem exec_extractFG_of_notMem (hF : F ≠ .RELS_tmp_V1)
    (hb : b ∉ [Arr.BE0, .RELS_tmp_V1, F, .GE]) : (extractFG F NF NG ML).exec c b = c b := by
  simp only [List.mem_cons, List.not_mem_nil, or_false, not_or] at hb
  obtain ⟨h1, h2, h3, h4⟩ := hb
  simp only [extractFG, exec_bind]
  rw [fillsRow_GE.frame b h4, (fillsRow_F hF).frame b h3,
    exec_scaleThetae_of_notMem (by simp [h1, h2])]

theorem exec_extractFG_BE0 (hF : F ≠ .RELS_tmp_V1) (hF' : Arr.BE0 ≠ F) :
    (extractFG F NF NG ML).exec c .BE0 0 = c .thetae 0 := by
  simp only [extractFG, exec_bind]
  rw [fillsRow_GE.frame _ (by decide), (fillsRow_F hF).frame _ hF', exec_scaleThetae_BE0]

/-- The first coefficients of the estimate, scaled. -/
theorem exec_extractFG_F (hF : F ≠ .RELS_tmp_V1) (hF' : F ≠ .GE) (hML : NF + 1 ≤ ML) {i : ℕ}
    (hi : i < NF + 1) :
    (extractFG F NF NG ML).exec c F i = c .thetae i * (1 / c .thetae 0) := by
  simp only [extractFG, exec_bind]
  rw [fillsRow_GE.frame _ hF', (fillsRow_F hF).cell i (by omega), exec_scaleThetae_V1 (by omega)]

/-- The others, scaled. -/
theorem exec_extractFG_GE (hF : F ≠ .RELS_tmp_V1) (hNF : 0 ≤ NF + 1) (hML : NF + 1 + NG + 1 ≤ ML)
    {i : ℕ} (hi : i < NG + 1) :
    (extractFG F NF NG ML).exec c .GE i = c .thetae (NF + 1 + i) * (1 / c .thetae 0) := by
  obtain ⟨j, hj⟩ : ∃ j : ℕ, (j : ℤ) = NF + 1 + i := ⟨(NF + 1 + i).toNat, by omega⟩
  simp only [extractFG, exec_bind]
  rw [fillsRow_GE.cell i (by omega), (fillsRow_F hF).frame _ hF.symm, ← hj,
    exec_scaleThetae_V1 (by omega)]

end ExtractFG

/-! ## R -/

/-- `be0` as `calcR` leaves it. -/
def clampBE0 (be0 : ℚ) : ℚ :=
  if be0 < 1 / 100000 ∧ be0 > -(1 / 100000) then 1 / 100000 else be0

theorem ne_zero_of_guard {be0 : ℚ} (h : 1 / 100000 ≤ |be0|) : be0 ≠ 0 := by
  rintro rfl
  rw [abs_zero] at h
  norm_num at h

theorem clampBE0_of_le {be0 : ℚ} (h : 1 / 100000 ≤ |be0|) : clampBE0 be0 = be0 := by
  rw [clampBE0, if_neg]
  rintro ⟨hlt, hgt⟩
  exact absurd h (not_le.mpr (abs_lt.mpr ⟨hgt, hlt⟩))

private theorem fills_sumAM : Fills (sumAM NAM) c .RELS_tmp_U1 {(0 : ℤ)}
    fun _ => ∑ k ∈ Finset.range (NAM + 1).toNat, c .AM (k : ℕ) := by
  have hzero := fills_wr (c := c) (a := Arr.RELS_tmp_U1) 0 (0 : ℚ)
  have hsum : Fills (loop (NAM + 1).toNat fun RELS_i => do
      wr .RELS_tmp_U1 0 ((← rd .RELS_tmp_U1 0) + (← rd .AM RELS_i)))
      ((wr .RELS_tmp_U1 0 (0 : ℚ)).exec c) .RELS_tmp_U1 {(0 : ℤ)} _ :=
    Fills.accumulate (t := fun k => c .AM (k : ℕ)) fun k _ c' hframe =>
      Fills.of_rd (Fills.of_rd (by
        rw [hframe .AM (by decide), hzero.frame .AM (by decide)]
        exact fills_wr _ _))
  refine (hzero.seq hsum).congr fun q _ => ?_
  rw [exec_wr_self, zero_add]

private theorem exec_sumAM_of_ne (hb : b ≠ .RELS_tmp_U1) : (sumAM NAM).exec c b = c b :=
  fills_sumAM.frame b hb

private theorem exec_sumAM : (sumAM NAM).exec c .RELS_tmp_U1 0 =
    ∑ k ∈ Finset.range (NAM + 1).toNat, c .AM (k : ℕ) :=
  fills_sumAM.hit 0 rfl

private theorem exec_guardBE0_of_ne (hb : b ≠ .BE0) : guardBE0.exec c b = c b := by
  simp only [guardBE0, exec_bind, exec_rd, result_rd]
  split
  · exact exec_wr_of_ne _ hb
  · rfl

private theorem exec_guardBE0 : guardBE0.exec c .BE0 0 = clampBE0 (c .BE0 0) := by
  simp only [guardBE0, exec_bind, exec_rd, result_rd, clampBE0]
  split
  · exact exec_wr_self _
  · rfl

theorem exec_calcR_of_notMem (hb : b ∉ [Arr.R, .RELS_tmp_U1, .BE0]) :
    (calcR M NAM).exec c b = c b := by
  simp only [List.mem_cons, List.not_mem_nil, or_false, not_or] at hb
  obtain ⟨h1, h2, h3⟩ := hb
  simp [calcR, exec_sumAM_of_ne, exec_guardBE0_of_ne, h1, h2, h3]

theorem exec_calcR_BE0 : (calcR M NAM).exec c .BE0 0 = clampBE0 (c .BE0 0) := by
  simp [calcR, exec_sumAM_of_ne, exec_guardBE0]

theorem exec_calcR_R {i : ℕ} (hi : i < M) :
    (calcR M NAM).exec c .R i =
      c .A0 i * ((∑ k ∈ Finset.range (NAM + 1).toNat, c .AM (k : ℕ)) / clampBE0 (c .BE0 0)) := by
  simp [calcR, exec_sumAM_of_ne, exec_guardBE0_of_ne, exec_sumAM, exec_guardBE0,
    exec_matrixMultiplyK_row, hi]

end Spec

end Polynomials
