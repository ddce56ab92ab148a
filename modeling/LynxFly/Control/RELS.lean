-- SUMMARY: The recursive extended least squares estimator of RELS.c.
import LynxFly.Control.Estimator

/-!
# RELS.c

`RELS_T` holds the orders of the identified system and the estimate. The data
arguments are pointers to time sequences, index `0` being the current time; they
are read only.
-/

open Buffers Buffers.Prog LibMatrix Estimator LeastSquares

/-- `RELS_T`. -/
structure RELS where
  NA : ℤ
  NB : ℤ
  NC : ℤ
  D : ℤ
  ML : ℤ
  arr : Cells Arr ℚ
  deriving Inhabited

namespace RELS

/-- The orders, with the defaults for an unset configuration. -/
def setOrders (relsIn : RELS) (na nb nc d : ℤ) : RELS :=
  let relsIn :=
    if na ≤ 0 ∧ nb ≤ 0 ∧ nc ≤ 0 ∧ d ≤ 0 then
      { relsIn with NA := 2, NB := 1, NC := 1, D := 3 }
    else
      { relsIn with NA := na, NB := nb, NC := nc, D := d }
  { relsIn with ML := relsIn.NA + relsIn.NB + 1 + relsIn.NC }

def initProg (ML : ℕ) : Prog Arr ℚ Unit := do
  wr .xie 0 0
  initThetaeP ML

/-- `RELS_init`. -/
def init (relsIn : RELS) (na nb nc d : ℤ) : RELS :=
  let relsIn := relsIn.setOrders na nb nc d
  { relsIn with arr := (initProg relsIn.ML.toNat).exec relsIn.arr }

/-- `phie=[-yk;uk(d:d+nb);xiek]`. -/
def regressor (relsIn : RELS) (CDataYE CDataU CDataXiek : ℤ → ℚ) : Prog Arr ℚ Unit := do
  loop relsIn.NA.toNat fun RELS_i => wr .phie RELS_i (-CDataYE (1 + RELS_i))
  loop (relsIn.NB + 1).toNat fun RELS_i =>
    wr .phie (relsIn.NA + RELS_i) (CDataU (relsIn.D + RELS_i))
  loop relsIn.NC.toNat fun RELS_i =>
    wr .phie (relsIn.NA + (relsIn.NB + 1) + RELS_i) (CDataXiek (1 + RELS_i))

/-- `xie=y(k)-phie'*thetae(:,k)`, which the function returns. -/
def residual (ML : ℕ) (CDataYE : ℤ → ℚ) : Prog Arr ℚ ℚ := do
  matrixMultiply .RELS_tmp_VT1 .thetae 1 ML 1 .RELS_tmp_UM1
  wr .xie 0 (CDataYE 0 - (← rd .RELS_tmp_UM1 0))
  rd .xie 0

def updateProg (relsIn : RELS) (CDataYE CDataU CDataXiek : ℤ → ℚ) : Prog Arr ℚ ℚ := do
  ordinaryUpdate relsIn.ML.toNat (relsIn.regressor CDataYE CDataU CDataXiek) (CDataYE 0)
  residual relsIn.ML.toNat CDataYE

def observProg (relsIn : RELS) (CDataYE CDataU CDataXiek : ℤ → ℚ) : Prog Arr ℚ ℚ := do
  relsIn.regressor CDataYE CDataU CDataXiek
  matrixTranspose .phie relsIn.ML.toNat 1 .RELS_tmp_VT1
  residual relsIn.ML.toNat CDataYE

def ffUpdateProg (relsIn : RELS) (CDataYE CDataU CDataXiek : ℤ → ℚ) (lambda : ℚ) :
    Prog Arr ℚ ℚ := do
  let lambda := clampLambda lambda
  forgettingUpdate relsIn.ML.toNat (relsIn.regressor CDataYE CDataU CDataXiek) lambda (CDataYE 0)
  residual relsIn.ML.toNat CDataYE

/-- A function of the struct: its return value and the struct it leaves. -/
def call (relsIn : RELS) (p : Prog Arr ℚ ℚ) : ℚ × RELS :=
  (p.result relsIn.arr, { relsIn with arr := p.exec relsIn.arr })

/-- `RELS_Update`. -/
def update (relsIn : RELS) (CDataYE CDataU CDataXiek : ℤ → ℚ) : ℚ × RELS :=
  relsIn.call (relsIn.updateProg CDataYE CDataU CDataXiek)

/-- `RELS_Observ`. -/
def observ (relsIn : RELS) (CDataYE CDataU CDataXiek : ℤ → ℚ) : ℚ × RELS :=
  relsIn.call (relsIn.observProg CDataYE CDataU CDataXiek)

/-- `FFRELS_Update`. -/
def ffUpdate (relsIn : RELS) (CDataYE CDataU CDataXiek : ℤ → ℚ) (lambda : ℚ) : ℚ × RELS :=
  relsIn.call (relsIn.ffUpdateProg CDataYE CDataU CDataXiek lambda)

/-! ## One call -/

section Spec

variable {relsIn : RELS} {n : ℕ} {CDataYE CDataU CDataXiek : ℤ → ℚ} {lambda : ℚ}
variable {c : Cells Arr ℚ} {b : Arr}

theorem exec_regressor_of_ne (hb : b ≠ .phie) :
    (relsIn.regressor CDataYE CDataU CDataXiek).exec c b = c b := by
  simp only [regressor, exec_bind]
  rw [(fillsRow_wr _ _ _).frame b hb, (fillsRow_wr _ _ _).frame b hb,
    (fillsRow_wr_zero _ _).frame b hb]

theorem exec_regressor_y {j : ℕ} (hj : j < relsIn.NA) (hNB : 0 ≤ relsIn.NB + 1) :
    (relsIn.regressor CDataYE CDataU CDataXiek).exec c .phie j = -CDataYE (1 + j) := by
  rw [regressor, exec_bind, exec_bind, (fillsRow_wr _ _ _).rest _ fun i _ => by omega,
    (fillsRow_wr _ _ _).rest _ fun i _ => by omega, (fillsRow_wr_zero _ _).cell j (by omega)]

theorem exec_residual_of_notMem (hb : b ∉ [Arr.RELS_tmp_UM1, .xie]) :
    (residual n CDataYE).exec c b = c b := by
  simp only [List.mem_cons, List.not_mem_nil, or_false, not_or] at hb
  simp [residual, hb]

@[simp] theorem init_ML {na nb nc d : ℤ} :
    (relsIn.init na nb nc d).ML = (relsIn.setOrders na nb nc d).ML := rfl

theorem est_init {na nb nc d : ℤ} (hn : (relsIn.init na nb nc d).ML.toNat = n) :
    est n (relsIn.init na nb nc d).arr = initial n := by
  subst hn
  rw [init_ML, init, initProg]
  simp only [exec_bind]
  exact est_initThetaeP

/-- `RELS_Update` is an abstract step without forgetting. -/
theorem est_update (hn : relsIn.ML.toNat = n) :
    est n (relsIn.update CDataYE CDataU CDataXiek).2.arr =
      (est n relsIn.arr).step
        ⟨phie n (relsIn.update CDataYE CDataU CDataXiek).2.arr, CDataYE 0, 1⟩ := by
  subst hn
  simp only [update, call, updateProg, exec_bind, phie,
    exec_residual_of_notMem (b := .phie) (by decide)]
  rw [est_congr (exec_residual_of_notMem (by decide)) (exec_residual_of_notMem (by decide))]
  exact est_ordinaryUpdate fun c b hb => exec_regressor_of_ne hb

/-- `FFRELS_Update` is an abstract step with the clamped factor. -/
theorem est_ffUpdate (hn : relsIn.ML.toNat = n) :
    est n (relsIn.ffUpdate CDataYE CDataU CDataXiek lambda).2.arr =
      (est n relsIn.arr).step
        ⟨phie n (relsIn.ffUpdate CDataYE CDataU CDataXiek lambda).2.arr, CDataYE 0,
          max (9 / 10) (min 1 lambda)⟩ := by
  subst hn
  rw [← clampLambda_eq]
  simp only [ffUpdate, call, ffUpdateProg, exec_bind, phie,
    exec_residual_of_notMem (b := .phie) (by decide)]
  rw [est_congr (exec_residual_of_notMem (by decide)) (exec_residual_of_notMem (by decide))]
  exact est_forgettingUpdate fun c b hb => exec_regressor_of_ne hb

theorem within_regressor :
    Within Access.IsCell (relsIn.regressor CDataYE CDataU CDataXiek) :=
  (within_loop fun _ _ => within_wr trivial).bind fun _ =>
    (within_loop fun _ _ => within_wr trivial).bind fun _ =>
      within_loop fun _ _ => within_wr trivial

/-- The first division of either update is that of the gain. -/
theorem head_divisors_update (hn : relsIn.ML.toNat = n) :
    (divisors (relsIn.updateProg CDataYE CDataU CDataXiek) relsIn.arr).head? =
      some (denom (est n relsIn.arr).P
        (phie n (relsIn.update CDataYE CDataU CDataXiek).2.arr) 1) := by
  subst hn
  have hphie : phie relsIn.ML.toNat (relsIn.update CDataYE CDataU CDataXiek).2.arr =
      phie relsIn.ML.toNat ((ordinaryUpdate relsIn.ML.toNat
        (relsIn.regressor CDataYE CDataU CDataXiek) (CDataYE 0)).exec relsIn.arr) := by
    simp only [update, call, updateProg, exec_bind, phie,
      exec_residual_of_notMem (b := .phie) (by decide)]
  rw [hphie, updateProg, divisors_bind,
    divisors_ordinaryUpdate (fun _ _ hb => exec_regressor_of_ne hb) within_regressor]
  rfl

theorem head_divisors_ffUpdate (hn : relsIn.ML.toNat = n) :
    (divisors (relsIn.ffUpdateProg CDataYE CDataU CDataXiek lambda) relsIn.arr).head? =
      some (denom (est n relsIn.arr).P
        (phie n (relsIn.ffUpdate CDataYE CDataU CDataXiek lambda).2.arr)
        (max (9 / 10) (min 1 lambda))) := by
  subst hn
  rw [← clampLambda_eq]
  have hphie : phie relsIn.ML.toNat (relsIn.ffUpdate CDataYE CDataU CDataXiek lambda).2.arr =
      phie relsIn.ML.toNat ((forgettingUpdate relsIn.ML.toNat
        (relsIn.regressor CDataYE CDataU CDataXiek) (clampLambda lambda)
        (CDataYE 0)).exec relsIn.arr) := by
    simp only [ffUpdate, call, ffUpdateProg, exec_bind, phie,
      exec_residual_of_notMem (b := .phie) (by decide)]
  rw [hphie, ffUpdateProg, divisors_bind,
    divisors_forgettingUpdate (fun _ _ hb => exec_regressor_of_ne hb) within_regressor]
  rfl

/-- `RELS_Observ` does not touch the estimate. -/
theorem est_observ : est n (relsIn.observ CDataYE CDataU CDataXiek).2.arr = est n relsIn.arr := by
  have hframe : ∀ b ∉ [Arr.RELS_tmp_UM1, .xie, .RELS_tmp_VT1, .phie],
      (relsIn.observ CDataYE CDataU CDataXiek).2.arr b = relsIn.arr b := fun b hb => by
    simp only [List.mem_cons, List.not_mem_nil, or_false, not_or] at hb
    simp only [observ, call, observProg, exec_bind]
    rw [exec_residual_of_notMem (by simp [hb]), exec_matrixTranspose_of_ne (by decide) hb.2.2.1,
      exec_regressor_of_ne hb.2.2.2]
  exact est_congr (hframe _ (by decide)) (hframe _ (by decide))

end Spec

end RELS
