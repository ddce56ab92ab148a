-- SUMMARY: The residual that RELS_Update and FFRELS_Update return, and RELS_Observ on the same data after them.
import LynxFly.Control.Identification

/-!
# The residual of an update

`RELS_Update`, `FFRELS_Update` and `RELS_Observ` build `phie` by their own copies of the
same loops. The updates evaluate the residual with the parameters they have just
stored, `RELS_Observ` with those it finds.
-/

open Buffers Buffers.Prog LibMatrix Estimator LeastSquares

namespace Estimator

variable {c : Cells Arr ℚ} {n : ℕ} {lambda y : ℚ} {regressor : Prog Arr ℚ Unit}

theorem exec_gainThetaeCovariance_VT1 :
    asVec n ((gainThetaeCovariance n lambda y).exec c .RELS_tmp_VT1) = asVec n (c .phie) := by
  rw [gainThetaeCovariance, exec_bind, exec_bind, exec_covarianceLines_of_notMem (by simp),
    exec_thetaeLines_of_notMem (by simp), exec_gainLines_VT1]

/-- An update leaves its regressor, as a row, in `RELS_tmp_VT1`. -/
theorem VT1_ordinaryUpdate : asVec n ((ordinaryUpdate n regressor y).exec c .RELS_tmp_VT1) =
    phie n ((ordinaryUpdate n regressor y).exec c) := by
  rw [phie_ordinaryUpdate]
  simp [phie, ordinaryUpdate, exec_gainThetaeCovariance_VT1]

theorem VT1_forgettingUpdate :
    asVec n ((forgettingUpdate n regressor lambda y).exec c .RELS_tmp_VT1) =
      phie n ((forgettingUpdate n regressor lambda y).exec c) := by
  rw [phie_forgettingUpdate]
  simp [phie, forgettingUpdate, scaleCovariance, exec_gainThetaeCovariance_VT1]

end Estimator

namespace RELS

/-- The arrays of `RELS_T`; the others are temporaries of its functions. -/
def fields : List Arr := [.phie, .P, .thetae_1, .thetae, .K, .xie]

/-- Two structs with the same contents. -/
structure SameStruct (r r' : RELS) : Prop where
  NA : r'.NA = r.NA
  NB : r'.NB = r.NB
  NC : r'.NC = r.NC
  D : r'.D = r.D
  ML : r'.ML = r.ML
  arr : ∀ b ∈ fields, r'.arr b = r.arr b

/-- The struct after `k` calls of `RELS_Observ` on the same data. -/
def observs (relsIn : RELS) (CDataYE CDataU CDataXiek : ℤ → ℚ) : ℕ → RELS
  | 0 => relsIn
  | k + 1 => ((relsIn.observs CDataYE CDataU CDataXiek k).observ CDataYE CDataU CDataXiek).2

/-- What an update with the factor `c` returns, and what observing the same data
    afterwards does: `r` is the returned value and the struct. -/
structure ReturnsResidual (relsIn : RELS) (n : ℕ) (CDataYE CDataU CDataXiek : ℤ → ℚ) (c : ℚ)
    (r : ℚ × RELS) : Prop where
  /-- The residual is that of the old parameters, shrunk. -/
  xie : r.1 = (CDataYE 0 - phie n r.2.arr ⬝ᵥ (est n relsIn.arr).θ) * c /
    (c + quad (est n relsIn.arr).P (phie n r.2.arr))
  abs_le : |r.1| ≤ |CDataYE 0 - phie n r.2.arr ⬝ᵥ (est n relsIn.arr).θ|
  sign : SignType.sign r.1 =
    SignType.sign (CDataYE 0 - phie n r.2.arr ⬝ᵥ (est n relsIn.arr).θ)
  /-- Observing any number of times changes nothing and returns the same. -/
  observ : ∀ k, SameStruct r.2 (r.2.observs CDataYE CDataU CDataXiek k) ∧
    ((r.2.observs CDataYE CDataU CDataXiek k).observ CDataYE CDataU CDataXiek).1 = r.1

section Spec

variable {relsIn r : RELS} {n : ℕ} {CDataYE CDataU CDataXiek : ℤ → ℚ} {lambda x : ℚ}
variable {c : Cells Arr ℚ} {b : Arr}

/-! ## The residual -/

theorem result_residual : (residual n CDataYE).result c =
    CDataYE 0 - asVec n (c .RELS_tmp_VT1) ⬝ᵥ asVec n (c .thetae) := by
  simp [residual]

theorem exec_residual_xie : (residual n CDataYE).exec c .xie 0 = (residual n CDataYE).result c := by
  simp [residual]

theorem exec_residual_xie_of_ne {i : ℤ} (hi : i ≠ 0) :
    (residual n CDataYE).exec c .xie i = c .xie i := by
  simp [residual, hi]

theorem constant_regressor : Constant (relsIn.regressor CDataYE CDataU CDataXiek) :=
  (constant_loop fun _ _ => constant_wr _ _ _).seq
    ((constant_loop fun _ _ => constant_wr _ _ _).seq (constant_loop fun _ _ => constant_wr _ _ _))

/-! ## Observing -/

/-- The struct holds the regressor of the data, and the residual of its own
    parameters. -/
structure Settled (r : RELS) (CDataYE CDataU CDataXiek : ℤ → ℚ) (x : ℚ) : Prop where
  phie : ∃ c, r.arr .phie = (r.regressor CDataYE CDataU CDataXiek).exec c .phie
  xie : r.arr .xie 0 = x
  residual : x = CDataYE 0 -
    Estimator.phie r.ML.toNat r.arr ⬝ᵥ (est r.ML.toNat r.arr).θ

theorem Settled.observ (h : Settled r CDataYE CDataU CDataXiek x) :
    SameStruct r (r.observ CDataYE CDataU CDataXiek).2 ∧
      (r.observ CDataYE CDataU CDataXiek).1 = x := by
  obtain ⟨c, hc⟩ := h.phie
  have hphie : (r.regressor CDataYE CDataU CDataXiek).exec r.arr .phie = r.arr .phie :=
    constant_regressor.exec_again hc
  have hx : (r.observ CDataYE CDataU CDataXiek).1 = x := by
    rw [h.residual]
    simp only [RELS.observ, call, observProg, result_bind, result_residual]
    rw [asVec_matrixTranspose (by decide), hphie,
      exec_matrixTranspose_of_ne (by decide) (by decide), exec_regressor_of_ne (by decide)]
    rfl
  have hkeep : ∀ b ∉ [Arr.RELS_tmp_UM1, .RELS_tmp_VT1, .xie],
      (r.observ CDataYE CDataU CDataXiek).2.arr b = r.arr b := by
    intro b hb
    simp only [List.mem_cons, List.not_mem_nil, or_false, not_or] at hb
    simp only [RELS.observ, call, observProg, exec_bind]
    rw [exec_residual_of_notMem (by simp [hb]), exec_matrixTranspose_of_ne (by decide) hb.2.1]
    by_cases hb' : b = .phie
    · rw [hb', hphie]
    · exact exec_regressor_of_ne hb'
  have hxie : (r.observ CDataYE CDataU CDataXiek).2.arr .xie = r.arr .xie := by
    funext i
    by_cases hi : i = 0
    · rw [hi, h.xie, ← hx]
      simp only [RELS.observ, call, observProg, exec_bind, result_bind, exec_residual_xie]
    · simp only [RELS.observ, call, observProg, exec_bind]
      rw [exec_residual_xie_of_ne hi, exec_matrixTranspose_of_ne (by decide) (by decide),
        exec_regressor_of_ne (by decide)]
  refine ⟨⟨rfl, rfl, rfl, rfl, rfl, fun b hb => ?_⟩, hx⟩
  by_cases hb' : b = .xie
  · rw [hb', hxie]
  · refine hkeep b fun hmem => ?_
    simp only [fields, List.mem_cons, List.not_mem_nil, or_false] at hb hmem
    rcases hmem with rfl | rfl | rfl
    · simp at hb
    · simp at hb
    · exact hb' rfl

theorem SameStruct.refl : SameStruct r r := ⟨rfl, rfl, rfl, rfl, rfl, fun _ _ => rfl⟩

theorem SameStruct.trans {r' r'' : RELS} (h : SameStruct r r') (h' : SameStruct r' r'') :
    SameStruct r r'' :=
  ⟨h'.NA.trans h.NA, h'.NB.trans h.NB, h'.NC.trans h.NC, h'.D.trans h.D, h'.ML.trans h.ML,
    fun b hb => (h'.arr b hb).trans (h.arr b hb)⟩

theorem SameStruct.settled {r' : RELS} (h : SameStruct r r')
    (hr : Settled r CDataYE CDataU CDataXiek x) : Settled r' CDataYE CDataU CDataXiek x := by
  obtain ⟨c, hc⟩ := hr.phie
  have hreg : r'.regressor CDataYE CDataU CDataXiek = r.regressor CDataYE CDataU CDataXiek := by
    simp only [regressor, h.NA, h.NB, h.NC, h.D]
  have hphie : r'.arr .phie = r.arr .phie := h.arr _ (by decide)
  refine ⟨⟨c, ?_⟩, ?_, ?_⟩
  · rw [hphie, hreg, hc]
  · rw [h.arr _ (by decide), hr.xie]
  · rw [h.ML, est_congr (h.arr _ (by decide)) (h.arr _ (by decide)), Estimator.phie, hphie]
    exact hr.residual

/-- Run lemma: what observing a settled struct does, it does any number of times. -/
theorem Settled.observs (h : Settled r CDataYE CDataU CDataXiek x) (k : ℕ) :
    SameStruct r (r.observs CDataYE CDataU CDataXiek k) ∧
      ((r.observs CDataYE CDataU CDataXiek k).observ CDataYE CDataU CDataXiek).1 = x := by
  have hsame : SameStruct r (r.observs CDataYE CDataU CDataXiek k) := by
    induction k with
    | zero => exact SameStruct.refl
    | succ k ih => exact ih.trans (ih.settled h).observ.1
  exact ⟨hsame, (hsame.settled h).observ.2⟩

/-! ## Updating -/

/-- An update that ends with its residual leaves a settled struct. -/
theorem settled_call {p : Prog Arr ℚ Unit}
    (hphie : ∃ c, p.exec relsIn.arr .phie =
      (relsIn.regressor CDataYE CDataU CDataXiek).exec c .phie)
    (hVT1 : asVec relsIn.ML.toNat (p.exec relsIn.arr .RELS_tmp_VT1) =
      phie relsIn.ML.toNat (p.exec relsIn.arr)) :
    Settled (relsIn.call (do p; residual relsIn.ML.toNat CDataYE)).2 CDataYE CDataU CDataXiek
      (relsIn.call (do p; residual relsIn.ML.toNat CDataYE)).1 := by
  obtain ⟨c, hc⟩ := hphie
  refine ⟨⟨c, ?_⟩, ?_, ?_⟩
  · simp only [call, exec_bind]
    rw [exec_residual_of_notMem (by decide), hc]
    rfl
  · simp only [call, exec_bind, result_bind, exec_residual_xie]
  · simp only [call, exec_bind, result_bind, result_residual, phie]
    rw [hVT1, exec_residual_of_notMem (by decide),
      est_congr (exec_residual_of_notMem (by decide)) (exec_residual_of_notMem (by decide))]
    rfl

theorem settled_update :
    Settled (relsIn.update CDataYE CDataU CDataXiek).2 CDataYE CDataU CDataXiek
      (relsIn.update CDataYE CDataU CDataXiek).1 := by
  refine settled_call ⟨(matrixCopy .thetae relsIn.ML.toNat 1 .thetae_1).exec relsIn.arr, ?_⟩
    VT1_ordinaryUpdate
  simp [ordinaryUpdate, exec_gainThetaeCovariance_of_notMem (b := .phie) (by decide)]

theorem settled_ffUpdate :
    Settled (relsIn.ffUpdate CDataYE CDataU CDataXiek lambda).2 CDataYE CDataU CDataXiek
      (relsIn.ffUpdate CDataYE CDataU CDataXiek lambda).1 := by
  refine settled_call ⟨(matrixCopy .thetae relsIn.ML.toNat 1 .thetae_1).exec relsIn.arr, ?_⟩
    VT1_forgettingUpdate
  simp [forgettingUpdate, scaleCovariance,
    exec_gainThetaeCovariance_of_notMem (b := .phie) (by decide)]

/-- A call that settles the struct and is an abstract step with the factor `c`. -/
theorem returnsResidual {r : ℚ × RELS} {c : ℚ} (h : Settled r.2 CDataYE CDataU CDataXiek r.1)
    (hn : r.2.ML.toNat = n) (hP : (est n relsIn.arr).P.PosDef) (hc : 0 < c)
    (hest : est n r.2.arr = (est n relsIn.arr).step ⟨phie n r.2.arr, CDataYE 0, c⟩) :
    ReturnsResidual relsIn n CDataYE CDataU CDataXiek c r := by
  subst hn
  have hstep := Est.step_residual (s := ⟨phie r.2.ML.toNat r.2.arr, CDataYE 0, c⟩) hP hc
  have hx := h.residual
  rw [hest] at hx
  replace hx := hx.trans hstep
  have hq := quad_nonneg hP (phie r.2.ML.toNat r.2.arr)
  refine ⟨hx, ?_, ?_, h.observs⟩
  · rw [hx]
    exact abs_shrink_le hc hq
  · rw [hx]
    exact sign_shrink hc hq

/-- Either update returns the old prediction error shrunk by its factor, and
    `RELS_Observ` on the same data after it finds nothing to change. -/
theorem update_returnsResidual (relsIn : RELS) (CDataYE CDataU CDataXiek : ℤ → ℚ) (lambda : ℚ)
    (hP : (est relsIn.ML.toNat relsIn.arr).P.PosDef) :
    ReturnsResidual relsIn relsIn.ML.toNat CDataYE CDataU CDataXiek 1
      (relsIn.update CDataYE CDataU CDataXiek) ∧
    ReturnsResidual relsIn relsIn.ML.toNat CDataYE CDataU CDataXiek (max (9 / 10) (min 1 lambda))
      (relsIn.ffUpdate CDataYE CDataU CDataXiek lambda) := by
  constructor
  · exact returnsResidual settled_update rfl hP one_pos (est_update rfl)
  · exact returnsResidual settled_ffUpdate rfl hP (clamped_pos lambda) (est_ffUpdate rfl)

/-- The default orders. -/
def defaultOrders : RELS := (default : RELS).init 0 0 0 0

theorem defaultOrders_returnsResidual :
    ReturnsResidual defaultOrders defaultOrders.ML.toNat (fun _ => 1) (fun i => i) (fun _ => 0) 1
      (defaultOrders.update (fun _ => 1) (fun i => i) fun _ => 0) ∧
    ReturnsResidual defaultOrders defaultOrders.ML.toNat (fun _ => 1) (fun i => i) (fun _ => 0)
      (max (9 / 10) (min 1 (1 / 2)))
      (defaultOrders.ffUpdate (fun _ => 1) (fun i => i) (fun _ => 0) (1 / 2)) := by
  refine update_returnsResidual defaultOrders (fun _ => 1) (fun i => i) (fun _ => 0) (1 / 2) ?_
  rw [defaultOrders, est_init rfl]
  exact initial_posDef _

end Spec

end RELS
