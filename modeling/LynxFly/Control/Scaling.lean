-- SUMMARY: What ClcFGR divides by, and when FE, GE and R are all scaled by the b0 it leaves.
import LynxFly.Control.PolePlacement

/-!
# The scaling of the controller

`ClcFGR` divides the estimate by `be0` before it keeps `be0` off zero, and the
sum of `Am` after it.
-/

open Buffers Buffers.Prog LibMatrix LibMyMath Estimator Polynomials

namespace Polynomials

section Divisors

variable {c : Cells Arr ℚ} {M ML : ℕ} {NAM NF NG : ℤ} {F : Arr}

theorem divisors_scaleThetae : divisors (scaleThetae ML) c = [c .thetae 0] := by
  have hscale : ∀ k c', divisors (matrixMultiplyK Arr.thetae k 1 ML .RELS_tmp_V1) c' = [] :=
    fun k c' => divisors_of_within (within_matrixMultiplyK (room_isCell _ _) (room_isCell _ _))
  have hwr : ∀ v c', divisors (wr Arr.BE0 0 v : Prog Arr ℚ Unit) c' = [] :=
    fun v c' => divisors_of_within (within_wr trivial)
  unfold scaleThetae
  simp only [divisors_bind, divisors_rd, divisors_fdiv, hwr, hscale, List.nil_append,
    List.append_nil]
  simp

theorem divisors_extractFG : divisors (extractFG F NF NG ML) c = [c .thetae 0] := by
  have hF : ∀ c' : Cells Arr ℚ, divisors (loop (NF + 1).toNat fun RELS_i => do
      wr F RELS_i (← rd .RELS_tmp_V1 RELS_i)) c' = [] := fun c' =>
    divisors_of_within (within_loop fun _ _ => (within_rd trivial).bind fun _ => within_wr trivial)
  have hG : ∀ c' : Cells Arr ℚ, divisors (loop (NG + 1).toNat fun RELS_i => do
      wr Arr.GE RELS_i (← rd .RELS_tmp_V1 (NF + 1 + RELS_i))) c' = [] := fun c' =>
    divisors_of_within (within_loop fun _ _ => (within_rd trivial).bind fun _ => within_wr trivial)
  unfold extractFG
  rw [divisors_bind, divisors_bind, divisors_scaleThetae, hF, hG]
  rfl

theorem divisors_calcR : divisors (calcR M NAM) c = [clampBE0 (c .BE0 0)] := by
  have hinit : ∀ c', divisors (matrixInit0 Arr.R 1 M) c' = [] := fun c' =>
    divisors_of_within (within_matrixInit0 (room_isCell _ _))
  have hsum : ∀ c', divisors (sumAM NAM) c' = [] := fun c' =>
    divisors_of_within ((within_wr trivial).bind fun _ => within_loop fun _ _ =>
      (within_rd trivial).bind fun _ => (within_rd trivial).bind fun _ => within_wr trivial)
  have hguard : ∀ c', divisors guardBE0 c' = [] := fun c' =>
    divisors_of_within ((within_rd trivial).bind fun _ =>
      within_ite (fun _ => within_wr trivial) fun _ => within_pure ())
  have hwr : ∀ v c', divisors (wr Arr.RELS_tmp_U1 0 v : Prog Arr ℚ Unit) c' = [] :=
    fun v c' => divisors_of_within (within_wr trivial)
  have hscale : ∀ k c', divisors (matrixMultiplyK Arr.A0 k 1 M .R) c' = [] :=
    fun k c' => divisors_of_within (within_matrixMultiplyK (room_isCell _ _) (room_isCell _ _))
  have hBE0 : (calcR M NAM).exec c .BE0 0 = clampBE0 (c .BE0 0) := exec_calcR_BE0
  unfold calcR at hBE0 ⊢
  simp only [divisors_bind, divisors_rd, divisors_fdiv, hinit, hsum, hguard, hwr, hscale,
    List.nil_append, List.append_nil]
  simpa using hBE0

end Divisors

/-- Off the dead zone, and only there, the estimate is scaled by the `be0` that is left. -/
theorem clampBE0_mul_div_iff {θ0 : ℚ} :
    (θ0 ≠ 0 ∧ clampBE0 θ0 * (θ0 * (1 / θ0)) = θ0) ↔ 1 / 100000 ≤ |θ0| := by
  constructor
  · rintro ⟨h0, heq⟩
    rw [mul_one_div_cancel h0, mul_one] at heq
    by_contra hlt
    have habs := abs_lt.mp (not_le.mp hlt)
    rw [clampBE0, if_pos ⟨habs.2, habs.1⟩] at heq
    exact absurd habs.2 (by rw [heq]; exact lt_irrefl _)
  · intro h
    have h0 : θ0 ≠ 0 := ne_zero_of_guard h
    exact ⟨h0, by rw [clampBE0_of_le h, mul_one_div_cancel h0, mul_one]⟩

end Polynomials

/-! ## PPCFFRELS -/

namespace PPCFFRELS

section Scaled

variable {M : ℕ} {r : PPCFFRELS} {na nb d : ℤ}

theorem divisors_clcFGRProg :
    divisors (r.clcFGRProg M) r.arr = [r.arr .thetae 0, clampBE0 (r.arr .thetae 0)] := by
  unfold clcFGRProg
  rw [divisors_bind, divisors_extractFG, divisors_calcR,
    exec_extractFG_BE0 (by decide) (by decide)]
  rfl

theorem clcFGR_BE0 : (r.clcFGR M).arr .BE0 0 = clampBE0 (r.arr .thetae 0) := by
  simp only [clcFGR, clcFGRProg, exec_bind]
  rw [exec_calcR_BE0, exec_extractFG_BE0 (by decide) (by decide)]

/-- `ClcFGR` divides by no zero, and the `BE0` it leaves scales all of its results. -/
structure ScaledByBE0 (M : ℕ) (r : PPCFFRELS) : Prop where
  div : ∀ x ∈ divisors (r.clcFGRProg M) r.arr, x ≠ 0
  FE : ∀ j : ℕ, j < r.NF + 1 →
    (r.clcFGR M).arr .BE0 0 * (r.clcFGR M).arr .FE j = r.arr .thetae j
  GE : ∀ j : ℕ, j < r.NG + 1 →
    (r.clcFGR M).arr .BE0 0 * (r.clcFGR M).arr .GE j = r.arr .thetae (r.NF + 1 + j)
  R : ∀ i : ℕ, i < M → (r.clcFGR M).arr .BE0 0 * (r.clcFGR M).arr .R i =
    (∑ k ∈ Finset.range (r.NAM + 1).toNat, r.arr .AM (k : ℕ)) * r.arr .A0 i

/-- The arrays have no say in the degrees. -/
theorem Degrees.setArr (h : Degrees na nb d r) (arr : Cells Arr ℚ) :
    Degrees na nb d { r with arr := arr } := by
  cases h
  constructor <;> assumption

theorem Fits.setArr (h : r.Fits M) (arr : Cells Arr ℚ) : Fits M { r with arr := arr } := by
  cases h
  constructor <;> assumption

theorem scaledByBE0_of_guard (hdeg : Degrees na nb d r) (hfits : r.Fits M)
    (h : 1 / 100000 ≤ |r.arr .thetae 0|) : r.ScaledByBE0 M := by
  have h0 : r.arr .thetae 0 ≠ 0 := ne_zero_of_guard h
  have hML := hdeg.ML_eq
  have hNF := hfits.NF
  have hNG := hfits.NG
  have hBE0 : (r.clcFGR M).arr .BE0 0 = r.arr .thetae 0 := by
    rw [clcFGR_BE0, clampBE0_of_le h]
  constructor
  · intro x hx
    rw [divisors_clcFGRProg, clampBE0_of_le h] at hx
    simp only [List.mem_cons, List.not_mem_nil, or_false, or_self] at hx
    exact hx ▸ h0
  · intro j hj
    rw [hBE0, clcFGR_FE hj (by omega)]
    field_simp
  · intro j hj
    rw [hBE0, clcFGR_GE (by omega) hj (by omega)]
    field_simp
  · intro i hi
    rw [hBE0, clcFGR_R hi, clampBE0_of_le h]
    field_simp

theorem ScaledByBE0.guard (h : r.ScaledByBE0 M) (hdeg : Degrees na nb d r)
    (hfits : r.Fits M) : 1 / 100000 ≤ |r.arr .thetae 0| := by
  have hML := hdeg.ML_eq
  have hNF := hfits.NF
  have hNG := hfits.NG
  have h0 : r.arr .thetae 0 ≠ 0 :=
    h.div _ (by rw [divisors_clcFGRProg]; exact List.mem_cons_self)
  have hFE := h.FE 0 (by omega)
  rw [clcFGR_BE0, clcFGR_FE (by omega) (by omega), Nat.cast_zero] at hFE
  exact clampBE0_mul_div_iff.mp ⟨h0, hFE⟩

end Scaled

end PPCFFRELS

/-! ## CFFRELS -/

namespace CFFRELS

section Scaled

variable {M : ℕ} {r : CFFRELS} {na nb d : ℤ}

theorem divisors_integrateF {NF1 : ℤ} {c : Cells Arr ℚ} : divisors (integrateF M NF1) c = [] :=
  divisors_of_within ((within_matrixInit0 (room_isCell _ _)).bind fun _ =>
    (within_wr trivial).bind fun _ => (within_wr trivial).bind fun _ =>
    (within_matrixInit0 (room_isCell _ _)).bind fun _ =>
    within_fconv (room_isCell _ _) (room_isCell _ _) (room_isCell _ _))

theorem divisors_clcFGRProg :
    divisors (r.clcFGRProg M) r.arr = [r.arr .thetae 0, clampBE0 (r.arr .thetae 0)] := by
  unfold clcFGRProg
  rw [divisors_bind, divisors_bind, divisors_extractFG, divisors_integrateF, divisors_calcR,
    exec_integrateF_of_notMem (by decide), exec_extractFG_BE0 (by decide) (by decide)]
  rfl

theorem clcFGR_BE0 : (r.clcFGR M).arr .BE0 0 = clampBE0 (r.arr .thetae 0) := by
  simp only [clcFGR, clcFGRProg, exec_bind]
  rw [exec_calcR_BE0, exec_integrateF_of_notMem (by decide),
    exec_extractFG_BE0 (by decide) (by decide)]

/-- `ClcFGR` divides by no zero, and the `BE0` it leaves scales all of its results. -/
structure ScaledByBE0 (M : ℕ) (r : CFFRELS) : Prop where
  div : ∀ x ∈ divisors (r.clcFGRProg M) r.arr, x ≠ 0
  F1E : ∀ j : ℕ, j < r.NF1 + 1 →
    (r.clcFGR M).arr .BE0 0 * (r.clcFGR M).arr .F1E j = r.arr .thetae j
  GE : ∀ j : ℕ, j < r.NG + 1 →
    (r.clcFGR M).arr .BE0 0 * (r.clcFGR M).arr .GE j = r.arr .thetae (r.NF1 + 1 + j)
  R : ∀ i : ℕ, i < M → (r.clcFGR M).arr .BE0 0 * (r.clcFGR M).arr .R i =
    (∑ k ∈ Finset.range (r.NAM + 1).toNat, r.arr .AM (k : ℕ)) * r.arr .A0 i

/-- The arrays have no say in the degrees. -/
theorem Degrees.setArr (h : Degrees na nb d r) (arr : Cells Arr ℚ) :
    Degrees na nb d { r with arr := arr } := by
  cases h
  constructor <;> assumption

theorem Fits.setArr (h : r.Fits M) (arr : Cells Arr ℚ) : Fits M { r with arr := arr } := by
  cases h
  constructor <;> assumption

theorem scaledByBE0_of_guard (hdeg : Degrees na nb d r) (hfits : r.Fits M)
    (h : 1 / 100000 ≤ |r.arr .thetae 0|) : r.ScaledByBE0 M := by
  have h0 : r.arr .thetae 0 ≠ 0 := ne_zero_of_guard h
  have hML := hdeg.ML_eq
  have hNF1 := hfits.NF1
  have hNG := hfits.NG
  have hBE0 : (r.clcFGR M).arr .BE0 0 = r.arr .thetae 0 := by
    rw [clcFGR_BE0, clampBE0_of_le h]
  constructor
  · intro x hx
    rw [divisors_clcFGRProg, clampBE0_of_le h] at hx
    simp only [List.mem_cons, List.not_mem_nil, or_false, or_self] at hx
    exact hx ▸ h0
  · intro j hj
    rw [hBE0, clcFGR_F1E hj (by omega)]
    field_simp
  · intro j hj
    rw [hBE0, clcFGR_GE (by omega) hj (by omega)]
    field_simp
  · intro i hi
    rw [hBE0, clcFGR_R hi, clampBE0_of_le h]
    field_simp

theorem ScaledByBE0.guard (h : r.ScaledByBE0 M) (hdeg : Degrees na nb d r)
    (hfits : r.Fits M) : 1 / 100000 ≤ |r.arr .thetae 0| := by
  have hML := hdeg.ML_eq
  have hNF1 := hfits.NF1
  have hNG := hfits.NG
  have h0 : r.arr .thetae 0 ≠ 0 :=
    h.div _ (by rw [divisors_clcFGRProg]; exact List.mem_cons_self)
  have hF1E := h.F1E 0 (by omega)
  rw [clcFGR_BE0, clcFGR_F1E (by omega) (by omega), Nat.cast_zero] at hF1E
  exact clampBE0_mul_div_iff.mp ⟨h0, hF1E⟩

end Scaled

end CFFRELS

/-! ## Both structs -/

/-- The controller is scaled by the `BE0` that is left exactly when the first
    parameter lies off the dead zone: inside it, `ClcFGR` divides by a `be0` that it
    replaces afterwards. -/
theorem scaledByBE0_iff {M : ℕ} {na nb d : ℤ} :
    (∀ r : PPCFFRELS, PPCFFRELS.Degrees na nb d r → r.Fits M →
      (r.ScaledByBE0 M ↔ 1 / 100000 ≤ |r.arr .thetae 0|)) ∧
    ∀ r : CFFRELS, CFFRELS.Degrees na nb d r → r.Fits M →
      (r.ScaledByBE0 M ↔ 1 / 100000 ≤ |r.arr .thetae 0|) := by
  refine ⟨fun r hdeg hfits => ?_, fun r hdeg hfits => ?_⟩
  · exact ⟨fun h => h.guard hdeg hfits, PPCFFRELS.scaledByBE0_of_guard hdeg hfits⟩
  · exact ⟨fun h => h.guard hdeg hfits, CFFRELS.scaledByBE0_of_guard hdeg hfits⟩

theorem secondOrder_scaledByBE0 :
    (PPCFFRELS.secondOrder 1 (-13 / 10) (48 / 100)).ScaledByBE0 PPCFFRELS.ML_A ∧
      (CFFRELS.secondOrder 1 (-16 / 10) (66 / 100)).ScaledByBE0 CFFRELS.ML_A :=
  ⟨(scaledByBE0_iff.1 _ PPCFFRELS.secondOrder_degrees PPCFFRELS.secondOrder_fits).mpr
      PPCFFRELS.secondOrder_guard,
    (scaledByBE0_iff.2 _ CFFRELS.secondOrder_degrees CFFRELS.secondOrder_fits).mpr
      CFFRELS.secondOrder_guard⟩

/-- An estimate whose first parameter is `0` makes `ClcFGR` divide by zero, and one
    that is merely small leaves `FE` and `F1E` scaled by another value than `BE0`. -/
theorem secondOrder_dead_zone :
    (¬ ({ PPCFFRELS.secondOrder 1 (-13 / 10) (48 / 100) with arr := fun _ _ => 0 } :
        PPCFFRELS).ScaledByBE0 PPCFFRELS.ML_A ∧
      ¬ ({ PPCFFRELS.secondOrder 1 (-13 / 10) (48 / 100) with arr := fun _ _ => 1 / 200000 } :
        PPCFFRELS).ScaledByBE0 PPCFFRELS.ML_A) ∧
    ¬ ({ CFFRELS.secondOrder 1 (-16 / 10) (66 / 100) with arr := fun _ _ => 0 } :
        CFFRELS).ScaledByBE0 CFFRELS.ML_A ∧
      ¬ ({ CFFRELS.secondOrder 1 (-16 / 10) (66 / 100) with arr := fun _ _ => 1 / 200000 } :
        CFFRELS).ScaledByBE0 CFFRELS.ML_A := by
  have hppDeg : PPCFFRELS.Degrees 2 1 1 (PPCFFRELS.secondOrder 1 (-13 / 10) (48 / 100)) :=
    PPCFFRELS.secondOrder_degrees
  have hppFits : (PPCFFRELS.secondOrder 1 (-13 / 10) (48 / 100)).Fits PPCFFRELS.ML_A :=
    PPCFFRELS.secondOrder_fits
  have hcfDeg : CFFRELS.Degrees 2 1 1 (CFFRELS.secondOrder 1 (-16 / 10) (66 / 100)) :=
    CFFRELS.secondOrder_degrees
  have hcfFits : (CFFRELS.secondOrder 1 (-16 / 10) (66 / 100)).Fits CFFRELS.ML_A :=
    CFFRELS.secondOrder_fits
  have hzero : ¬ 1 / 100000 ≤ |(0 : ℚ)| := by norm_num
  have hsmall : ¬ 1 / 100000 ≤ |(1 / 200000 : ℚ)| := by
    rw [abs_of_pos (by norm_num)]
    norm_num
  -- only the degrees of the two structs matter
  generalize PPCFFRELS.secondOrder 1 (-13 / 10) (48 / 100) = r at hppDeg hppFits ⊢
  generalize CFFRELS.secondOrder 1 (-16 / 10) (66 / 100) = r' at hcfDeg hcfFits ⊢
  refine ⟨⟨fun h => ?_, fun h => ?_⟩, fun h => ?_, fun h => ?_⟩
  · exact hzero (h.guard (hppDeg.setArr _) (hppFits.setArr _))
  · exact hsmall (h.guard (hppDeg.setArr _) (hppFits.setArr _))
  · exact hzero (h.guard (hcfDeg.setArr _) (hcfFits.setArr _))
  · exact hsmall (h.guard (hcfDeg.setArr _) (hcfFits.setArr _))
