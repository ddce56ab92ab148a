-- SUMMARY: The control law of ControlFGR.c.
import Mathlib.Algebra.BigOperators.Intervals
import Mathlib.Algebra.BigOperators.Ring.Finset
import Mathlib.Algebra.Order.Field.Rat
import Mathlib.Tactic.Ring

namespace ControlFGR

/-- `isNAN(x)`. -/
def isNAN (x : ℚ) : Bool := x != x

/-- `ControlFGR`: the value of `F u = R yr - G y` for a monic `F`. -/
def controlFGR (CDataYr CDataY CDataU F : ℤ → ℚ) (lengthF : ℤ) (G : ℤ → ℚ) (lengthG : ℤ)
    (R : ℤ → ℚ) (lengthR : ℤ) : ℚ :=
  -- from 1 on: the leading coefficient of F is not multiplied
  let CSF := (List.range' 1 (lengthF.toNat - 1)).foldl (fun CSF (i : ℕ) => CSF - F i * CDataU i) 0
  let CSR := (List.range lengthR.toNat).foldl (fun CSR (i : ℕ) => CSR + R i * CDataYr i) 0
  let CSG := (List.range lengthG.toNat).foldl (fun CSG (i : ℕ) => CSG - G i * CDataY i) 0
  let tmpOut := CSF + CSG + CSR
  if isNAN tmpOut then 0 else tmpOut

/-! ## The sums -/

section Spec

variable {CDataYr CDataY CDataU F G R : ℤ → ℚ} {lengthF lengthG lengthR : ℤ}

theorem foldl_add_eq_sum (f : ℕ → ℚ) (n : ℕ) :
    (List.range n).foldl (fun acc i => acc + f i) 0 = ∑ i ∈ Finset.range n, f i := by
  induction n with
  | zero => rfl
  | succ n ih => rw [List.range_succ, List.foldl_concat, ih, Finset.sum_range_succ]

theorem foldl_sub_eq_neg_sum (f : ℕ → ℚ) (n : ℕ) :
    (List.range n).foldl (fun acc i => acc - f i) 0 = -∑ i ∈ Finset.range n, f i := by
  induction n with
  | zero => simp
  | succ n ih =>
    rw [List.range_succ, List.foldl_concat, ih, Finset.sum_range_succ]
    ring

theorem controlFGR_eq :
    controlFGR CDataYr CDataY CDataU F lengthF G lengthG R lengthR =
      ∑ i ∈ Finset.range lengthR.toNat, R i * CDataYr i -
        ∑ i ∈ Finset.range (lengthF.toNat - 1), F (i + 1 : ℕ) * CDataU (i + 1 : ℕ) -
        ∑ i ∈ Finset.range lengthG.toNat, G i * CDataY i := by
  have hF : (List.range' 1 (lengthF.toNat - 1)).foldl (fun acc (i : ℕ) => acc - F i * CDataU i) 0 =
      -∑ i ∈ Finset.range (lengthF.toNat - 1), F (i + 1 : ℕ) * CDataU (i + 1 : ℕ) := by
    rw [List.range'_eq_map_range, List.foldl_map, ← foldl_sub_eq_neg_sum]
    simp only [Nat.add_comm 1]
  have hnan : ∀ x, isNAN x = false := fun x => by simp [isNAN]
  simp only [controlFGR, hnan, hF, foldl_sub_eq_neg_sum fun i : ℕ => G i * CDataY i,
    foldl_add_eq_sum fun i : ℕ => R i * CDataYr i]
  simp only [Bool.false_eq_true, if_false]
  ring

/-- With a monic `F` the returned value, used as the input at time `m`, makes
    `F u + G y = R yr` there. -/
theorem controlFGR_closes {yr y u : ℤ → ℚ} {m : ℤ} (hF : 0 < lengthF) (hmonic : F 0 = 1)
    (hu : u m = controlFGR (fun i => yr (m - i)) (fun i => y (m - i)) (fun i => u (m - i))
      F lengthF G lengthG R lengthR) :
    ∑ i ∈ Finset.range lengthF.toNat, F i * u (m - i) +
      ∑ i ∈ Finset.range lengthG.toNat, G i * y (m - i) =
      ∑ i ∈ Finset.range lengthR.toNat, R i * yr (m - i) := by
  obtain ⟨n, hn⟩ : ∃ n, lengthF.toNat = n + 1 := ⟨lengthF.toNat - 1, by omega⟩
  rw [controlFGR_eq, hn, Nat.add_sub_cancel] at hu
  rw [hn, Finset.sum_range_succ', Nat.cast_zero, hmonic, sub_zero, hu]
  ring

/-- A controller whose polynomials are those of the plant up to the factor `b`
    cancels the plant and leaves the reference, shaped by `A0` and scaled by `S`. -/
theorem plant_eq_of_controller {b S : ℚ} {nF nG nR : ℕ} {thetaF thetaG F G R A0 u y yr : ℕ → ℚ}
    (hF : ∀ j < nF, thetaF j = b * F j) (hG : ∀ j < nG, thetaG j = b * G j)
    (hR : ∀ i < nR, b * R i = S * A0 i)
    (hloop : ∑ i ∈ Finset.range nF, F i * u i + ∑ i ∈ Finset.range nG, G i * y i =
      ∑ i ∈ Finset.range nR, R i * yr i) :
    ∑ j ∈ Finset.range nF, thetaF j * u j + ∑ j ∈ Finset.range nG, thetaG j * y j =
      S * ∑ i ∈ Finset.range nR, A0 i * yr i := by
  have hscale : ∀ {n : ℕ} {θ c x : ℕ → ℚ}, (∀ j < n, θ j = b * c j) →
      ∑ j ∈ Finset.range n, θ j * x j = b * ∑ j ∈ Finset.range n, c j * x j := fun h => by
    rw [Finset.mul_sum]
    exact Finset.sum_congr rfl fun j hj => by rw [h j (Finset.mem_range.mp hj), mul_assoc]
  rw [hscale hF, hscale hG, ← mul_add, hloop, Finset.mul_sum, Finset.mul_sum]
  refine Finset.sum_congr rfl fun i hi => ?_
  rw [← mul_assoc, hR i (Finset.mem_range.mp hi), mul_assoc]

end Spec

end ControlFGR
