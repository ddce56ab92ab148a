-- SUMMARY: Polynomials in the backward shift, acting on sequences: the algebra behind difference equations.
import Mathlib.Algebra.Polynomial.AlgebraMap
import Mathlib.Algebra.Polynomial.Module.AEval
import Mathlib.Tactic.Ring

/-!
# Polynomials in the backward shift

A sequence over the integers has a past at every time. The backward shift
`q⁻¹ y (k) = y (k - 1)` is linear, so a polynomial acts on sequences, and a
difference equation `a₀ y(k) + a₁ y(k-1) + … = …` says that two such actions
agree. Composition of the actions is multiplication of the polynomials, which is
what makes filters commute.
-/

open Polynomial Finset

namespace ShiftPoly

variable {𝕜 : Type} [CommRing 𝕜]

/-- `q⁻¹`. -/
def backshift : Module.End 𝕜 (ℤ → 𝕜) where
  toFun y := fun k => y (k - 1)
  map_add' _ _ := rfl
  map_smul' _ _ := rfl

theorem backshift_pow_apply (j : ℕ) (y : ℤ → 𝕜) (k : ℤ) :
    (backshift ^ j) y k = y (k - j) := by
  induction j generalizing k with
  | zero => simp
  | succ j ih =>
    rw [pow_succ', Module.End.mul_apply]
    change (backshift ^ j) y (k - 1) = _
    rw [ih]
    congr 1
    push_cast
    ring

/-- The action of a polynomial in `q⁻¹` on a sequence. -/
noncomputable def act (p : 𝕜[X]) : Module.End 𝕜 (ℤ → 𝕜) := aeval backshift p

theorem act_mul (p r : 𝕜[X]) (y : ℤ → 𝕜) : act (p * r) y = act p (act r y) := by
  simp [act]

/-- Two filters in series may be exchanged. -/
theorem act_comm (p r : 𝕜[X]) (y : ℤ → 𝕜) : act p (act r y) = act r (act p y) := by
  rw [← act_mul, ← act_mul, mul_comm]

/-- A pure delay. -/
theorem act_X_pow_apply (d : ℕ) (y : ℤ → 𝕜) (k : ℤ) : act (X ^ d) y k = y (k - d) := by
  rw [act, map_pow, aeval_X, backshift_pow_apply]

/-- A delay given as an integer. -/
theorem act_X_pow_toNat {d : ℤ} (hd : 0 ≤ d) (y : ℤ → 𝕜) :
    act (X ^ d.toNat) y = fun k => y (k - d) := by
  funext k
  rw [act_X_pow_apply, Int.toNat_of_nonneg hd]

/-- `f 0 + f 1 q⁻¹ + … + f (n - 1) q⁻⁽ⁿ⁻¹⁾`. -/
noncomputable def ofCoeffs (n : ℕ) (f : ℕ → 𝕜) : 𝕜[X] := ∑ j ∈ range n, monomial j (f j)

theorem coeff_ofCoeffs (n : ℕ) (f : ℕ → 𝕜) (i : ℕ) :
    (ofCoeffs n f).coeff i = if i < n then f i else 0 := by
  simp [ofCoeffs, coeff_monomial]

theorem act_ofCoeffs_apply (n : ℕ) (f : ℕ → 𝕜) (y : ℤ → 𝕜) (k : ℤ) :
    act (ofCoeffs n f) y k = ∑ j ∈ range n, f j * y (k - j) := by
  simp [act, ofCoeffs, aeval_monomial, backshift_pow_apply]

theorem ofCoeffs_eq {n : ℕ} {f : ℕ → 𝕜} {p : 𝕜[X]} (hp : p.natDegree < n)
    (hf : ∀ i < n, f i = p.coeff i) : ofCoeffs n f = p := by
  ext i
  rw [coeff_ofCoeffs]
  split
  · exact hf i ‹_›
  · exact (coeff_eq_zero_of_natDegree_lt (by omega)).symm

/-- The coefficients of a product, as a sum over the first factor that stays
    inside both. -/
def conv (f : ℕ → 𝕜) (m : ℕ) (g : ℕ → 𝕜) (n : ℕ) (i : ℕ) : 𝕜 :=
  ∑ j ∈ range (min m (i + 1)), if i - j < n then f j * g (i - j) else 0

theorem coeff_ofCoeffs_mul (f g : ℕ → 𝕜) (m n i : ℕ) :
    (ofCoeffs m f * ofCoeffs n g).coeff i = conv f m g n i := by
  have hmin : range (min m (i + 1)) = (range (i + 1)).filter (· < m) := by
    ext j
    simp
    omega
  rw [coeff_mul, Nat.sum_antidiagonal_eq_sum_range_succ_mk, conv, hmin, sum_filter]
  refine sum_congr rfl fun j _ => ?_
  rw [coeff_ofCoeffs, coeff_ofCoeffs]
  split <;> split <;> simp

/-- As a product of polynomials, it does not depend on which is the first factor. -/
theorem conv_comm (f g : ℕ → 𝕜) (m n i : ℕ) : conv f m g n i = conv g n f m i := by
  rw [← coeff_ofCoeffs_mul, ← coeff_ofCoeffs_mul, mul_comm]

/-- The bounds on the second factor, next to that on the first. -/
theorem conv_eq_sum_filter (f g : ℕ → 𝕜) (m n i : ℕ) :
    conv f m g n i = ∑ j ∈ (range m).filter (fun j => j ≤ i ∧ i - j < n), f j * g (i - j) := by
  have hrange : (range m).filter (fun j => j ≤ i ∧ i - j < n) =
      (range (min m (i + 1))).filter (fun j => i - j < n) := by
    ext j
    simp only [mem_filter, mem_range]
    omega
  rw [hrange, sum_filter]
  rfl

/-- The convolution of two coefficient lists is the product of the polynomials. -/
theorem ofCoeffs_conv (f g : ℕ → 𝕜) (m n : ℕ) :
    ofCoeffs (m + n - 1) (conv f m g n) = ofCoeffs m f * ofCoeffs n g := by
  ext i
  rw [coeff_ofCoeffs, coeff_ofCoeffs_mul]
  split
  · rfl
  · rename_i hi
    refine (sum_eq_zero fun j hj => if_neg ?_).symm
    simp only [mem_range] at hj
    omega

/-- Dividing by a polynomial with constant term `1` has one solution at rest: a
    sequence without past that the polynomial annihilates is zero. -/
theorem eq_zero_of_act_eq_zero {n : ℕ} {f : ℕ → 𝕜} {y : ℤ → 𝕜} (hn : 0 < n) (hf : f 0 = 1)
    (hrest : ∀ k < 0, y k = 0) (hact : ∀ k, 0 ≤ k → act (ofCoeffs n f) y k = 0) : y = 0 := by
  have hnat : ∀ k : ℕ, y k = 0 := by
    intro k
    induction k using Nat.strong_induction_on with
    | _ k ih =>
      obtain ⟨n, rfl⟩ : ∃ n', n = n' + 1 := ⟨n - 1, by omega⟩
      have hk := hact k (Int.natCast_nonneg k)
      rw [act_ofCoeffs_apply, sum_range_succ'] at hk
      have hpast : ∀ j : ℕ, y (k - (j + 1 : ℕ)) = 0 := fun j => by
        by_cases hj : j + 1 ≤ k
        · rw [← Nat.cast_sub hj]
          exact ih _ (by omega)
        · exact hrest _ (by omega)
      rw [sum_eq_zero fun j _ => by rw [hpast j, mul_zero], hf] at hk
      simpa using hk
  funext k
  rcases lt_or_ge k 0 with hk | hk
  · exact hrest k hk
  · rw [← Int.toNat_of_nonneg hk]
    exact hnat _

/-- The solution at rest is unique. -/
theorem eq_of_act_eq {n : ℕ} {f : ℕ → 𝕜} {y z : ℤ → 𝕜} (hn : 0 < n) (hf : f 0 = 1)
    (hy : ∀ k < 0, y k = 0) (hz : ∀ k < 0, z k = 0)
    (hact : ∀ k, 0 ≤ k → act (ofCoeffs n f) y k = act (ofCoeffs n f) z k) : y = z := by
  refine sub_eq_zero.mp (eq_zero_of_act_eq_zero hn hf (fun k hk => ?_) fun k hk => ?_)
  · rw [Pi.sub_apply, hy k hk, hz k hk, sub_zero]
  · rw [map_sub, Pi.sub_apply, hact k hk, sub_self]

theorem act_eq_zero_of_rest (p : 𝕜[X]) {y : ℤ → 𝕜} (hy : ∀ k < 0, y k = 0) {k : ℤ} (hk : k < 0) :
    act p y k = 0 := by
  rw [act, aeval_eq_sum_range, LinearMap.sum_apply, Finset.sum_apply]
  refine sum_eq_zero fun j _ => ?_
  rw [LinearMap.smul_apply, Pi.smul_apply, backshift_pow_apply, hy _ (by omega), smul_zero]

/-- Filtering the signals of a linear relation by the same polynomial with
    constant term `1` gives signals in the unfiltered relation. -/
theorem relation_of_filtered {n : ℕ} {f : ℕ → 𝕜} {b c r : 𝕜[X]} {y u wy wu : ℤ → 𝕜}
    (hn : 0 < n) (hf : f 0 = 1) (hy : ∀ k < 0, y k = 0)
    (hwy : ∀ k < 0, wy k = 0) (hwu : ∀ k < 0, wu k = 0)
    (hfy : act (ofCoeffs n f) wy = act r y) (hfu : act (ofCoeffs n f) wu = act r u)
    (hplant : ∀ k, 0 ≤ k → act (ofCoeffs n f) y k = act b (act r u) k + act c (act r y) k) :
    act b wu + act c wy = y := by
  refine eq_of_act_eq hn hf (fun k hk => ?_) hy fun k hk => ?_
  · rw [Pi.add_apply, act_eq_zero_of_rest b hwu hk, act_eq_zero_of_rest c hwy hk, add_zero]
  · rw [map_add, act_comm _ b, act_comm _ c, hfu, hfy, hplant k hk, Pi.add_apply]

end ShiftPoly
