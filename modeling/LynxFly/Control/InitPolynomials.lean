-- SUMMARY: What CFFRELS_init and PPCFFRELS_init leave in A0 and AA, and which orders their degrees cover.
import LynxFly.Control.PolePlacement

/-!
# The polynomials that init leaves

The observer degree is `2*na-nam-nb-1`. Nothing keeps it from being negative, and
then the loop over the factors of `A0` does not run, while `A0` still holds the
constant `1`.
-/

open Buffers LibMatrix Polynomials Polynomial

namespace Polynomials

section Covered

variable {M : ℕ} {NA0 NR NAA : ℤ} {am1 am2 am3 : ℚ} {c : Cells Arr ℚ}

/-- `A0` is the product of its factors, `AA` the product with `Am`, and the degrees
    reach every coefficient that is not zero. -/
structure Covered (M : ℕ) (NA0 NR NAA : ℤ) (am1 am2 am3 : ℚ) (c : Cells Arr ℚ) : Prop where
  A0 : ∀ i : ℕ, i < M → c .A0 i = (observer NA0.toNat).coeff i
  AA : ∀ i : ℕ, i < M → c .AA i =
    (observer NA0.toNat * (C am1 + C am2 * X + C am3 * X ^ 2)).coeff i
  A0_above : ∀ i : ℕ, i < M → NA0 < i → c .A0 i = 0
  NR_above : ∀ i : ℕ, i < M → NR < i → c .A0 i = 0
  AA_above : ∀ i : ℕ, i < M → NAA < i → c .AA i = 0
  AA_zero : c .AA 0 = am1
  NR_nonneg : 0 ≤ NR

theorem natDegree_observer_mul_le (k : ℕ) :
    (observer k * (C am1 + C am2 * X + C am3 * X ^ 2)).natDegree ≤ k + 2 := by
  have hAM : (C am1 + C am2 * X + C am3 * X ^ 2).natDegree ≤ 2 := by compute_degree
  exact natDegree_mul_le.trans (Nat.add_le_add (natDegree_observer_le k) hAM)

/-- The degrees cover the polynomials exactly when the observer degree is one. -/
theorem covered_iff (hM : 0 < M) (hNR : NR = NA0) (hNAA : NAA = NA0 + 2)
    (hA0 : ∀ i : ℕ, i < M → c .A0 i = (observer NA0.toNat).coeff i)
    (hAA : 0 ≤ NA0 → ∀ i : ℕ, i < M → c .AA i =
      (observer NA0.toNat * (C am1 + C am2 * X + C am3 * X ^ 2)).coeff i) :
    Covered M NA0 NR NAA am1 am2 am3 c ↔ 0 ≤ NA0 := by
  subst NR NAA
  constructor
  · intro h
    exact h.NR_nonneg
  · intro h
    have habove : ∀ i : ℕ, i < M → NA0 < i → c .A0 i = 0 := fun i hi hlt => by
      rw [hA0 i hi]
      exact coeff_eq_zero_of_natDegree_lt ((natDegree_observer_le _).trans_lt (by omega))
    refine ⟨hA0, hAA h, habove, habove, fun i hi hlt => ?_, ?_, h⟩
    · rw [hAA h i hi]
      exact coeff_eq_zero_of_natDegree_lt ((natDegree_observer_mul_le _).trans_lt (by omega))
    · have h0 := hAA h 0 hM
      rw [mul_coeff_zero, coeff_observer_zero] at h0
      simpa using h0

end Covered

end Polynomials

section Init

variable {M : ℕ} {na nb d : ℤ} {am1 am2 am3 : ℚ}

theorem PPCFFRELS.Configured.covered_iff {r : PPCFFRELS}
    (h : PPCFFRELS.Configured M na nb d am1 am2 am3 r) (hd : 1 ≤ d) (hfits : r.Fits M) :
    Covered M r.NA0 r.NR r.NAA am1 am2 am3 r.arr ↔ 0 ≤ 2 * na - nb - 3 := by
  have hdeg := h.degrees hd
  have hlt : r.NA0.toNat < M := hfits.NA0_lt hdeg
  rw [← hdeg.NA0]
  exact Polynomials.covered_iff (by omega) hdeg.NR_eq hdeg.NAA_eq (fun i hi => h.A0 hd hlt hi)
    fun hNA0 i hi => h.AA hd hNA0 hlt hi

theorem CFFRELS.Configured.covered_iff {r : CFFRELS}
    (h : CFFRELS.Configured M na nb d am1 am2 am3 r) (hd : 1 ≤ d) (hfits : r.Fits M) :
    Covered M r.NA0 r.NR r.NAA am1 am2 am3 r.arr ↔ 0 ≤ 2 * na - nb - 3 := by
  have hdeg := h.degrees hd
  have hlt : r.NA0.toNat < M := hfits.NA0_lt hdeg
  rw [← hdeg.NA0]
  exact Polynomials.covered_iff (by omega) hdeg.NR_eq hdeg.NAA_eq (fun i hi => h.A0 hd hlt hi)
    fun hNA0 i hi => h.AA hd hNA0 hlt hi

/-- For orders that fit the arrays, the polynomials that `init` leaves are those of
    the design, and its degrees cover them, exactly when `2*na-nb-3` is no negative
    degree. -/
theorem init_covered_iff (hna : 1 ≤ na) (hnb : 0 ≤ nb) (hd : 1 ≤ d)
    (hNAA : 2 * na - nb - 1 < M) :
    (nb + d + na ≤ M → ∀ relsIn : PPCFFRELS, ∀ r,
      PPCFFRELS.init M relsIn na nb d am1 am2 am3 = r →
        (Covered M r.NA0 r.NR r.NAA am1 am2 am3 r.arr ↔ 0 ≤ 2 * na - nb - 3)) ∧
    (nb + d + na + 1 ≤ M → ∀ relsIn : CFFRELS, ∀ r,
      CFFRELS.init M relsIn na nb d am1 am2 am3 = r →
        (Covered M r.NA0 r.NR r.NAA am1 am2 am3 r.arr ↔ 0 ≤ 2 * na - nb - 3)) := by
  constructor
  · intro hML relsIn r hr
    have h : PPCFFRELS.Configured M na nb d am1 am2 am3 r := hr ▸ PPCFFRELS.init_configured
    have hdeg := h.degrees hd
    refine h.covered_iff hd ⟨?_, ?_, ?_, ?_⟩
    · rw [hdeg.NF]; omega
    · rw [hdeg.NG]; omega
    · rw [hdeg.ML]; omega
    · rw [hdeg.NAA]; omega
  · intro hML relsIn r hr
    have h : CFFRELS.Configured M na nb d am1 am2 am3 r := hr ▸ CFFRELS.init_configured
    have hdeg := h.degrees hd
    refine h.covered_iff hd ⟨?_, ?_, ?_, ?_⟩
    · rw [hdeg.NF1]; omega
    · rw [hdeg.NG]; omega
    · rw [hdeg.ML]; omega
    · rw [hdeg.NAA]; omega

theorem secondOrder_covered :
    (∀ r, PPCFFRELS.secondOrder 1 (-13 / 10) (48 / 100) = r →
      Covered PPCFFRELS.ML_A r.NA0 r.NR r.NAA 1 (-13 / 10) (48 / 100) r.arr) ∧
    ∀ r, CFFRELS.secondOrder 1 (-16 / 10) (66 / 100) = r →
      Covered CFFRELS.ML_A r.NA0 r.NR r.NAA 1 (-16 / 10) (66 / 100) r.arr := by
  constructor
  · intro r hr
    exact ((@init_covered_iff PPCFFRELS.ML_A 2 1 1 1 (-13 / 10) (48 / 100) (by norm_num)
      (by norm_num) le_rfl (by decide)).1 (by decide) default r hr).mpr (by norm_num)
  · intro r hr
    exact ((@init_covered_iff CFFRELS.ML_A 2 1 1 1 (-16 / 10) (66 / 100) (by norm_num)
      (by norm_num) le_rfl (by decide)).2 (by decide) default r hr).mpr (by norm_num)

/-- A plant of order one without zeros has the observer degree `-1`: `AA` stays
    zero, and no coefficient of `R` is used. -/
theorem firstOrder_not_covered :
    (∀ r, PPCFFRELS.init PPCFFRELS.ML_A default 1 0 1 1 (-13 / 10) (48 / 100) = r →
      r.arr .AA 0 = 0 ∧ r.NR = -1 ∧
        ¬ Covered PPCFFRELS.ML_A r.NA0 r.NR r.NAA 1 (-13 / 10) (48 / 100) r.arr) ∧
    ∀ r, CFFRELS.init CFFRELS.ML_A default 1 0 1 1 (-16 / 10) (66 / 100) = r →
      r.arr .AA 0 = 0 ∧ r.NR = -1 ∧
        ¬ Covered CFFRELS.ML_A r.NA0 r.NR r.NAA 1 (-16 / 10) (66 / 100) r.arr := by
  constructor
  · intro r hr
    have h : PPCFFRELS.Configured PPCFFRELS.ML_A 1 0 1 1 (-13 / 10) (48 / 100) r :=
      hr ▸ PPCFFRELS.init_configured
    have hdeg := h.degrees le_rfl
    have hNR : r.NR = -1 := hdeg.NR
    have hNA0 : r.NA0 = -1 := hdeg.NA0
    refine ⟨?_, hNR, fun hcov => absurd hcov.NR_nonneg (by rw [hNR]; norm_num)⟩
    rw [h.AA_zero le_rfl (by rw [hNA0]; decide), hNA0]
    norm_num
  · intro r hr
    have h : CFFRELS.Configured CFFRELS.ML_A 1 0 1 1 (-16 / 10) (66 / 100) r :=
      hr ▸ CFFRELS.init_configured
    have hdeg := h.degrees le_rfl
    have hNR : r.NR = -1 := hdeg.NR
    have hNA0 : r.NA0 = -1 := hdeg.NA0
    refine ⟨?_, hNR, fun hcov => absurd hcov.NR_nonneg (by rw [hNR]; norm_num)⟩
    rw [h.AA_zero le_rfl (by rw [hNA0]; decide), hNA0]
    norm_num

end Init
