-- SUMMARY: What STC_PP.c and STC_PP_PID.c share: the filter by AA, and the caller that keeps the four data arrays.
import LynxFly.Base.DelayLine
import LynxFly.Control.ControlFGR

/-!
# The AA filter

Both self-tuning controllers filter the output and the input by `1/AA` before they
identify. The filter writes slot `D` of its two histories, from the slots after
it; the histories are shifted by the caller.
-/

open ShiftPoly DelayLine Runs

/-- The two filtered sequences, as a filter step leaves them. -/
structure Filtered where
  CDataYFK : ℤ → ℚ
  CDataUFK : ℤ → ℚ

/-- `-AA(2:naa+1)*xfk(d+1:d+naa)`. -/
def sumAA (AA : ℤ → ℚ) (NAA D : ℤ) (CDataFK : ℤ → ℚ) : ℚ :=
  (List.range NAA.toNat).foldl
    (fun tmpFSum (i : ℕ) => tmpFSum - AA (i + 1) * CDataFK (D + i + 1)) 0

theorem sumAA_add_eq_filtered (AA CDataFK : ℤ → ℚ) (NAA D : ℤ) (v : ℚ) :
    sumAA AA NAA D CDataFK + v = filtered (fun j => AA j) NAA.toNat D CDataFK v := by
  rw [sumAA, ControlFGR.foldl_sub_eq_neg_sum fun i : ℕ => AA (i + 1) * CDataFK (D + i + 1),
    filtered, neg_add_eq_sub]
  simp only [Nat.cast_add, Nat.cast_one, add_assoc]

theorem sumAA_zero (AA : ℤ → ℚ) (NAA D : ℤ) : sumAA AA NAA D 0 = 0 := by
  have h := sumAA_add_eq_filtered AA 0 NAA D 0
  simpa [filtered] using h

/-- On a slot that already holds the filtered value, the filter finds it again,
    up to the leading coefficient. -/
theorem sumAA_add_of_relation {AA CDataFK : ℤ → ℚ} {NAA D : ℤ} {v : ℚ}
    (hAA : NAA < 0 → AA 0 = 0)
    (h : ∑ j ∈ Finset.range (NAA + 1).toNat, AA j * CDataFK (D + j) = v) :
    sumAA AA NAA D CDataFK + v = AA 0 * CDataFK D := by
  rw [sumAA_add_eq_filtered, filtered, ← h]
  rcases lt_or_ge NAA 0 with hneg | hpos
  · rw [hAA hneg, show (NAA + 1).toNat = 0 by omega, show NAA.toNat = 0 by omega]
    simp
  · rw [show (NAA + 1).toNat = NAA.toNat + 1 by omega, Finset.sum_range_succ', Nat.cast_zero,
      add_zero]
    ring

/-- The array `CDataFK` is the sequence `v` filtered by `AA`, as the data arguments
    are documented. -/
def FilteredBy (AA : ℤ → ℚ) (NAA : ℤ) (CDataFK v : ℤ → ℚ) : Prop :=
  ∀ i : ℕ, ∑ j ∈ Finset.range (NAA + 1).toNat, AA j * CDataFK (i + j) = v i

/-- No excitation: the slots a regressor reads are zero, the first of them up to
    the leading coefficient of `AA`. -/
structure Quiet (AA0 : ℚ) (D NF NG : ℤ) (CDataYFK CDataUFK : ℤ → ℚ) : Prop where
  ufk_D : AA0 * CDataUFK D = 0
  ufk : ∀ j : ℕ, 0 < j → (j : ℤ) ≤ NF → CDataUFK (D + j) = 0
  yfk_D : AA0 * CDataYFK D = 0
  yfk : ∀ j : ℕ, 0 < j → (j : ℤ) ≤ NG → CDataYFK (D + j) = 0

theorem quiet_iff {AA0 : ℚ} {D NF NG : ℤ} {CDataYFK CDataUFK : ℤ → ℚ} (hNF : 0 ≤ NF)
    (hNG : 0 ≤ NG) :
    Quiet AA0 D NF NG CDataYFK CDataUFK ↔
      (∀ j : ℕ, (j : ℤ) ≤ NF → Function.update CDataUFK D (AA0 * CDataUFK D) (D + j) = 0) ∧
        ∀ j : ℕ, (j : ℤ) ≤ NG → Function.update CDataYFK D (AA0 * CDataYFK D) (D + j) = 0 := by
  rw [update_apply_add_eq_zero_iff hNF, update_apply_add_eq_zero_iff hNG]
  exact ⟨fun ⟨h1, h2, h3, h4⟩ => ⟨⟨h1, h2⟩, h3, h4⟩, fun ⟨⟨h1, h2⟩, h3, h4⟩ => ⟨h1, h2, h3, h4⟩⟩

/-! ## The caller -/

/-- The estimator struct and the four arrays its caller keeps. -/
structure Caller (σ : Type) where
  cffrelsIn : σ
  CDataYFK : ℤ → ℚ
  CDataUFK : ℤ → ℚ
  CDataYE : ℤ → ℚ
  CDataU : ℤ → ℚ

/-- What a step brings: the output, the input that is applied after the call, and
    whatever the slots hold that no one stores to before the call. -/
structure Sampling where
  y : ℚ
  u : ℚ
  junkYFK : ℤ → ℚ
  junkUFK : ℤ → ℚ
  junkU : ℤ → ℚ

namespace Caller

variable {σ : Type}

/-- All arrays empty. -/
def start (cffrelsIn : σ) : Caller σ := ⟨cffrelsIn, 0, 0, 0, 0⟩

/-- One step: shift the arrays, store `y` in `YE[0]`, call `upd`, store `u` in
    `U[0]`. The slots of `YFK` and `UFK` before `D` are left to chance. -/
def step (D : σ → ℤ)
    (upd : σ → (ℤ → ℚ) → (ℤ → ℚ) → (ℤ → ℚ) → (ℤ → ℚ) → σ × Filtered)
    (s : Caller σ) (x : Sampling) : Caller σ :=
  let CDataYFK := overlay (D s.cffrelsIn) x.junkYFK (shift s.CDataYFK)
  let CDataUFK := overlay (D s.cffrelsIn) x.junkUFK (shift s.CDataUFK)
  let CDataYE := Function.update (shift s.CDataYE) 0 x.y
  let CDataU := overlay 1 x.junkU (shift s.CDataU)
  let r := upd s.cffrelsIn CDataYFK CDataUFK CDataYE CDataU
  ⟨r.1, r.2.CDataYFK, r.2.CDataUFK, CDataYE, Function.update CDataU 0 x.u⟩

/-- What a run relies on of the function it calls: on the structs `I`, which it
    keeps, it filters by `AA` with the delay `D₀`, and takes `input` from `U`. -/
structure FiltersBy (I : σ → Prop) (D : σ → ℤ)
    (upd : σ → (ℤ → ℚ) → (ℤ → ℚ) → (ℤ → ℚ) → (ℤ → ℚ) → σ × Filtered)
    (AA : ℕ → ℚ) (n : ℕ) (D₀ : ℤ) (input : (ℤ → ℚ) → ℚ) : Prop where
  delay : ∀ r, I r → D r = D₀
  keeps : ∀ r yfk ufk ye u, I r → I (upd r yfk ufk ye u).1
  yfk : ∀ r yfk ufk ye u, I r → (upd r yfk ufk ye u).2.CDataYFK =
    Function.update yfk D₀ (filtered AA n D₀ yfk (ye D₀))
  ufk : ∀ r yfk ufk ye u, I r → (upd r yfk ufk ye u).2.CDataUFK =
    Function.update ufk D₀ (filtered AA n D₀ ufk (input u))

section Run

variable {I : σ → Prop} {D : σ → ℤ}
variable {upd : σ → (ℤ → ℚ) → (ℤ → ℚ) → (ℤ → ℚ) → (ℤ → ℚ) → σ × Filtered}
variable {AA : ℕ → ℚ} {n : ℕ} {D₀ : ℤ} {input : (ℤ → ℚ) → ℚ} {r : σ} {x : ℕ → Sampling}
variable {y u : ℤ → ℚ}

theorem run_struct (h : FiltersBy I D upd AA n D₀ input) (hr : I r) (k : ℕ) :
    I (run (step D upd) (start r) x k).cffrelsIn :=
  run_invariant (I := fun s : Caller σ => I s.cffrelsIn) hr (fun _ _ hs => h.keeps _ _ _ _ _ hs) k

/-- Between two calls `YE` holds the past of the output. -/
theorem run_holds_YE (hy : ∀ k < 0, y k = 0) (hx : ∀ k : ℕ, (x k).y = y k) (k : ℕ) :
    Holds (run (step D upd) (start r) x k).CDataYE 0 y (k - 1) := by
  induction k with
  | zero =>
    intro j
    rw [hy _ (by push_cast; omega)]
    rfl
  | succ k ih =>
    rw [Nat.cast_succ, add_sub_cancel_right, run_succ, step, hx]
    exact Holds.store (ih.shift_succ le_rfl)

/-- And `U` that of the input. -/
theorem run_holds_U (hu : ∀ k < 0, u k = 0) (hx : ∀ k : ℕ, (x k).u = u k) (k : ℕ) :
    Holds (run (step D upd) (start r) x k).CDataU 0 u (k - 1) := by
  induction k with
  | zero =>
    intro j
    rw [hu _ (by push_cast; omega)]
    rfl
  | succ k ih =>
    rw [Nat.cast_succ, add_sub_cancel_right, run_succ, step, hx]
    refine Holds.store fun j => ?_
    rw [overlay_of_le (by push_cast; omega)]
    exact ih.shift_succ le_rfl j

/-- From slot `D` on, the two filtered arrays of a run hold the responses of
    `1/AA` to the delayed output and to the input. -/
theorem exists_responses (h : FiltersBy I D upd AA n D₀ input) (hr : I r) (hD : 1 ≤ D₀)
    (hAA : AA 0 = 1) (hy : ∀ k < 0, y k = 0) (hu : ∀ k < 0, u k = 0)
    (hxy : ∀ k : ℕ, (x k).y = y k) (hxu : ∀ k : ℕ, (x k).u = u k)
    {v : ℤ → ℚ} (hv : ∀ k < 0, v k = 0)
    (hinput : ∀ (b : ℤ → ℚ) (k : ℤ), (∀ j : ℕ, b (j + 1 : ℕ) = u (k - (j + 1 : ℕ))) →
      input b = v k) :
    ∃ wy wu : ℤ → ℚ, (∀ k < 0, wy k = 0) ∧ (∀ k < 0, wu k = 0) ∧
      act (ofCoeffs (n + 1) AA) wy = (fun k => y (k - D₀)) ∧
      act (ofCoeffs (n + 1) AA) wu = v ∧
      ∀ k : ℕ, Holds (run (step D upd) (start r) x (k + 1)).CDataYFK D₀ wy k ∧
        Holds (run (step D upd) (start r) x (k + 1)).CDataUFK D₀ wu k := by
  have hI := fun k => run_struct (x := x) h hr k
  have hYE : ∀ k : ℕ, Function.update (shift (run (step D upd) (start r) x k).CDataYE) 0 (x k).y D₀
      = y (k - D₀) := fun k => by
    rw [Function.update_of_ne (by omega)]
    have hpast : Holds (run (step D upd) (start r) x k).CDataYE 0 y (k - 1) :=
      run_holds_YE hy hxy k
    have hj := hpast.shift_succ le_rfl (D₀ - 1).toNat
    rw [show (0 : ℤ) + ((D₀ - 1).toNat + 1 : ℕ) = D₀ by omega,
      show ((D₀ - 1).toNat + 1 : ℕ) = D₀ by omega] at hj
    exact hj
  have hU : ∀ k : ℕ, input (overlay 1 (x k).junkU (shift (run (step D upd) (start r) x k).CDataU))
      = v k := fun k => hinput _ _ fun j => by
    rw [overlay_of_le (by push_cast; omega)]
    have hpast : Holds (run (step D upd) (start r) x k).CDataU 0 u (k - 1) :=
      run_holds_U hu hxu k
    simpa using hpast.shift_succ le_rfl j
  have hYFK : ∀ k : ℕ, (run (step D upd) (start r) x (k + 1)).CDataYFK =
      Function.update (overlay D₀ (x k).junkYFK (shift (run (step D upd) (start r) x k).CDataYFK)) D₀
        (filtered AA n D₀ (overlay D₀ (x k).junkYFK
          (shift (run (step D upd) (start r) x k).CDataYFK)) (y (k - D₀))) := fun k => by
    rw [run_succ, step]
    simp only [h.yfk _ _ _ _ _ (hI k), h.delay _ (hI k), hYE]
  have hUFK : ∀ k : ℕ, (run (step D upd) (start r) x (k + 1)).CDataUFK =
      Function.update (overlay D₀ (x k).junkUFK (shift (run (step D upd) (start r) x k).CDataUFK)) D₀
        (filtered AA n D₀ (overlay D₀ (x k).junkUFK
          (shift (run (step D upd) (start r) x k).CDataUFK)) (v k)) := fun k => by
    rw [run_succ, step]
    simp only [h.ufk _ _ _ _ _ (hI k), h.delay _ (hI k), hU]
  obtain ⟨wy, hwy, hwyk, hfy⟩ := exists_response
    (x := fun k => (run (step D upd) (start r) x k).CDataYFK) (v := fun k => y (k - D₀))
    (zero_le_one.trans hD) hAA (fun k hk => hy _ (by omega)) (fun _ => rfl) hYFK
  obtain ⟨wu, hwu, hwuk, hfu⟩ := exists_response
    (x := fun k => (run (step D upd) (start r) x k).CDataUFK) (zero_le_one.trans hD) hAA hv
      (fun _ => rfl) hUFK
  exact ⟨wy, wu, hwy, hwu, hfy, hfu, fun k => ⟨hwyk k, hwuk k⟩⟩

end Run

end Caller
