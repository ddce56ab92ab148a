-- SUMMARY: Runs of the three estimators: the minimised cost, the covariance, consistent samples, and covariance wind-up.
import LynxFly.Base.Run
import LynxFly.Control.RELS
import LynxFly.Control.STCPP
import LynxFly.Control.STCPPPID

/-!
# Runs of the estimators

Along a run every update of the code is one abstract step, from what `init`
stores. `Tracks` states this for the arrays of a run, and the results about the
abstract recursion are read through it for `RELS_T`, `CFFRELS_T` and
`PPCFFRELS_T` alike.
-/

open Buffers LeastSquares Estimator Runs Matrix

namespace Estimator

/-! ## Arrays that follow the abstract recursion -/

/-- The arrays `c` of a run follow the recursion from the initial estimate, on the
    samples `y` and the factors `lam`, with the regressors they hold. -/
structure Tracks (n : ℕ) (c : ℕ → Cells Arr ℚ) (y lam : ℕ → ℚ) : Prop where
  start : est n (c 0) = initial n
  step : ∀ k, est n (c (k + 1)) = (est n (c k)).step ⟨phie n (c (k + 1)), y k, lam k⟩
  pos : ∀ k, 0 < lam k

/-- The samples of a run, with the regressor each update left. -/
def samples (n : ℕ) (c : ℕ → Cells Arr ℚ) (y lam : ℕ → ℚ) : ℕ → Sample (Fin n) ℚ :=
  fun k => ⟨phie n (c (k + 1)), y k, lam k⟩

theorem initial_posDef (n : ℕ) : (initial n).P.PosDef :=
  PosDef.one.smul (by norm_num)

section Tracks

variable {n : ℕ} {c : ℕ → Cells Arr ℚ} {y lam : ℕ → ℚ} (h : Tracks n c y lam) (k : ℕ)

include h

theorem Tracks.est_eq_run : est n (c k) = (initial n).run (samples n c y lam) k := by
  induction k with
  | zero => exact h.start
  | succ k ih => rw [h.step, ih]; rfl

theorem Tracks.posDef : (est n (c k)).P.PosDef := by
  rw [h.est_eq_run]
  exact Est.run_posDef (initial_posDef n) h.pos k

/-- The parameters of a run minimise its weighted cost, and nothing else does. -/
theorem Tracks.isStrictMin :
    IsStrictMin (cost (initial n) (samples n c y lam) k) (est n (c k)).θ := by
  rw [h.est_eq_run]
  exact Est.run_isStrictMin (initial_posDef n) h.pos k

/-- On samples of the parameters `ϑ` every update forgets the weighted error by
    its factor. -/
theorem Tracks.error_le {ϑ : Fin n → ℚ} (hy : ∀ i, y i = phie n (c (i + 1)) ⬝ᵥ ϑ) :
    quad (est n (c (k + 1))).P⁻¹ ((est n (c (k + 1))).θ - ϑ) ≤
      lam k * quad (est n (c k)).P⁻¹ ((est n (c k)).θ - ϑ) := by
  rw [h.step]
  exact Est.step_error_le (h.posDef k) (h.pos k) (hy k)

/-- And the information-weighted error by the product of all factors so far. -/
theorem Tracks.inv_mulVec_error {ϑ : Fin n → ℚ} (hy : ∀ i, y i = phie n (c (i + 1)) ⬝ᵥ ϑ) :
    (est n (c k)).P⁻¹ *ᵥ ((est n (c k)).θ - ϑ) =
      (∏ i ∈ Finset.range k, lam i) • ((initial n).P⁻¹ *ᵥ ((initial n).θ - ϑ)) := by
  induction k with
  | zero => rw [h.start, Finset.prod_range_zero, one_smul]
  | succ k ih =>
    rw [h.step, Est.step_inv_mulVec_error (h.posDef k) (h.pos k) (hy k), ih, smul_smul,
      Finset.prod_range_succ, mul_comm]

/-- With a constant factor the covariance grows at most geometrically. -/
theorem Tracks.abs_P_le {lam₀ : ℚ} (hlam : ∀ k, lam k = lam₀) (i j : Fin n) :
    |(est n (c k)).P i j| ≤ 1000000 * (1 / lam₀) ^ k := by
  have hquad : ∀ x, quad (est n (c k)).P x ≤ 1000000 * (1 / lam₀) ^ k * (x ⬝ᵥ x) := by
    intro x
    induction k with
    | zero => rw [h.start, initial, quad_smul, quad, one_mulVec, pow_zero, mul_one]
    | succ k ih =>
      have hstep := Est.quad_step_le (s := ⟨phie n (c (k + 1)), y k, lam k⟩) (h.posDef k) (h.pos k) x
      rw [← h.step, hlam k] at hstep
      have hpos : 0 ≤ 1 / lam₀ := (one_div_pos.mpr (hlam k ▸ h.pos k)).le
      calc quad (est n (c (k + 1))).P x ≤ 1 / lam₀ * quad (est n (c k)).P x := hstep
        _ ≤ 1 / lam₀ * (1000000 * (1 / lam₀) ^ k * (x ⬝ᵥ x)) := mul_le_mul_of_nonneg_left ih hpos
        _ = 1000000 * (1 / lam₀) ^ (k + 1) * (x ⬝ᵥ x) := by ring
  exact abs_entry_le (h.posDef k) hquad i j

/-- Without excitation it does grow so. -/
theorem Tracks.P_of_quiet {lam₀ : ℚ} (hlam : ∀ k, lam k = lam₀)
    (hquiet : ∀ k, phie n (c (k + 1)) = 0) :
    (est n (c k)).P = (1000000 * (1 / lam₀) ^ k) • (1 : Matrix (Fin n) (Fin n) ℚ) := by
  induction k with
  | zero => rw [h.start, initial, pow_zero, mul_one]
  | succ k ih =>
    rw [h.step, Est.step_P_of_zero (hquiet k), ih, hlam k, smul_smul]
    congr 1
    ring

end Tracks

end Estimator

/-! ## Calls -/

/-- The arguments of `CFFRELS_Update` and `PPCFFRELS_Update`. -/
structure UpdateArgs where
  CDataYFK : ℤ → ℚ
  CDataUFK : ℤ → ℚ
  lambda : ℚ

namespace PPCFFRELS

def apply (M : ℕ) (relsIn : PPCFFRELS) (x : UpdateArgs) : PPCFFRELS :=
  relsIn.update M x.CDataYFK x.CDataUFK x.lambda

section Run

variable {M n : ℕ} {relsIn : PPCFFRELS} {na nb d : ℤ} {am1 am2 am3 : ℚ} {x : ℕ → UpdateArgs}

/-- States that follow each other by updates, the first from `init`, track the
    recursion. -/
theorem tracks {s : ℕ → PPCFFRELS} (h0 : s 0 = init M relsIn na nb d am1 am2 am3)
    (hs : ∀ k, s (k + 1) = apply M (s k) (x k)) (hn : (s 0).ML.toNat = n) :
    Tracks n (fun k => (s k).arr) (fun k => (x k).CDataYFK 0)
      (fun k => max (9 / 10) (min 1 (x k).lambda)) := by
  have hML : ∀ k, (s k).ML = (s 0).ML := by
    intro k
    induction k with
    | zero => rfl
    | succ k ih => rw [hs, apply, update_sameConfig.ML, ih]
  refine ⟨?_, fun k => ?_, fun k => clamped_pos _⟩
  · rw [h0] at hn ⊢
    exact est_init hn
  · simp only [hs, apply]
    exact est_update (by rw [hML, hn])

theorem tracks_run (hn : (init M relsIn na nb d am1 am2 am3).ML.toNat = n) :
    Tracks n (fun k => (run (apply M) (init M relsIn na nb d am1 am2 am3) x k).arr)
      (fun k => (x k).CDataYFK 0) (fun k => max (9 / 10) (min 1 (x k).lambda)) :=
  tracks rfl (fun k => run_succ k) hn

theorem run_ML (k : ℕ) : (run (apply M) relsIn x k).ML = relsIn.ML :=
  run_invariant (I := fun r : PPCFFRELS => r.ML = relsIn.ML) rfl
    (fun _ _ h => update_sameConfig.ML.trans h) k

end Run

end PPCFFRELS

namespace CFFRELS

def apply (M : ℕ) (relsIn : CFFRELS) (x : UpdateArgs) : CFFRELS :=
  relsIn.update M x.CDataYFK x.CDataUFK x.lambda

section Run

variable {M n : ℕ} {relsIn : CFFRELS} {na nb d : ℤ} {am1 am2 am3 : ℚ} {x : ℕ → UpdateArgs}

/-- States that follow each other by updates, the first from `init`, track the
    recursion. -/
theorem tracks {s : ℕ → CFFRELS} (h0 : s 0 = init M relsIn na nb d am1 am2 am3)
    (hs : ∀ k, s (k + 1) = apply M (s k) (x k)) (hn : (s 0).ML.toNat = n) :
    Tracks n (fun k => (s k).arr) (fun k => (x k).CDataYFK 0)
      (fun k => max (9 / 10) (min 1 (x k).lambda)) := by
  have hML : ∀ k, (s k).ML = (s 0).ML := by
    intro k
    induction k with
    | zero => rfl
    | succ k ih => rw [hs, apply, update_sameConfig.ML, ih]
  refine ⟨?_, fun k => ?_, fun k => clamped_pos _⟩
  · rw [h0] at hn ⊢
    exact est_init hn
  · simp only [hs, apply]
    exact est_update (by rw [hML, hn])

theorem tracks_run (hn : (init M relsIn na nb d am1 am2 am3).ML.toNat = n) :
    Tracks n (fun k => (run (apply M) (init M relsIn na nb d am1 am2 am3) x k).arr)
      (fun k => (x k).CDataYFK 0) (fun k => max (9 / 10) (min 1 (x k).lambda)) :=
  tracks rfl (fun k => run_succ k) hn

theorem run_ML (k : ℕ) : (run (apply M) relsIn x k).ML = relsIn.ML :=
  run_invariant (I := fun r : CFFRELS => r.ML = relsIn.ML) rfl
    (fun _ _ h => update_sameConfig.ML.trans h) k

end Run

end CFFRELS

namespace RELS

/-- A call that updates the estimate. -/
inductive Update where
  | update (CDataYE CDataU CDataXiek : ℤ → ℚ)
  | ffUpdate (CDataYE CDataU CDataXiek : ℤ → ℚ) (lambda : ℚ)

namespace Update

def prog (relsIn : RELS) : Update → Prog Arr ℚ ℚ
  | update CDataYE CDataU CDataXiek => relsIn.updateProg CDataYE CDataU CDataXiek
  | ffUpdate CDataYE CDataU CDataXiek lambda =>
    relsIn.ffUpdateProg CDataYE CDataU CDataXiek lambda

/-- The sample the call subtracts its prediction from. -/
def sample : Update → ℚ
  | update CDataYE _ _ => CDataYE 0
  | ffUpdate CDataYE _ _ _ => CDataYE 0

/-- The forgetting factor it uses. -/
def factor : Update → ℚ
  | update _ _ _ => 1
  | ffUpdate _ _ _ lambda => max (9 / 10) (min 1 lambda)

theorem factor_ge (u : Update) : 9 / 10 ≤ u.factor := by
  cases u with
  | update => norm_num [factor]
  | ffUpdate => exact le_max_left _ _

theorem factor_pos (u : Update) : 0 < u.factor := lt_of_lt_of_le (by norm_num) u.factor_ge

end Update

def apply (relsIn : RELS) (u : Update) : RELS := (relsIn.call (u.prog relsIn)).2

theorem est_apply {n : ℕ} {relsIn : RELS} {u : Update} (hn : relsIn.ML.toNat = n) :
    est n (relsIn.apply u).arr =
      (est n relsIn.arr).step ⟨phie n (relsIn.apply u).arr, u.sample, u.factor⟩ := by
  cases u with
  | update => exact est_update hn
  | ffUpdate => exact est_ffUpdate hn

theorem head_divisors_apply {n : ℕ} {relsIn : RELS} {u : Update} (hn : relsIn.ML.toNat = n) :
    (divisors (u.prog relsIn) relsIn.arr).head? =
      some (denom (est n relsIn.arr).P (phie n (relsIn.apply u).arr) u.factor) := by
  cases u with
  | update => exact head_divisors_update hn
  | ffUpdate => exact head_divisors_ffUpdate hn

section Run

variable {n : ℕ} {relsIn : RELS} {na nb nc d : ℤ}

theorem run_orders {u : ℕ → Update} (k : ℕ) :
    (run apply relsIn u k).NA = relsIn.NA ∧ (run apply relsIn u k).NB = relsIn.NB ∧
      (run apply relsIn u k).ML = relsIn.ML :=
  run_invariant (I := fun r : RELS => r.NA = relsIn.NA ∧ r.NB = relsIn.NB ∧ r.ML = relsIn.ML)
    ⟨rfl, rfl, rfl⟩ (fun r u h => (show (apply r u).NA = _ ∧ _ from h)) k

theorem tracks_run {u : ℕ → Update} (hn : (relsIn.init na nb nc d).ML.toNat = n) :
    Tracks n (fun k => (run apply (relsIn.init na nb nc d) u k).arr) (fun k => (u k).sample)
      (fun k => (u k).factor) := by
  have hkeep : ∀ r u, r.ML.toNat = n → (apply r u).ML.toNat = n := fun _ _ h => h
  have hML : ∀ k, (run apply (relsIn.init na nb nc d) u k).ML.toNat = n := fun k =>
    run_invariant (I := fun r : RELS => r.ML.toNat = n) hn hkeep k
  exact ⟨est_init hn, fun k => est_apply (hML k), fun k => (u k).factor_pos⟩

/-- Any call. -/
inductive Call where
  | update (u : Update)
  | observ (CDataYE CDataU CDataXiek : ℤ → ℚ)

def Call.apply (relsIn : RELS) : Call → RELS
  | update u => relsIn.apply u
  | observ CDataYE CDataU CDataXiek => (relsIn.observ CDataYE CDataU CDataXiek).2

theorem run_posDef {x : ℕ → Call} (hn : (relsIn.init na nb nc d).ML.toNat = n) (k : ℕ) :
    (run Call.apply (relsIn.init na nb nc d) x k).ML.toNat = n ∧
      (est n (run Call.apply (relsIn.init na nb nc d) x k).arr).P.PosDef := by
  refine run_invariant (I := fun s : RELS => s.ML.toNat = n ∧ (est n s.arr).P.PosDef)
    ⟨hn, ?_⟩ (fun s x hs => ?_) k
  · rw [est_init hn]
    exact initial_posDef n
  · obtain ⟨hML, hP⟩ := hs
    cases x with
    | update u =>
      refine ⟨hML, ?_⟩
      rw [Call.apply, est_apply hML]
      exact Est.step_posDef hP u.factor_pos
    | observ CDataYE CDataU CDataXiek =>
      refine ⟨hML, ?_⟩
      rw [Call.apply, est_observ]
      exact hP

end Run

end RELS

/-! ## The minimised cost -/

/-- After every run of updates the parameters are the one minimiser of the
    weighted least squares cost, with the clamped factors, from the initial
    estimate. -/
theorem thetae_isStrictMin (M : ℕ) (na nb nc d : ℤ) (am1 am2 am3 : ℚ) :
    (∀ (r : PPCFFRELS) (x : ℕ → UpdateArgs) (k : ℕ),
      let s := run (PPCFFRELS.apply M) (PPCFFRELS.init M r na nb d am1 am2 am3) x
      let n := (PPCFFRELS.init M r na nb d am1 am2 am3).ML.toNat
      IsStrictMin (cost (initial n) (samples n (fun i => (s i).arr) (fun i => (x i).CDataYFK 0)
        fun i => max (9 / 10) (min 1 (x i).lambda)) k) (est n (s k).arr).θ) ∧
    (∀ (r : CFFRELS) (x : ℕ → UpdateArgs) (k : ℕ),
      let s := run (CFFRELS.apply M) (CFFRELS.init M r na nb d am1 am2 am3) x
      let n := (CFFRELS.init M r na nb d am1 am2 am3).ML.toNat
      IsStrictMin (cost (initial n) (samples n (fun i => (s i).arr) (fun i => (x i).CDataYFK 0)
        fun i => max (9 / 10) (min 1 (x i).lambda)) k) (est n (s k).arr).θ) ∧
    ∀ (r : RELS) (u : ℕ → RELS.Update) (k : ℕ),
      let s := run RELS.apply (r.init na nb nc d) u
      let n := (r.init na nb nc d).ML.toNat
      IsStrictMin (cost (initial n) (samples n (fun i => (s i).arr) (fun i => (u i).sample)
        fun i => (u i).factor) k) (est n (s k).arr).θ :=
  ⟨fun _ _ k => (PPCFFRELS.tracks_run rfl).isStrictMin k,
    fun _ _ k => (CFFRELS.tracks_run rfl).isStrictMin k,
    fun _ _ k => (RELS.tracks_run rfl).isStrictMin k⟩

/-! ## The covariance -/

/-- An update from the arrays `c` to `c'` with the factor `lam`, whose divisions
    are `ds`: information form, and a divisor that is bounded away from zero. -/
structure KeepsCovariance (n : ℕ) (c c' : Cells Arr ℚ) (lam : ℚ) (ds : List ℚ) : Prop where
  inv : (est n c').P⁻¹ = lam • (est n c).P⁻¹ + vecMulVec (phie n c') (phie n c')
  divides : ds.head? = some (denom (est n c).P (phie n c') lam)
  le_denom : lam ≤ denom (est n c).P (phie n c') lam
  denom_ne_zero : denom (est n c).P (phie n c') lam ≠ 0
  factor_ge : 9 / 10 ≤ lam

theorem keepsCovariance_of_step {n : ℕ} {c c' : Cells Arr ℚ} {y lam : ℚ} {ds : List ℚ}
    (hP : (est n c).P.PosDef) (hlam : 9 / 10 ≤ lam)
    (hstep : est n c' = (est n c).step ⟨phie n c', y, lam⟩)
    (hds : ds.head? = some (denom (est n c).P (phie n c') lam)) :
    KeepsCovariance n c c' lam ds := by
  have hpos : 0 < lam := lt_of_lt_of_le (by norm_num) hlam
  refine ⟨?_, hds, le_denom hP, denom_ne_zero hP hpos, hlam⟩
  rw [hstep]
  exact Est.step_P_inv (s := ⟨phie n c', y, lam⟩) hP hpos

/-- In every reachable state of each estimator the covariance is symmetric and
    positive definite, and every update there keeps it so without a division by
    zero. -/
theorem covariance_posDef (M : ℕ) (na nb nc d : ℤ) (am1 am2 am3 : ℚ) :
    (∀ (r : PPCFFRELS) (x : ℕ → UpdateArgs) (k : ℕ),
      let s := run (PPCFFRELS.apply M) (PPCFFRELS.init M r na nb d am1 am2 am3) x
      let n := (PPCFFRELS.init M r na nb d am1 am2 am3).ML.toNat
      (est n (s k).arr).P.IsSymm ∧ (est n (s k).arr).P.PosDef ∧
        ∀ a : UpdateArgs, KeepsCovariance n (s k).arr (PPCFFRELS.apply M (s k) a).arr
          (max (9 / 10) (min 1 a.lambda))
          (divisors ((s k).updateProg M a.CDataYFK a.CDataUFK a.lambda) (s k).arr)) ∧
    (∀ (r : CFFRELS) (x : ℕ → UpdateArgs) (k : ℕ),
      let s := run (CFFRELS.apply M) (CFFRELS.init M r na nb d am1 am2 am3) x
      let n := (CFFRELS.init M r na nb d am1 am2 am3).ML.toNat
      (est n (s k).arr).P.IsSymm ∧ (est n (s k).arr).P.PosDef ∧
        ∀ a : UpdateArgs, KeepsCovariance n (s k).arr (CFFRELS.apply M (s k) a).arr
          (max (9 / 10) (min 1 a.lambda))
          (divisors ((s k).updateProg M a.CDataYFK a.CDataUFK a.lambda) (s k).arr)) ∧
    ∀ (r : RELS) (x : ℕ → RELS.Call) (k : ℕ),
      let s := run RELS.Call.apply (r.init na nb nc d) x
      let n := (r.init na nb nc d).ML.toNat
      (est n (s k).arr).P.IsSymm ∧ (est n (s k).arr).P.PosDef ∧
        ∀ u : RELS.Update, KeepsCovariance n (s k).arr ((s k).apply u).arr u.factor
          (divisors (u.prog (s k)) (s k).arr) := by
  refine ⟨?_, ?_, ?_⟩
  · intro r x k s n
    have hP : (est n (s k).arr).P.PosDef := (PPCFFRELS.tracks_run rfl).posDef k
    have hML : (s k).ML.toNat = n := congrArg Int.toNat (PPCFFRELS.run_ML k)
    exact ⟨isSymm_of_posDef hP, hP, fun a => keepsCovariance_of_step hP (le_max_left _ _)
      (PPCFFRELS.est_update hML) (PPCFFRELS.head_divisors_update hML)⟩
  · intro r x k s n
    have hP : (est n (s k).arr).P.PosDef := (CFFRELS.tracks_run rfl).posDef k
    have hML : (s k).ML.toNat = n := congrArg Int.toNat (CFFRELS.run_ML k)
    exact ⟨isSymm_of_posDef hP, hP, fun a => keepsCovariance_of_step hP (le_max_left _ _)
      (CFFRELS.est_update hML) (CFFRELS.head_divisors_update hML)⟩
  · intro r x k s n
    obtain ⟨hML, hP⟩ := @RELS.run_posDef _ r na nb nc d x rfl k
    exact ⟨isSymm_of_posDef hP, hP, fun u => keepsCovariance_of_step hP u.factor_ge
      (RELS.est_apply hML) (RELS.head_divisors_apply hML)⟩

/-! ## Consistent samples -/

/-- The weighted error of an estimate of `ϑ`. -/
noncomputable def weightedError {n : ℕ} (e : Est (Fin n) ℚ) (ϑ : Fin n → ℚ) : ℚ :=
  quad e.P⁻¹ (e.θ - ϑ)

/-- In step `k` of the arrays `c` the errors are forgotten by the factors `lam`. -/
structure ForgetsError (n : ℕ) (c : ℕ → Cells Arr ℚ) (lam : ℕ → ℚ) (ϑ : Fin n → ℚ) (k : ℕ) :
    Prop where
  step : weightedError (est n (c (k + 1))) ϑ ≤ lam k * weightedError (est n (c k)) ϑ
  total : (est n (c k)).P⁻¹ *ᵥ ((est n (c k)).θ - ϑ) =
    (∏ i ∈ Finset.range k, lam i) • ((initial n).P⁻¹ *ᵥ ((initial n).θ - ϑ))

theorem Estimator.Tracks.forgetsError {n : ℕ} {c : ℕ → Cells Arr ℚ} {y lam : ℕ → ℚ}
    (h : Tracks n c y lam) {ϑ : Fin n → ℚ} (hy : ∀ i, y i = phie n (c (i + 1)) ⬝ᵥ ϑ) (k : ℕ) :
    ForgetsError n c lam ϑ k :=
  ⟨h.error_le k hy, h.inv_mulVec_error k hy⟩

/-- On samples that fit the parameters `ϑ` no estimator diverges from them. -/
theorem forgetsError_of_consistent (M : ℕ) (na nb nc d : ℤ) (am1 am2 am3 : ℚ) :
    (∀ (r : PPCFFRELS) (x : ℕ → UpdateArgs),
      let s := run (PPCFFRELS.apply M) (PPCFFRELS.init M r na nb d am1 am2 am3) x
      let n := (PPCFFRELS.init M r na nb d am1 am2 am3).ML.toNat
      ∀ ϑ : Fin n → ℚ, (∀ i, (x i).CDataYFK 0 = phie n (s (i + 1)).arr ⬝ᵥ ϑ) →
        ∀ k, ForgetsError n (fun i => (s i).arr) (fun i => max (9 / 10) (min 1 (x i).lambda)) ϑ k) ∧
    (∀ (r : CFFRELS) (x : ℕ → UpdateArgs),
      let s := run (CFFRELS.apply M) (CFFRELS.init M r na nb d am1 am2 am3) x
      let n := (CFFRELS.init M r na nb d am1 am2 am3).ML.toNat
      ∀ ϑ : Fin n → ℚ, (∀ i, (x i).CDataYFK 0 = phie n (s (i + 1)).arr ⬝ᵥ ϑ) →
        ∀ k, ForgetsError n (fun i => (s i).arr) (fun i => max (9 / 10) (min 1 (x i).lambda)) ϑ k) ∧
    ∀ (r : RELS) (u : ℕ → RELS.Update),
      let s := run RELS.apply (r.init na nb nc d) u
      let n := (r.init na nb nc d).ML.toNat
      ∀ ϑ : Fin n → ℚ, (∀ i, (u i).sample = phie n (s (i + 1)).arr ⬝ᵥ ϑ) →
        ∀ k, ForgetsError n (fun i => (s i).arr) (fun i => (u i).factor) ϑ k :=
  ⟨fun _ _ _ hy k => (PPCFFRELS.tracks_run rfl).forgetsError hy k,
    fun _ _ _ hy k => (CFFRELS.tracks_run rfl).forgetsError hy k,
    fun _ _ _ hy k => (RELS.tracks_run rfl).forgetsError hy k⟩

/-- Every sample and every regressor entry has magnitude one, and the factor is
    below one. -/
def unitArgs : UpdateArgs := ⟨fun _ => 1, fun _ => 1, 19 / 20⟩

/-- The parameters that take the first entry of the regressor as it is. -/
def takesFirst {n : ℕ} (h0 : 0 < n) (c : ℚ) : Fin n → ℚ := Pi.single ⟨0, h0⟩ c

theorem PPCFFRELS.unitArgs_consistent {M : ℕ} {r : PPCFFRELS}
    (h : SameConfig (init M default 2 1 1 1 0 0) r)
    (h0 : 0 < (init M default 2 1 1 1 0 0).ML.toNat) :
    unitArgs.CDataYFK 0 =
      phie (init M default 2 1 1 1 0 0).ML.toNat (apply M r unitArgs).arr ⬝ᵥ takesFirst h0 1 := by
  have hdeg : Degrees 2 1 1 r := Configured.degrees ⟨default, h⟩ le_rfl
  have hNF : 0 < r.NF + 1 := by
    rw [hdeg.NF]
    norm_num
  rw [takesFirst, dotProduct_single, mul_one, apply, phie_update (congrArg Int.toNat h.ML), phie,
    asVec_apply, regressor, Polynomials.exec_ufkYfk_u hNF.le hNF]
  rfl

theorem CFFRELS.unitArgs_consistent {M : ℕ} {r : CFFRELS}
    (h : SameConfig (init M default 2 1 1 1 0 0) r)
    (h0 : 0 < (init M default 2 1 1 1 0 0).ML.toNat) :
    unitArgs.CDataYFK 0 =
      phie (init M default 2 1 1 1 0 0).ML.toNat (apply M r unitArgs).arr ⬝ᵥ takesFirst h0 1 := by
  have hdeg : Degrees 2 1 1 r := Configured.degrees ⟨default, h⟩ le_rfl
  have hNF : 0 < r.NF1 + 1 := by
    rw [hdeg.NF1]
    norm_num
  rw [takesFirst, dotProduct_single, mul_one, apply, phie_update (congrArg Int.toNat h.ML), phie,
    asVec_apply, regressor, Polynomials.exec_ufkYfk_u hNF.le hNF]
  rfl

/-- `FFRELS_Update` on the same samples. -/
def unitUpdate : RELS.Update := .ffUpdate (fun _ => 1) (fun _ => 1) (fun _ => 1) (19 / 20)

theorem RELS.unitUpdate_consistent {r : RELS} {n : ℕ} (h0 : 0 < n) (hNA : 0 < r.NA)
    (hNB : 0 ≤ r.NB) (hn : r.ML.toNat = n) :
    unitUpdate.sample = phie n (r.apply unitUpdate).arr ⬝ᵥ takesFirst h0 (-1) := by
  subst hn
  have hcell : phie r.ML.toNat (r.apply unitUpdate).arr ⟨0, h0⟩ = -1 := by
    rw [apply, unitUpdate, Update.prog, call, ffUpdateProg]
    simp only [Buffers.Prog.exec_bind, phie, exec_residual_of_notMem (b := .phie) (by decide)]
    refine (congrFun phie_forgettingUpdate ⟨0, h0⟩).trans ?_
    exact exec_regressor_y (j := 0) (by omega) (by omega)
  rw [takesFirst, dotProduct_single, hcell, unitUpdate, Update.sample, neg_mul_neg, one_mul]

/-- Two estimators on samples that are their first parameter, and one on samples that
    are the negative of it. -/
theorem forgetsError_of_consistent_unit :
    ForgetsError (PPCFFRELS.init 10 default 2 1 1 1 0 0).ML.toNat
        (fun i => (run (PPCFFRELS.apply 10) (PPCFFRELS.init 10 default 2 1 1 1 0 0)
          (fun _ => unitArgs) i).arr) (fun _ => max (9 / 10) (min 1 (19 / 20)))
        (takesFirst (by decide) 1) 1 ∧
      ForgetsError (CFFRELS.init 10 default 2 1 1 1 0 0).ML.toNat
        (fun i => (run (CFFRELS.apply 10) (CFFRELS.init 10 default 2 1 1 1 0 0)
          (fun _ => unitArgs) i).arr) (fun _ => max (9 / 10) (min 1 (19 / 20)))
        (takesFirst (by decide) 1) 1 ∧
      ForgetsError ((default : RELS).init 2 1 1 1).ML.toNat
        (fun i => (run RELS.apply ((default : RELS).init 2 1 1 1) (fun _ => unitUpdate) i).arr)
        (fun _ => max (9 / 10) (min 1 (19 / 20))) (takesFirst (by decide) (-1)) 1 := by
  obtain ⟨hPP, hCFF, hRELS⟩ := forgetsError_of_consistent 10 2 1 1 1 1 0 0
  refine ⟨hPP default (fun _ => unitArgs) _ (fun i => ?_) 1,
    hCFF default (fun _ => unitArgs) _ (fun i => ?_) 1,
    hRELS default (fun _ => unitUpdate) _ (fun i => ?_) 1⟩
  · refine PPCFFRELS.unitArgs_consistent (run_invariant .refl (fun _ _ h => ?_) i) _
    exact h.trans PPCFFRELS.update_sameConfig
  · refine CFFRELS.unitArgs_consistent (run_invariant .refl (fun _ _ h => ?_) i) _
    exact h.trans CFFRELS.update_sameConfig
  · obtain ⟨hNA, hNB, hML⟩ := @RELS.run_orders ((default : RELS).init 2 1 1 1) (fun _ => unitUpdate) i
    exact RELS.unitUpdate_consistent _ (by rw [hNA]; decide) (by rw [hNB]; decide)
      (congrArg Int.toNat hML)

/-! ## Wind-up of the covariance -/

/-- The four data arrays of `updateSTCPP` and `updateSTCPPPID`. -/
structure DataArrays where
  CDataYFK : ℤ → ℚ
  CDataUFK : ℤ → ℚ
  CDataYE : ℤ → ℚ
  CDataU : ℤ → ℚ

namespace STCPP

def apply (M : ℕ) (cffrelsIn : PPCFFRELS) (x : DataArrays) : PPCFFRELS :=
  (updateSTCPP M cffrelsIn x.CDataYFK x.CDataUFK x.CDataYE x.CDataU).1

/-- What `updateSTCPP` passes on. -/
def updateArgs (cffrelsIn : PPCFFRELS) (x : DataArrays) : UpdateArgs :=
  let fk := updateSTCPPFilterOnly cffrelsIn x.CDataYFK x.CDataUFK x.CDataYE x.CDataU
  ⟨fk.CDataYFK, fk.CDataUFK, 995 / 1000⟩

theorem tracks_run {M n : ℕ} {r : PPCFFRELS} {na nb d : ℤ} {am1 am2 am3 : ℚ} {x : ℕ → DataArrays}
    (hn : (PPCFFRELS.init M r na nb d am1 am2 am3).ML.toNat = n) :
    let s := run (apply M) (PPCFFRELS.init M r na nb d am1 am2 am3) x
    Tracks n (fun k => (s k).arr) (fun k => (updateArgs (s k) (x k)).CDataYFK 0)
      fun _ => max (9 / 10) (min 1 (995 / 1000)) :=
  PPCFFRELS.tracks (x := fun k => updateArgs (run (apply M) _ x k) (x k)) rfl
    (fun k => run_succ k) hn

/-- Empty arrays stay empty and give an empty regressor. -/
theorem phie_apply_zero {M n : ℕ} {r : PPCFFRELS} {na nb d : ℤ} (h : PPCFFRELS.Degrees na nb d r)
    (hNF : 0 ≤ r.NF + 1) (hNG : 0 ≤ r.NG + 1) (hn : r.ML.toNat = n) :
    phie n (apply M r ⟨0, 0, 0, 0⟩).arr = 0 := by
  have hfilter : updateSTCPPFilterOnly r 0 0 0 0 = ⟨0, 0⟩ := by
    simp [updateSTCPPFilterOnly, sumAA_zero]
  rw [apply, updateSTCPP, hfilter, PPCFFRELS.phie_update_eq_zero_iff hNF hNG h.ML_eq hn]
  exact ⟨fun _ _ => rfl, fun _ _ => rfl⟩

end STCPP

namespace STCPPPID

def apply (M : ℕ) (cffrelsIn : CFFRELS) (x : DataArrays) : CFFRELS :=
  (updateSTCPPPID M cffrelsIn x.CDataYFK x.CDataUFK x.CDataYE x.CDataU).1

/-- What `updateSTCPPPID` passes on. -/
def updateArgs (cffrelsIn : CFFRELS) (x : DataArrays) : UpdateArgs :=
  let fk := updateSTCFilterOnly cffrelsIn x.CDataYFK x.CDataUFK x.CDataYE x.CDataU
  ⟨fk.CDataYFK, fk.CDataUFK, 995 / 1000⟩

theorem tracks_run {M n : ℕ} {r : CFFRELS} {na nb d : ℤ} {am1 am2 am3 : ℚ} {x : ℕ → DataArrays}
    (hn : (CFFRELS.init M r na nb d am1 am2 am3).ML.toNat = n) :
    let s := run (apply M) (CFFRELS.init M r na nb d am1 am2 am3) x
    Tracks n (fun k => (s k).arr) (fun k => (updateArgs (s k) (x k)).CDataYFK 0)
      fun _ => max (9 / 10) (min 1 (995 / 1000)) :=
  CFFRELS.tracks (x := fun k => updateArgs (run (apply M) _ x k) (x k)) rfl
    (fun k => run_succ k) hn

end STCPPPID

theorem factor_stc : max (9 / 10) (min 1 (995 / 1000)) = (199 / 200 : ℚ) := by
  norm_num

/-- The number of calls that cannot overflow a single precision float. -/
def windUpCalls : ℕ := 14943

theorem windUpCalls_le : (1000000 : ℚ) * (200 / 199) ^ windUpCalls ≤ 2 ^ 128 := by
  have hnat : 1000000 * 200 ^ windUpCalls ≤ 2 ^ 128 * 199 ^ windUpCalls := by decide +kernel
  rw [div_pow, ← mul_div_assoc, div_le_iff₀ (by positivity)]
  exact_mod_cast hnat

theorem lt_windUpCalls_succ : (2 : ℚ) ^ 128 < 1000000 * (200 / 199) ^ (windUpCalls + 1) := by
  have hnat : 2 ^ 128 * 199 ^ (windUpCalls + 1) < 1000000 * 200 ^ (windUpCalls + 1) := by
    decide +kernel
  rw [div_pow, ← mul_div_assoc, lt_div_iff₀ (by positivity)]
  exact_mod_cast hnat

/-- Whatever the data, `k` calls of the self-tuning update let the covariance grow
    by at most the `k`-th power of the inverse factor, which stays representable
    for the first `windUpCalls` of them. -/
theorem abs_P_le_of_calls (M : ℕ) (na nb d : ℤ) (am1 am2 am3 : ℚ) :
    (∀ (r : PPCFFRELS) (x : ℕ → DataArrays) (k : ℕ),
      let s := run (STCPP.apply M) (PPCFFRELS.init M r na nb d am1 am2 am3) x
      let n := (PPCFFRELS.init M r na nb d am1 am2 am3).ML.toNat
      ∀ i j : Fin n, |(est n (s k).arr).P i j| ≤ 1000000 * (200 / 199) ^ k ∧
        (k ≤ windUpCalls → |(est n (s k).arr).P i j| ≤ 2 ^ 128)) ∧
    ∀ (r : CFFRELS) (x : ℕ → DataArrays) (k : ℕ),
      let s := run (STCPPPID.apply M) (CFFRELS.init M r na nb d am1 am2 am3) x
      let n := (CFFRELS.init M r na nb d am1 am2 am3).ML.toNat
      ∀ i j : Fin n, |(est n (s k).arr).P i j| ≤ 1000000 * (200 / 199) ^ k ∧
        (k ≤ windUpCalls → |(est n (s k).arr).P i j| ≤ 2 ^ 128) := by
  have hsmall : ∀ {q : ℚ} {k : ℕ}, q ≤ 1000000 * (200 / 199) ^ k → k ≤ windUpCalls →
      q ≤ 2 ^ 128 := fun {q k} hq hk => by
    have hpow : (200 / 199 : ℚ) ^ k ≤ (200 / 199) ^ windUpCalls :=
      pow_le_pow_right₀ (by norm_num) hk
    linarith [windUpCalls_le]
  refine ⟨?_, ?_⟩
  · intro r x k s n i j
    have h := (STCPP.tracks_run (x := x) rfl).abs_P_le k (fun _ => factor_stc) i j
    rw [one_div_div] at h
    exact ⟨h, hsmall h⟩
  · intro r x k s n i j
    have h := (STCPPPID.tracks_run (x := x) rfl).abs_P_le k (fun _ => factor_stc) i j
    rw [one_div_div] at h
    exact ⟨h, hsmall h⟩

theorem abs_P_le_of_calls_full :
    let s := run (STCPP.apply PPCFFRELS.ML_A)
      (PPCFFRELS.init PPCFFRELS.ML_A default 2 1 3 1 (-13 / 10) (48 / 100)) fun _ => ⟨0, 0, 0, 0⟩
    let n := (PPCFFRELS.init PPCFFRELS.ML_A default 2 1 3 1 (-13 / 10) (48 / 100)).ML.toNat
    ∀ i j : Fin n, |(est n (s windUpCalls).arr).P i j| ≤ 2 ^ 128 := by
  intro s n i j
  exact ((abs_P_le_of_calls PPCFFRELS.ML_A 2 1 3 1 (-13 / 10) (48 / 100)).1 default
    (fun _ => ⟨0, 0, 0, 0⟩) windUpCalls i j).2 le_rfl

/-- At rest the bound is reached: one call more and the covariance is too large
    for the format, with every datum zero. -/
theorem covariance_overflows :
    ¬ ∀ x : ℕ → DataArrays, (∀ k i, |(x k).CDataYFK i| ≤ 1 ∧ |(x k).CDataUFK i| ≤ 1 ∧
        |(x k).CDataYE i| ≤ 1 ∧ |(x k).CDataU i| ≤ 1) →
      ∀ k (i j : Fin 6), |(est 6 (run (STCPP.apply PPCFFRELS.ML_A)
        (PPCFFRELS.init PPCFFRELS.ML_A default 2 1 3 1 (-13 / 10) (48 / 100)) x k).arr).P i j| ≤
          2 ^ 128 := by
  intro h
  let r := PPCFFRELS.init PPCFFRELS.ML_A default 2 1 3 1 (-13 / 10) (48 / 100)
  let x : ℕ → DataArrays := fun _ => ⟨0, 0, 0, 0⟩
  have hcfg : ∀ k, PPCFFRELS.Configured PPCFFRELS.ML_A 2 1 3 1 (-13 / 10) (48 / 100)
      (run (STCPP.apply PPCFFRELS.ML_A) r x k) :=
    run_invariant PPCFFRELS.init_configured fun _ _ hr => hr.update
  have hdeg := fun k => (hcfg k).degrees (by norm_num)
  have hn : ∀ k, (run (STCPP.apply PPCFFRELS.ML_A) r x k).ML.toNat = 6 := fun k => by
    rw [(hdeg k).ML]
    rfl
  have hquiet : ∀ k, phie 6 (run (STCPP.apply PPCFFRELS.ML_A) r x (k + 1)).arr = 0 := fun k =>
    STCPP.phie_apply_zero (hdeg k) (by rw [(hdeg k).NF]; norm_num) (by rw [(hdeg k).NG]; norm_num)
      (hn k)
  have hP := (STCPP.tracks_run (x := x) (hn 0)).P_of_quiet (windUpCalls + 1)
    (fun _ => factor_stc) hquiet
  have hle := h x (fun _ _ => by simp [x]) (windUpCalls + 1) 0 0
  rw [hP, Matrix.smul_apply, Matrix.one_apply_eq, smul_eq_mul, mul_one, one_div_div] at hle
  exact absurd ((le_abs_self _).trans hle) (not_le.mpr lt_windUpCalls_succ)
