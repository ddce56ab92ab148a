-- SUMMARY: The array cells the pole-placement estimators touch, and how large the arrays have to be.
import LynxFly.Control.CFFRELS
import LynxFly.Control.PPCFFRELS

/-!
# Array bounds

The headers ask for a capacity above every `ML`. That covers the parameters and
the regressor, but `AA` has `NAA+1` coefficients, and `NAA` is not bounded by `ML`.
-/

open Buffers Buffers.Prog LibMatrix LibMyMath Estimator Polynomials

variable {M n : ℕ} {na nb d : ℤ} {am1 am2 am3 : ℚ} {a : Arr}

/-! ## Room in the arrays -/

section Room

theorem room_inBounds {N : ℕ} (hN : N ≤ a.size M) : Room (InBounds M) a N := fun i hi =>
  ⟨⟨Int.natCast_nonneg i, by omega⟩, Int.natCast_nonneg i, by omega⟩

theorem room_row (ha : a.size M = M) (hn : n ≤ M) : Room (InBounds M) a (1 * n) :=
  room_inBounds (by omega)

theorem room_col (ha : a.size M = M) (hn : n ≤ M) : Room (InBounds M) a (n * 1) :=
  room_inBounds (by omega)

theorem room_square (ha : a.size M = M * M) (hn : n ≤ M) : Room (InBounds M) a (n * n) :=
  room_inBounds (ha ▸ Nat.mul_le_mul hn hn)

theorem room_scalar (ha : a.size M = 1) : Room (InBounds M) a (1 * 1) :=
  room_inBounds ha.ge

variable {i : ℤ} {v : ℚ}

theorem within_rd_inBounds (h0 : 0 ≤ i) (hi : i < a.size M) : Within (InBounds M) (rd a i) :=
  within_rd ⟨h0, hi⟩

theorem within_wr_inBounds (h0 : 0 ≤ i) (hi : i < a.size M) : Within (InBounds M) (wr a i v) :=
  within_wr ⟨h0, hi⟩

theorem within_rd_scalar (ha : a.size M = 1) : Within (InBounds M) (rd a 0) :=
  within_rd ⟨le_rfl, by omega⟩

theorem within_wr_scalar (ha : a.size M = 1) : Within (InBounds M) (wr a 0 v) :=
  within_wr ⟨le_rfl, by omega⟩

theorem within_fdiv_inBounds {x y : ℚ} : Within (InBounds M) (fdiv x y) := within_fdiv trivial

end Room

/-! ## The shared lines -/

namespace Estimator

variable {lambda y : ℚ}

theorem within_gainLines (hn : n ≤ M) : Within (InBounds M) (gainLines n lambda) :=
  (within_matrixTranspose (room_col rfl hn) (room_row rfl hn)).bind fun _ =>
    (within_matrixMultiply (room_row rfl hn) (room_square rfl hn) (room_row rfl hn)).bind fun _ =>
    (within_matrixMultiply (room_row rfl hn) (room_col rfl hn) (room_scalar rfl)).bind fun _ =>
    (within_rd_scalar rfl).bind fun _ => within_fdiv_inBounds.bind fun _ =>
    (within_matrixMultiply (room_square rfl hn) (room_col rfl hn) (room_col rfl hn)).bind fun _ =>
    within_matrixMultiplyK (room_col rfl hn) (room_col rfl hn)

theorem within_thetaeLines (hn : n ≤ M) : Within (InBounds M) (thetaeLines n y) :=
  (within_matrixMultiply (room_row rfl hn) (room_col rfl hn) (room_scalar rfl)).bind fun _ =>
    (within_rd_scalar rfl).bind fun _ =>
    (within_matrixMultiplyK (room_col rfl hn) (room_col rfl hn)).bind fun _ =>
    within_matrixAddition (room_col rfl hn) (room_col rfl hn) (room_col rfl hn)

theorem within_covarianceLines (hn : n ≤ M) : Within (InBounds M) (covarianceLines n) :=
  (within_matrixMultiply (room_col rfl hn) (room_row rfl hn) (room_square rfl hn)).bind fun _ =>
    (within_matrixEye (room_square rfl hn)).bind fun _ =>
    (within_matrixMinus (room_square rfl hn) (room_square rfl hn) (room_square rfl hn)).bind
      fun _ =>
    within_matrixMultiply (room_square rfl hn) (room_square rfl hn) (room_square rfl hn)

theorem within_forgettingUpdate {regressor : Prog Arr ℚ Unit} (hn : n ≤ M)
    (hreg : Within (InBounds M) regressor) :
    Within (InBounds M) (forgettingUpdate n regressor lambda y) :=
  (within_matrixCopy (room_col rfl hn) (room_col rfl hn)).bind fun _ => hreg.bind fun _ =>
    ((within_gainLines hn).bind fun _ => (within_thetaeLines hn).bind fun _ =>
      within_covarianceLines hn).bind fun _ =>
    within_fdiv_inBounds.bind fun _ => within_matrixMultiplyK (room_square rfl hn)
      (room_square rfl hn)

theorem within_initThetaeP (hn : n ≤ M) : Within (InBounds M) (initThetaeP n) :=
  (within_loop fun i hi => within_wr_inBounds (Int.natCast_nonneg i)
    (by simp only [Arr.size]; omega)).bind fun _ =>
    (within_matrixCopy (room_col rfl hn) (room_col rfl hn)).bind fun _ =>
    (within_matrixEye (room_square rfl hn)).bind fun _ =>
    within_matrixMultiplyK (room_square rfl hn) (room_square rfl hn)

end Estimator

namespace Polynomials

variable {NA0 NAM ML NF NG D : ℤ}

theorem within_setAM (hM : 3 ≤ M) : Within (InBounds M) (setAM M am1 am2 am3) := by
  have hAM : ∀ i : ℤ, 0 ≤ i → i ≤ 2 → ∀ v : ℚ, Within (InBounds M) (wr .AM i v) :=
    fun i h0 hi _ => within_wr_inBounds h0 (by simp only [Arr.size]; omega)
  exact (within_matrixInit0 (room_row rfl le_rfl)).bind fun _ =>
    (hAM 0 le_rfl (by norm_num) _).bind fun _ =>
    (hAM 1 (by norm_num) (by norm_num) _).bind fun _ => hAM 2 (by norm_num) le_rfl _

theorem within_observerRound {k : ℕ} (hk : k + 2 ≤ M) :
    Within (InBounds M) (observerRound M k) := by
  have hone : (1 : ℤ) < Arr.size M .RELS_tmp_VT1 := by
    simp only [Arr.size]
    omega
  exact (within_rd_inBounds zero_le_one hone).bind fun _ =>
    (within_wr_inBounds zero_le_one hone).bind fun _ =>
    (within_fconv (room_inBounds (by simp only [Arr.size]; omega))
      (room_inBounds (by simp only [Arr.size]; omega))
      (room_inBounds (by simp only [Arr.size]; omega))).bind fun _ =>
    (within_matrixCopy (room_row rfl le_rfl) (room_row rfl le_rfl)).bind fun _ =>
    within_matrixInit0 (room_row rfl le_rfl)

theorem within_calcA0 (hM : 2 ≤ M) (hNA0 : NA0 + 1 ≤ M) : Within (InBounds M) (calcA0 M NA0) :=
  (within_matrixInit0 (room_row rfl le_rfl)).bind fun _ =>
    (within_matrixInit0 (room_row rfl le_rfl)).bind fun _ =>
    (within_matrixInit0 (room_row rfl le_rfl)).bind fun _ =>
    (within_wr_inBounds le_rfl (by simp only [Arr.size]; omega)).bind fun _ =>
    (within_wr_inBounds le_rfl (by simp only [Arr.size]; omega)).bind fun _ =>
    (within_wr_inBounds zero_le_one (by simp only [Arr.size]; omega)).bind fun _ =>
    within_loop fun _ _ => within_observerRound (by omega)

theorem within_calcAA (hM : 3 ≤ M) (hNA0 : NA0 + 2 < M) : Within (InBounds M) (calcAA M NA0 2) :=
  (within_matrixInit0 (room_row rfl le_rfl)).bind fun _ =>
    within_fconv (room_inBounds (by simp only [Arr.size]; omega))
      (room_inBounds (by simp only [Arr.size]; omega))
      (room_inBounds (by simp only [Arr.size]; omega))

/-- `init` needs a cell for every coefficient of `AA`. -/
theorem within_initProg (hM : 3 ≤ M) (hML : ML ≤ M) (hNA0 : NA0 + 2 < M) :
    Within (InBounds M) (initProg M NA0 2 ML am1 am2 am3) :=
  (within_setAM hM).bind fun _ => (within_calcA0 (by omega) (by omega)).bind fun _ =>
    (within_calcAA hM hNA0).bind fun _ => within_initThetaeP (by omega)

/-- And uses them: the last coefficient of `AA` is written whenever there is
    one. -/
theorem write_AA_mem_accesses_initProg (hNA0 : 0 ≤ NA0) (c : Cells Arr ℚ) :
    .write .AA (NA0 + 2) ∈ (initProg M NA0 2 ML am1 am2 am3).accesses c := by
  have hfconv := write_mem_accesses_fconv (a := Arr.A0) (m := (NA0 + 1).toNat) (b := .AM) (n := 3)
    (r := .AA) (i := (NA0 + 2).toNat) (by omega) (by norm_num) (by omega)
  rw [Int.toNat_of_nonneg (by omega)] at hfconv
  simp only [initProg, calcAA, accesses_bind, List.mem_append]
  exact .inr (.inr (.inl (.inr (hfconv _))))

theorem within_ufkYfk_inBounds {CDataYFK CDataUFK : ℤ → ℚ} (hNF : 0 ≤ NF) (hNG : 0 ≤ NG)
    (hM : NF + 1 + NG + 1 ≤ M) :
    Within (InBounds M) (ufkYfk NF NG D CDataYFK CDataUFK) :=
  within_ufkYfk (fun _ _ => ⟨by omega, by simp only [Arr.size]; omega⟩)
    fun _ _ => ⟨by omega, by simp only [Arr.size]; omega⟩

theorem within_extractFG (ha : a.size M = M) (hn : n ≤ M) (hM : 1 ≤ M) (hNF : 0 ≤ NF)
    (hNG : 0 ≤ NG) (hML : NF + 1 + NG + 1 ≤ M) : Within (InBounds M) (extractFG a NF NG n) :=
  ((within_rd_inBounds le_rfl (by simp only [Arr.size]; omega)).bind fun _ =>
    (within_wr_scalar rfl).bind fun _ =>
    (within_rd_scalar rfl).bind fun _ => within_fdiv_inBounds.bind fun _ =>
    within_matrixMultiplyK (room_row rfl hn) (room_row rfl hn)).bind fun _ =>
    (within_loop fun _ _ => (within_rd_inBounds (by omega) (by simp only [Arr.size]; omega)).bind
      fun _ => within_wr_inBounds (by omega) (by omega)).bind fun _ =>
    within_loop fun _ _ => (within_rd_inBounds (by omega) (by simp only [Arr.size]; omega)).bind
      fun _ => within_wr_inBounds (by omega) (by simp only [Arr.size]; omega)

theorem within_sumAM (hNAM : NAM < M) : Within (InBounds M) (sumAM NAM) :=
  (within_wr_scalar rfl).bind fun _ =>
    within_loop fun _ _ => (within_rd_scalar rfl).bind fun _ =>
      (within_rd_inBounds (by omega) (by simp only [Arr.size]; omega)).bind fun _ =>
      within_wr_scalar rfl

theorem within_guardBE0 : Within (InBounds M) guardBE0 :=
  (within_rd_scalar rfl).bind fun _ =>
    within_ite (fun _ => within_wr_scalar rfl) fun _ => within_pure ()

theorem within_calcR (hNAM : NAM < M) : Within (InBounds M) (calcR M NAM) :=
  (within_matrixInit0 (room_row rfl le_rfl)).bind fun _ => (within_sumAM hNAM).bind fun _ =>
    within_guardBE0.bind fun _ => (within_rd_scalar rfl).bind fun _ =>
    (within_rd_scalar rfl).bind fun _ => within_fdiv_inBounds.bind fun _ =>
    (within_wr_scalar rfl).bind fun _ =>
    (within_rd_scalar rfl).bind fun _ =>
    within_matrixMultiplyK (room_row rfl le_rfl) (room_row rfl le_rfl)

end Polynomials

/-! ## PPCFFRELS -/

namespace PPCFFRELS

variable {relsIn : PPCFFRELS} {CDataYFK CDataUFK : ℤ → ℚ} {lambda : ℚ}

/-- What `PPCFFRELS_init` touches, for orders that are set. -/
def configureAccesses (M : ℕ) (relsIn : PPCFFRELS) (na nb d : ℤ) (am1 am2 am3 : ℚ) :
    List (Access Arr ℚ) :=
  let relsIn := relsIn.setOrders na nb d
  (initProg M relsIn.NA0 relsIn.NAM relsIn.ML am1 am2 am3).accesses relsIn.arr

/-- What `PPCFFRELS_init` touches. -/
def initAccesses (M : ℕ) (relsIn : PPCFFRELS) (na nb d : ℤ) (am1 am2 am3 : ℚ) :
    List (Access Arr ℚ) :=
  if IsUnset na nb d am1 am2 am3 then
    configureAccesses M relsIn 2 1 3 1 (-13 / 10) (48 / 100)
  else
    configureAccesses M relsIn na nb d am1 am2 am3

/-- Everything `init`, and later `Update` and `ClcFGR`, touch for these orders. -/
structure StaysInBounds (M : ℕ) (na nb d : ℤ) (am1 am2 am3 : ℚ) : Prop where
  init : ∀ relsIn, ∀ e ∈ initAccesses M relsIn na nb d am1 am2 am3, InBounds M e
  update : ∀ relsIn, Configured M na nb d am1 am2 am3 relsIn → ∀ CDataYFK CDataUFK lambda,
    ∀ e ∈ (relsIn.updateProg M CDataYFK CDataUFK lambda).accesses relsIn.arr, InBounds M e
  clcFGR : ∀ relsIn, Configured M na nb d am1 am2 am3 relsIn →
    ∀ e ∈ (relsIn.clcFGRProg M).accesses relsIn.arr, InBounds M e

theorem initAccesses_of_delay (hd : 1 ≤ d) : initAccesses M relsIn na nb d am1 am2 am3 =
    (initProg M (2 * na - nb - 3) 2 (nb + d + na) am1 am2 am3).accesses relsIn.arr := by
  have hdeg : Degrees na nb d (configure M relsIn na nb d am1 am2 am3) := configure_degrees
  rw [initAccesses, if_neg (by rintro ⟨_, _, hd', _⟩; omega), ← hdeg.NA0, ← hdeg.NAM, ← hdeg.ML]
  rfl

theorem within_clcFGRProg (hdeg : Degrees na nb d relsIn) (hna : 1 ≤ na) (hnb : 0 ≤ nb)
    (hd : 1 ≤ d) (hML : relsIn.ML < M) : Within (InBounds M) (relsIn.clcFGRProg M) := by
  have hsum := hdeg.ML_eq
  have hNF := hdeg.NF
  have hNG := hdeg.NG
  have hNAM := hdeg.NAM
  exact (within_extractFG rfl (by omega) (by omega) (by omega) (by omega) (by omega)).bind
    fun _ => within_calcR (by omega)

theorem within_updateProg (hdeg : Degrees na nb d relsIn) (hna : 1 ≤ na) (hnb : 0 ≤ nb)
    (hd : 1 ≤ d) (hML : relsIn.ML < M) :
    Within (InBounds M) (relsIn.updateProg M CDataYFK CDataUFK lambda) := by
  have hsum := hdeg.ML_eq
  have hNF := hdeg.NF
  have hNG := hdeg.NG
  exact (within_forgettingUpdate (by omega)
    (within_ufkYfk_inBounds (by omega) (by omega) (by omega))).bind fun _ =>
    within_clcFGRProg hdeg hna hnb hd hML

theorem staysInBounds_iff (hna : 1 ≤ na) (hnb : 0 ≤ nb) (hd : 1 ≤ d)
    (hML : (PPCFFRELS.init M relsIn na nb d am1 am2 am3).ML < M) :
    StaysInBounds M na nb d am1 am2 am3 ↔ 2 * na - nb - 1 < M := by
  rw [(init_configured.degrees hd).ML] at hML
  constructor
  · intro h
    by_contra hNAA
    have hwrite := h.init relsIn (.write .AA (2 * na - nb - 3 + 2)) <| by
      rw [initAccesses_of_delay hd]
      exact write_AA_mem_accesses_initProg (by omega) _
    simp only [InBounds, Arr.size] at hwrite
    omega
  · intro hNAA
    refine ⟨fun r => ?_, fun r h _ _ _ => ?_, fun r h => ?_⟩
    · rw [initAccesses_of_delay hd]
      exact within_initProg (by omega) hML.le (by omega) _
    · exact within_updateProg (h.degrees hd) hna hnb hd ((h.degrees hd).ML ▸ hML) _
    · exact within_clcFGRProg (h.degrees hd) hna hnb hd ((h.degrees hd).ML ▸ hML) _

end PPCFFRELS

/-! ## CFFRELS -/

namespace CFFRELS

variable {relsIn : CFFRELS} {CDataYFK CDataUFK : ℤ → ℚ} {lambda : ℚ}

/-- What `CFFRELS_init` touches, for orders that are set. -/
def configureAccesses (M : ℕ) (relsIn : CFFRELS) (na nb d : ℤ) (am1 am2 am3 : ℚ) :
    List (Access Arr ℚ) :=
  let relsIn := relsIn.setOrders na nb d
  (initProg M relsIn.NA0 relsIn.NAM relsIn.ML am1 am2 am3).accesses relsIn.arr

/-- What `CFFRELS_init` touches. -/
def initAccesses (M : ℕ) (relsIn : CFFRELS) (na nb d : ℤ) (am1 am2 am3 : ℚ) :
    List (Access Arr ℚ) :=
  if IsUnset na nb d am1 am2 am3 then
    configureAccesses M relsIn 2 1 3 1 (-16 / 10) (66 / 100)
  else
    configureAccesses M relsIn na nb d am1 am2 am3

/-- Everything `init`, and later `Update` and `ClcFGR`, touch for these orders. -/
structure StaysInBounds (M : ℕ) (na nb d : ℤ) (am1 am2 am3 : ℚ) : Prop where
  init : ∀ relsIn, ∀ e ∈ initAccesses M relsIn na nb d am1 am2 am3, InBounds M e
  update : ∀ relsIn, Configured M na nb d am1 am2 am3 relsIn → ∀ CDataYFK CDataUFK lambda,
    ∀ e ∈ (relsIn.updateProg M CDataYFK CDataUFK lambda).accesses relsIn.arr, InBounds M e
  clcFGR : ∀ relsIn, Configured M na nb d am1 am2 am3 relsIn →
    ∀ e ∈ (relsIn.clcFGRProg M).accesses relsIn.arr, InBounds M e

theorem initAccesses_of_delay (hd : 1 ≤ d) : initAccesses M relsIn na nb d am1 am2 am3 =
    (initProg M (2 * na - nb - 3) 2 (nb + d + na + 1) am1 am2 am3).accesses relsIn.arr := by
  have hdeg : Degrees na nb d (configure M relsIn na nb d am1 am2 am3) := configure_degrees
  rw [initAccesses, if_neg (by rintro ⟨_, _, hd', _⟩; omega), ← hdeg.NA0, ← hdeg.NAM, ← hdeg.ML]
  rfl

theorem within_integrateF {NF1 : ℤ} (hM : 2 ≤ M) (hNF1 : NF1 + 2 ≤ M) :
    Within (InBounds M) (integrateF M NF1) :=
  (within_matrixInit0 (room_row rfl le_rfl)).bind fun _ =>
    (within_wr_inBounds le_rfl (by simp only [Arr.size]; omega)).bind fun _ =>
    (within_wr_inBounds zero_le_one (by simp only [Arr.size]; omega)).bind fun _ =>
    (within_matrixInit0 (room_row rfl le_rfl)).bind fun _ =>
    within_fconv (room_inBounds (by simp only [Arr.size]; omega))
      (room_inBounds (by simp only [Arr.size]; omega))
      (room_inBounds (by simp only [Arr.size]; omega))

theorem within_clcFGRProg (hdeg : Degrees na nb d relsIn) (hna : 1 ≤ na) (hnb : 0 ≤ nb)
    (hd : 1 ≤ d) (hML : relsIn.ML < M) : Within (InBounds M) (relsIn.clcFGRProg M) := by
  have hsum := hdeg.ML_eq
  have hNF1 := hdeg.NF1
  have hNG := hdeg.NG
  have hNAM := hdeg.NAM
  exact (within_extractFG rfl (by omega) (by omega) (by omega) (by omega) (by omega)).bind
    fun _ => (within_integrateF (by omega) (by omega)).bind fun _ => within_calcR (by omega)

theorem within_updateProg (hdeg : Degrees na nb d relsIn) (hna : 1 ≤ na) (hnb : 0 ≤ nb)
    (hd : 1 ≤ d) (hML : relsIn.ML < M) :
    Within (InBounds M) (relsIn.updateProg M CDataYFK CDataUFK lambda) := by
  have hsum := hdeg.ML_eq
  have hNF1 := hdeg.NF1
  have hNG := hdeg.NG
  exact (within_forgettingUpdate (by omega)
    (within_ufkYfk_inBounds (by omega) (by omega) (by omega))).bind fun _ =>
    within_clcFGRProg hdeg hna hnb hd hML

theorem staysInBounds_iff (hna : 1 ≤ na) (hnb : 0 ≤ nb) (hd : 1 ≤ d)
    (hML : (CFFRELS.init M relsIn na nb d am1 am2 am3).ML < M) :
    StaysInBounds M na nb d am1 am2 am3 ↔ 2 * na - nb - 1 < M := by
  rw [(init_configured.degrees hd).ML] at hML
  constructor
  · intro h
    by_contra hNAA
    have hwrite := h.init relsIn (.write .AA (2 * na - nb - 3 + 2)) <| by
      rw [initAccesses_of_delay hd]
      exact write_AA_mem_accesses_initProg (by omega) _
    simp only [InBounds, Arr.size] at hwrite
    omega
  · intro hNAA
    refine ⟨fun r => ?_, fun r h _ _ _ => ?_, fun r h => ?_⟩
    · rw [initAccesses_of_delay hd]
      exact within_initProg (by omega) hML.le (by omega) _
    · exact within_updateProg (h.degrees hd) hna hnb hd ((h.degrees hd).ML ▸ hML) _
    · exact within_clcFGRProg (h.degrees hd) hna hnb hd ((h.degrees hd).ML ▸ hML) _

end CFFRELS

/-! ## The sizing rule -/

/-- A capacity above `ML` keeps the estimators inside their arrays exactly when it
    has room for `AA` as well. -/
theorem sizing_rule_sufficient_iff (hna : 1 ≤ na) (hnb : 0 ≤ nb) (hd : 1 ≤ d) :
    (∀ relsIn, (PPCFFRELS.init M relsIn na nb d am1 am2 am3).ML < M →
        (PPCFFRELS.StaysInBounds M na nb d am1 am2 am3 ↔ 2 * na - nb - 1 < M)) ∧
      ∀ relsIn, (CFFRELS.init M relsIn na nb d am1 am2 am3).ML < M →
        (CFFRELS.StaysInBounds M na nb d am1 am2 am3 ↔ 2 * na - nb - 1 < M) :=
  ⟨fun _ hML => PPCFFRELS.staysInBounds_iff hna hnb hd hML,
    fun _ hML => CFFRELS.staysInBounds_iff hna hnb hd hML⟩

/-- At the capacity of the headers there is room for a plant of order five. -/
theorem sizing_rule_sufficient_iff_order_five :
    PPCFFRELS.StaysInBounds PPCFFRELS.ML_A 5 0 1 1 0 0 ∧
      CFFRELS.StaysInBounds CFFRELS.ML_A 5 0 1 1 0 0 := by
  obtain ⟨hPP, hCFF⟩ := @sizing_rule_sufficient_iff 10 5 0 1 1 0 0 (by norm_num) le_rfl le_rfl
  refine ⟨(hPP default ?_).2 (by norm_num), (hCFF default ?_).2 (by norm_num)⟩
  · rw [(PPCFFRELS.init_configured.degrees le_rfl).ML]
    norm_num
  · rw [(CFFRELS.init_configured.degrees le_rfl).ML]
    norm_num

/-- Not so for order six, although `ML` stays below it: `AA[11]` is written. -/
theorem sizing_rule_insufficient :
    (PPCFFRELS.init PPCFFRELS.ML_A default 6 0 1 1 0 0).ML < PPCFFRELS.ML_A ∧
      .write .AA 11 ∈ PPCFFRELS.initAccesses PPCFFRELS.ML_A default 6 0 1 1 0 0 ∧
      (CFFRELS.init CFFRELS.ML_A default 6 0 1 1 0 0).ML < CFFRELS.ML_A ∧
      .write .AA 11 ∈ CFFRELS.initAccesses CFFRELS.ML_A default 6 0 1 1 0 0 ∧
      ¬ InBounds PPCFFRELS.ML_A (.write .AA 11) := by
  refine ⟨?_, ?_, ?_, ?_, ?_⟩
  · rw [(PPCFFRELS.init_configured.degrees le_rfl).ML]
    norm_num [PPCFFRELS.ML_A]
  · rw [PPCFFRELS.initAccesses_of_delay le_rfl]
    exact write_AA_mem_accesses_initProg (by norm_num) _
  · rw [(CFFRELS.init_configured.degrees le_rfl).ML]
    norm_num [CFFRELS.ML_A]
  · rw [CFFRELS.initAccesses_of_delay le_rfl]
    exact write_AA_mem_accesses_initProg (by norm_num) _
  · simp [InBounds, Arr.size, PPCFFRELS.ML_A]
