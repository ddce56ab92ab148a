-- SUMMARY: The two initAsSteady functions: a table of a known steady state, written over what init left.
import LynxFly.Control.CFFRELS
import LynxFly.Control.PPCFFRELS

/-!
# Starting from a known estimate

`CFFRELS_initAsSteady` and `PPCFFRELS_initAsSteady` run `init` and then copy constant
tables of `MaxConstLength` parameters and their covariance into the struct. The
covariance goes through `matrix_copy`, which has one row length for its source and its
destination, while the rows of the table are `MaxConstLength` long and those of `P`
are `ML` long.
-/

open Buffers Buffers.Prog LibMatrix Estimator LeastSquares

/-- The constant tables of an `initAsSteady`. -/
structure Steady where
  MaxConstLength : ℕ
  Steady_thetae_1 : ℕ → ℚ
  Steady_P : ℕ → ℕ → ℚ

namespace Steady

/-- `(float*)Steady_P`. -/
def flatP (s : Steady) (q : ℤ) : ℚ :=
  s.Steady_P (q.toNat / s.MaxConstLength) (q.toNat % s.MaxConstLength)

/-- `matrix_copy` from a constant table, which is none of the arrays. -/
def matrixCopyConst (A : ℤ → ℚ) (m n : ℕ) (C : Arr) : Prog Arr ℚ Unit :=
  loop m fun i => loop n fun j => wr C (n * i + j) (A (n * i + j))

/-- The lines of an `initAsSteady` between `init` and `ClcFGR`. -/
def store (s : Steady) (ML : ℕ) : Prog Arr ℚ Unit := do
  loop (min ML s.MaxConstLength) fun RELS_i => wr .thetae_1 RELS_i (s.Steady_thetae_1 RELS_i)
  matrixCopy .thetae_1 ML 1 .thetae
  if ML > s.MaxConstLength then
    matrixCopyConst s.flatP s.MaxConstLength s.MaxConstLength .P
  else
    matrixCopyConst s.flatP ML ML .P

/-! ## What is to be installed -/

/-- The estimate of order `n` is the table, where the table has an entry, and what
    `init` gave elsewhere. -/
structure Installed (s : Steady) (n : ℕ) (c : Cells Arr ℚ) : Prop where
  P : ∀ i j : Fin n, (est n c).P i j =
    if (i : ℕ) < s.MaxConstLength ∧ (j : ℕ) < s.MaxConstLength then s.Steady_P i j
    else if i = j then 1000000 else 0
  thetae : ∀ i : Fin n, (est n c).θ i =
    if (i : ℕ) < s.MaxConstLength then s.Steady_thetae_1 i else 1 / 1000
  thetae_1 : ∀ i : Fin n, asVec n (c .thetae_1) i =
    if (i : ℕ) < s.MaxConstLength then s.Steady_thetae_1 i else 1 / 1000

/-- The copy needs no other row length: both are the same, or there is at most one
    entry, or the table is the larger one and the first `n * n` of its entries in row
    order are its leading block row by row. -/
def FitsStride (s : Steady) (n : ℕ) : Prop :=
  n = s.MaxConstLength ∨ s.MaxConstLength ≤ 1 ∨
    n < s.MaxConstLength ∧ ∀ i < n, ∀ j < n, s.Steady_P i j =
      s.Steady_P ((n * i + j) / s.MaxConstLength) ((n * i + j) % s.MaxConstLength)

/-! ## Rows of another length -/

section Stride

variable {V : Type} {T : ℕ → ℕ → V} {a b : V} {m n : ℕ}

/-- A table of `m` rows, laid out again in longer rows that are to hold it with `b`
    beside it, holds `b` from its second row on. -/
theorem eq_of_longer_rows (hm : 0 < m) (hmn : m < n)
    (hin : ∀ i < n, ∀ j < n, n * i + j < m * m → T ((n * i + j) / m) ((n * i + j) % m) =
      if i < m ∧ j < m then T i j else if i = j then a else b) (r : ℕ) (hr : m ≤ r)
    (hlt : r < m * m) : T (r / m) (r % m) = b := by
  induction r using Nat.strong_induction_on with
  | h r ih =>
    have hn : 0 < n := hm.trans hmn
    have hq : n * (r / n) + r % n = r := Nat.div_add_mod r n
    have hrow : r / n < m := by
      rw [Nat.div_lt_iff_lt_mul hn]
      exact hlt.trans (Nat.mul_lt_mul_of_pos_left hmn hm)
    have hcell := hin (r / n) (hrow.trans hmn) (r % n) (Nat.mod_lt r hn) (by rw [hq]; exact hlt)
    rw [hq] at hcell
    rw [hcell]
    by_cases hcol : r % n < m
    · -- the entry that is to stand here stood further up
      rw [if_pos ⟨hrow, hcol⟩]
      have hpos : 1 ≤ r / n := by
        rcases Nat.eq_zero_or_pos (r / n) with h | h
        · rw [h, Nat.mul_zero, Nat.zero_add] at hq
          omega
        · exact h
      have hup : m * (r / n) + r % n < r := by
        have : m * (r / n) < n * (r / n) := Nat.mul_lt_mul_of_pos_right hmn hpos
        omega
      have hge : m ≤ m * (r / n) + r % n := (Nat.le_mul_of_pos_right m hpos).trans (by omega)
      have h := ih _ hup hge (hup.trans hlt)
      rwa [Nat.mul_add_div hm, Nat.div_eq_of_lt hcol, Nat.add_zero, Nat.mul_add_mod,
        Nat.mod_eq_of_lt hcol] at h
    · rw [if_neg fun h => hcol h.2, if_neg (by omega)]

/-- No table of two rows or more can be laid out again in longer rows and still be
    its leading block, with `a` on the rest of the diagonal and `b` off it. -/
theorem not_longer_rows (hab : a ≠ b) (hm : 2 ≤ m) (hmn : m < n)
    (hin : ∀ i < n, ∀ j < n, n * i + j < m * m → T ((n * i + j) / m) ((n * i + j) % m) =
      if i < m ∧ j < m then T i j else if i = j then a else b)
    (hout : ∀ i < n, ∀ j < n, m * m ≤ n * i + j → (if i = j then a else b) =
      if i < m ∧ j < m then T i j else if i = j then a else b) : False := by
  obtain ⟨k, rfl⟩ : ∃ k, m = k + 1 := ⟨m - 1, by omega⟩
  have hlast : (k + 1) * (k + 1) ≤ n * k + k := by
    calc (k + 1) * (k + 1) = (k + 1) * k + k + 1 := by ring
      _ ≤ (k + 1) * k + k + k := by omega
      _ = (k + 2) * k + k := by ring
      _ ≤ n * k + k := Nat.add_le_add_right (Nat.mul_le_mul_right k hmn) k
  -- the last entry of the table belongs in a cell the copy does not reach
  have ha : a = T k k := by
    have h := hout k (by omega) k (by omega) hlast
    rwa [if_pos rfl, if_pos ⟨Nat.lt_succ_self k, Nat.lt_succ_self k⟩] at h
  have hlt : (k + 1) * k + k < (k + 1) * (k + 1) := by
    rw [show (k + 1) * (k + 1) = (k + 1) * k + k + 1 by ring]
    exact Nat.lt_succ_self _
  have hge : k + 1 ≤ (k + 1) * k + k := by
    have : (k + 1) * 1 ≤ (k + 1) * k := Nat.mul_le_mul_left _ (by omega)
    omega
  have hb := eq_of_longer_rows (Nat.succ_pos k) hmn hin ((k + 1) * k + k) hge hlt
  rw [Nat.mul_add_div (Nat.succ_pos k), Nat.div_eq_of_lt (Nat.lt_succ_self k), Nat.add_zero,
    Nat.mul_add_mod, Nat.mod_eq_of_lt (Nat.lt_succ_self k)] at hb
  exact hab (ha.trans hb)

end Stride

/-! ## What is stored -/

section Store

variable {s : Steady} {n : ℕ} {c : Cells Arr ℚ} {b : Arr}

theorem fillsGrid_matrixCopyConst {A : ℤ → ℚ} {m n : ℕ} {C : Arr} :
    FillsGrid (matrixCopyConst A m n C) c C m n (fun i j => n * i + j) fun i j => A (n * i + j) :=
  FillsGrid.of_loops (fun _ _ _ hj _ _ _ hj' heq => rowMajor_inj hj hj' heq)
    fun _ _ _ _ _ _ _ => fills_wr _ _

theorem flatP_natCast (q : ℕ) :
    s.flatP q = s.Steady_P (q / s.MaxConstLength) (q % s.MaxConstLength) := rfl

/-- Cell `q` of `P` after a copy of `N` rows of `N` entries. -/
theorem exec_matrixCopyConst_square {A : ℤ → ℚ} {N : ℕ} (q : ℕ) :
    (matrixCopyConst A N N .P).exec c .P q = if q < N * N then A q else c .P q := by
  have hfill := fillsGrid_matrixCopyConst (c := c) (A := A) (m := N) (n := N) (C := .P)
  split
  case isTrue h =>
    have hN : 0 < N := Nat.pos_of_ne_zero fun h0 => by
      subst h0
      omega
    have hcell := hfill.cell (q / N) ((Nat.div_lt_iff_lt_mul hN).mpr h) (q % N) (Nat.mod_lt q hN)
    have hq : (N * (q / N : ℕ) + (q % N : ℕ) : ℤ) = q := by exact_mod_cast Nat.div_add_mod q N
    rwa [hq] at hcell
  case isFalse h =>
    refine hfill.rest q fun i hi j hj heq => h ?_
    have hq : q = N * i + j := by exact_mod_cast heq
    exact hq ▸ rowMajor_lt hi hj

theorem exec_store_P (q : ℕ) :
    (s.store n).exec c .P q =
      if q < min n s.MaxConstLength * min n s.MaxConstLength then s.flatP q else c .P q := by
  have hhead : (matrixCopy .thetae_1 n 1 .thetae).exec
      ((loop (min n s.MaxConstLength) fun i => wr .thetae_1 i (s.Steady_thetae_1 i)).exec c) .P =
        c .P := by
    rw [exec_matrixCopy_of_ne (by decide) (by decide), (fillsRow_wr_zero _ _).frame _ (by decide)]
  simp only [store, exec_bind]
  split
  case isTrue h => rw [exec_matrixCopyConst_square, hhead, Nat.min_eq_right h.le]
  case isFalse h => rw [exec_matrixCopyConst_square, hhead, Nat.min_eq_left (Nat.not_lt.mp h)]

theorem exec_store_of_notMem (hb : b ∉ [Arr.thetae_1, .thetae, .P]) :
    (s.store n).exec c b = c b := by
  simp only [List.mem_cons, List.not_mem_nil, or_false, not_or] at hb
  simp only [store, exec_bind]
  split
  all_goals
    rw [fillsGrid_matrixCopyConst.frame b hb.2.2, exec_matrixCopy_of_ne (by decide) hb.2.1,
      (fillsRow_wr_zero _ _).frame b hb.1]

theorem exec_store_thetae_1 (i : Fin n) :
    asVec n ((s.store n).exec c .thetae_1) i =
      if (i : ℕ) < s.MaxConstLength then s.Steady_thetae_1 i else asVec n (c .thetae_1) i := by
  have hfill := fillsRow_wr_zero (c := c) (a := .thetae_1) (min n s.MaxConstLength)
    s.Steady_thetae_1
  have htail : (s.store n).exec c .thetae_1 = (loop (min n s.MaxConstLength) fun i =>
      wr Arr.thetae_1 i (s.Steady_thetae_1 i)).exec c .thetae_1 := by
    simp only [store, exec_bind]
    split
    all_goals
      rw [fillsGrid_matrixCopyConst.frame _ (by decide),
        exec_matrixCopy_of_ne (by decide) (by decide)]
  rw [htail, asVec_apply]
  split
  case isTrue h => exact hfill.cell i (lt_min i.isLt h)
  case isFalse h => exact hfill.rest i fun k hk heq => h (by omega)

theorem exec_store_thetae (i : Fin n) :
    asVec n ((s.store n).exec c .thetae) i = asVec n ((s.store n).exec c .thetae_1) i := by
  simp only [store, exec_bind]
  split
  all_goals
    rw [fillsGrid_matrixCopyConst.frame .thetae (by decide),
      fillsGrid_matrixCopyConst.frame .thetae_1 (by decide), asVec_matrixCopy (by decide),
      exec_matrixCopy_of_ne (by decide) (by decide)]

/-- A table of at most one entry fills no cell but its own. -/
private theorem min_one_sq {m : ℕ} (i j : Fin n) (hm : m ≤ 1) :
    n * i + j < min n m * min n m ↔ (i : ℕ) < m ∧ (j : ℕ) < m := by
  have hn : 1 ≤ n := by
    have := i.isLt
    omega
  rcases Nat.le_one_iff_eq_zero_or_eq_one.mp hm with rfl | rfl
  · simp
  · rw [min_eq_right hn, Nat.mul_one]
    constructor
    · intro h
      have hi : n * i = 0 := by omega
      rcases Nat.mul_eq_zero.mp hi with h0 | h0
      · omega
      · omega
    · rintro ⟨hi, hj⟩
      rw [Nat.lt_one_iff.mp hi, Nat.lt_one_iff.mp hj]
      exact Nat.one_pos

/-- The covariance after the copy, over what `init` left. -/
theorem est_store_P (hest : est n c = initial n) (i j : Fin n) :
    (est n ((s.store n).exec c)).P i j =
      if n * i + j < min n s.MaxConstLength * min n s.MaxConstLength then
        s.Steady_P ((n * i + j) / s.MaxConstLength) ((n * i + j) % s.MaxConstLength)
      else if (i : ℕ) = j then 1000000 else 0 := by
  have hP : c .P (n * i + j : ℕ) = if (i : ℕ) = j then 1000000 else 0 := by
    have h := congrFun (congrFun (congrArg Est.P hest) i) j
    simpa [est, initial, Matrix.one_apply, Fin.ext_iff] using h
  have h := exec_store_P (s := s) (n := n) (c := c) (n * i + j)
  rw [hP, flatP_natCast] at h
  rw [← h]
  simp [est]

/-- If the copy leaves the table, it could do with one row length. -/
theorem fitsStride_of_P (hest : est n c = initial n)
    (hP : ∀ i j : Fin n, (est n ((s.store n).exec c)).P i j =
      if (i : ℕ) < s.MaxConstLength ∧ (j : ℕ) < s.MaxConstLength then s.Steady_P i j
      else if i = j then 1000000 else 0) : s.FitsStride n := by
  have hwanted : ∀ i (hi : i < n) j (hj : j < n), _ = _ :=
    fun i hi j hj => (est_store_P hest ⟨i, hi⟩ ⟨j, hj⟩).symm.trans (hP ⟨i, hi⟩ ⟨j, hj⟩)
  simp only [Fin.mk.injEq] at hwanted
  rcases lt_trichotomy n s.MaxConstLength with hlt | heq | hgt
  · refine .inr (.inr ⟨hlt, fun i hi j hj => ?_⟩)
    have hw := hwanted i hi j hj
    rw [min_eq_left hlt.le, if_pos (rowMajor_lt hi hj), if_pos ⟨hi.trans hlt, hj.trans hlt⟩] at hw
    exact hw.symm
  · exact .inl heq
  · refine .inr (.inl (not_lt.mp fun hm => ?_))
    rw [min_eq_right hgt.le] at hwanted
    refine not_longer_rows (T := s.Steady_P) (a := 1000000) (b := 0) (by norm_num) hm hgt
      (fun i hi j hj hq => ?_) fun i hi j hj hq => ?_
    · rw [← hwanted i hi j hj, if_pos hq]
    · rw [← hwanted i hi j hj, if_neg (Nat.not_lt.mpr hq)]

theorem FitsStride.est_P (h : s.FitsStride n) (hest : est n c = initial n) (i j : Fin n) :
    (est n ((s.store n).exec c)).P i j =
      if (i : ℕ) < s.MaxConstLength ∧ (j : ℕ) < s.MaxConstLength then s.Steady_P i j
      else if i = j then 1000000 else 0 := by
  rw [est_store_P hest]
  rcases h with rfl | hm | ⟨hlt, h⟩
  · have hi := i.isLt
    have hj := j.isLt
    rw [min_self, if_pos (rowMajor_lt hi hj), if_pos ⟨hi, hj⟩, Nat.mul_add_div (by omega),
      Nat.div_eq_of_lt hj, Nat.add_zero, Nat.mul_add_mod, Nat.mod_eq_of_lt hj]
  · have hone := min_one_sq i j hm
    by_cases hij : (i : ℕ) < s.MaxConstLength ∧ (j : ℕ) < s.MaxConstLength
    · have hi : (i : ℕ) = 0 := by omega
      have hj : (j : ℕ) = 0 := by omega
      rw [if_pos (hone.mpr hij), if_pos hij, hi, hj, Nat.mul_zero, Nat.zero_div, Nat.zero_mod]
    · rw [if_neg fun h => hij (hone.mp h), if_neg hij]
      simp [Fin.ext_iff]
  · rw [min_eq_left hlt.le, if_pos (rowMajor_lt i.isLt j.isLt),
      if_pos ⟨i.isLt.trans hlt, j.isLt.trans hlt⟩, h i i.isLt j j.isLt]

/-- Over what `init` left, the tables are installed exactly when the copy of the
    covariance can do with one row length. -/
theorem installed_store_iff (hest : est n c = initial n)
    (hthetae : asVec n (c .thetae_1) = fun _ => 1 / 1000) :
    s.Installed n ((s.store n).exec c) ↔ s.FitsStride n := by
  constructor
  · intro h
    exact fitsStride_of_P hest h.P
  · intro h
    refine ⟨h.est_P hest, fun i => ?_, fun i => ?_⟩
    · change asVec n ((s.store n).exec c .thetae) i = _
      rw [exec_store_thetae, exec_store_thetae_1, hthetae]
    · rw [exec_store_thetae_1, hthetae]

theorem Installed.congr {c' : Cells Arr ℚ} (hP : c' .P = c .P) (hthetae : c' .thetae = c .thetae)
    (hthetae_1 : c' .thetae_1 = c .thetae_1) : s.Installed n c' ↔ s.Installed n c := by
  have hest := est_congr (n := n) hP hthetae
  constructor
  · intro h
    exact ⟨hest ▸ h.P, hest ▸ h.thetae, hthetae_1 ▸ h.thetae_1⟩
  · intro h
    exact ⟨hest ▸ h.P, hest ▸ h.thetae, hthetae_1 ▸ h.thetae_1⟩

end Store

end Steady

/-! ## The two functions -/

namespace CFFRELS

/-- `CFFRELS_initAsSteady`, for any tables. -/
def initAsSteadyFrom (s : Steady) (M : ℕ) (relsIn : CFFRELS) (na nb d : ℤ) (am1 am2 am3 : ℚ) :
    CFFRELS :=
  let relsIn := init M relsIn na nb d am1 am2 am3
  clcFGR M { relsIn with arr := (s.store relsIn.ML.toNat).exec relsIn.arr }

def steady : Steady where
  MaxConstLength := 7
  Steady_thetae_1 i := [0.00534, 0.0116, 0.0168, 0.00504, 2.456, -4.337, 1.941].getD i 0
  Steady_P i j := ([
    [6.761e-05, 0.0001, 0.0001, 3.453e-05, 0.01785, -0.03252, 0.01467],
    [0.0001, 0.0002, 0.0003, 7.7576e-05, 0.03783, -0.06835, 0.0305],
    [0.0001, 0.0003, 0.0004, 0.0001, 0.0523, -0.0939, 0.04158],
    [3.4532e-05, 7.758e-05, 0.0001, 5.880e-05, 0.01454, -0.02524, 0.01070],
    [0.01785, 0.0378, 0.05234, 0.01454, 7.3881, -13.34, 5.9559],
    [-0.03252, -0.06835, -0.09392, -0.02524, -13.34, 24.26, -10.92],
    [0.01467, 0.0305, 0.04158, 0.01070, 5.9559, -10.92, 4.964]].getD i []).getD j 0

/-- `CFFRELS_initAsSteady`. -/
def initAsSteady (M : ℕ) (relsIn : CFFRELS) (na nb d : ℤ) (am1 am2 am3 : ℚ) : CFFRELS :=
  initAsSteadyFrom steady M relsIn na nb d am1 am2 am3

theorem installed_initAsSteadyFrom_iff {s : Steady} {M : ℕ} {relsIn : CFFRELS} {na nb d : ℤ}
    {am1 am2 am3 : ℚ} {r : CFFRELS}
    (hr : initAsSteadyFrom s M relsIn na nb d am1 am2 am3 = r) :
    s.Installed r.ML.toNat r.arr ↔ s.FitsStride r.ML.toNat := by
  subst hr
  simp only [initAsSteadyFrom, clcFGR]
  rw [Steady.Installed.congr (exec_clcFGRProg_of_notMem (by decide))
    (exec_clcFGRProg_of_notMem (by decide)) (exec_clcFGRProg_of_notMem (by decide))]
  exact Steady.installed_store_iff (est_init rfl) (thetae_1_init rfl)

theorem initAsSteadyFrom_configured {s : Steady} {M : ℕ} {relsIn : CFFRELS} {na nb d : ℤ}
    {am1 am2 am3 : ℚ} :
    Configured M na nb d am1 am2 am3 (initAsSteadyFrom s M relsIn na nb d am1 am2 am3) := by
  have hstore : ∀ r : CFFRELS, SameConfig r { r with arr := (s.store r.ML.toNat).exec r.arr } :=
    fun r => ⟨rfl, rfl, rfl, rfl, rfl, rfl, rfl, rfl, rfl, rfl, rfl,
      Steady.exec_store_of_notMem (by decide),
      Steady.exec_store_of_notMem (by decide), Steady.exec_store_of_notMem (by decide)⟩
  exact ⟨relsIn, (hstore _).trans clcFGR_sameConfig⟩

end CFFRELS

namespace PPCFFRELS

/-- `PPCFFRELS_initAsSteady`, for any tables. -/
def initAsSteadyFrom (s : Steady) (M : ℕ) (relsIn : PPCFFRELS) (na nb d : ℤ) (am1 am2 am3 : ℚ) :
    PPCFFRELS :=
  let relsIn := init M relsIn na nb d am1 am2 am3
  clcFGR M { relsIn with arr := (s.store relsIn.ML.toNat).exec relsIn.arr }

def steady : Steady where
  MaxConstLength := 6
  Steady_thetae_1 i :=
    [0.00506070970223235, 0.00635502256773037, 0.00494823142213283, 0.000918467319518595,
      0.491331722635412, -0.483337742203960].getD i 0
  Steady_P i j := ([
    [7.25801162530924e-06, -7.70027366576231e-06, 1.21214865112869e-06, 6.02023100038719e-07,
      -5.71430472170938e-06, -6.23557582535170e-06],
    [-7.70027366575120e-06, 1.54079156168219e-05, -9.03773372725222e-06, 1.02078711838165e-06,
      1.97846289919320e-05, -1.69472474860069e-05],
    [1.21214865106959e-06, -9.03773372733294e-06, 1.54822818505554e-05, -8.13508172041828e-06,
      2.26339537588858e-05, -1.80521927029820e-05],
    [6.02023100076411e-07, 1.02078711837705e-06, -8.13508172005746e-06, 8.24563127892771e-06,
      -5.87241585034854e-05, 4.33848944347747e-05],
    [-5.71430472058451e-06, 1.97846289907165e-05, 2.26339537754104e-05, -5.87241585080893e-05,
      0.00365387551157519, -0.00344564862994308],
    [-6.23557582636281e-06, -1.69472474839917e-05, -1.80521927234402e-05, 4.33848944426555e-05,
      -0.00344564862984164, 0.00344611855273718]].getD i []).getD j 0

/-- `PPCFFRELS_initAsSteady`. -/
def initAsSteady (M : ℕ) (relsIn : PPCFFRELS) (na nb d : ℤ) (am1 am2 am3 : ℚ) : PPCFFRELS :=
  initAsSteadyFrom steady M relsIn na nb d am1 am2 am3

theorem installed_initAsSteadyFrom_iff {s : Steady} {M : ℕ} {relsIn : PPCFFRELS} {na nb d : ℤ}
    {am1 am2 am3 : ℚ} {r : PPCFFRELS}
    (hr : initAsSteadyFrom s M relsIn na nb d am1 am2 am3 = r) :
    s.Installed r.ML.toNat r.arr ↔ s.FitsStride r.ML.toNat := by
  subst hr
  simp only [initAsSteadyFrom, clcFGR]
  rw [Steady.Installed.congr (exec_clcFGRProg_of_notMem (by decide))
    (exec_clcFGRProg_of_notMem (by decide)) (exec_clcFGRProg_of_notMem (by decide))]
  exact Steady.installed_store_iff (est_init rfl) (thetae_1_init rfl)

theorem initAsSteadyFrom_configured {s : Steady} {M : ℕ} {relsIn : PPCFFRELS} {na nb d : ℤ}
    {am1 am2 am3 : ℚ} :
    Configured M na nb d am1 am2 am3 (initAsSteadyFrom s M relsIn na nb d am1 am2 am3) := by
  have hstore : ∀ r : PPCFFRELS, SameConfig r { r with arr := (s.store r.ML.toNat).exec r.arr } :=
    fun r => ⟨rfl, rfl, rfl, rfl, rfl, rfl, rfl, rfl, rfl, rfl,
      Steady.exec_store_of_notMem (by decide),
      Steady.exec_store_of_notMem (by decide), Steady.exec_store_of_notMem (by decide)⟩
  exact ⟨relsIn, (hstore _).trans clcFGR_sameConfig⟩

end PPCFFRELS

/-- The steady estimate is installed, in the layout the updates use, exactly when its
    covariance table fits the order. -/
theorem initAsSteady_installed_iff (s : Steady) (M : ℕ) (na nb d : ℤ) (am1 am2 am3 : ℚ) :
    (∀ relsIn r, CFFRELS.initAsSteadyFrom s M relsIn na nb d am1 am2 am3 = r →
      (s.Installed r.ML.toNat r.arr ↔ s.FitsStride r.ML.toNat)) ∧
    ∀ relsIn r, PPCFFRELS.initAsSteadyFrom s M relsIn na nb d am1 am2 am3 = r →
      (s.Installed r.ML.toNat r.arr ↔ s.FitsStride r.ML.toNat) := by
  constructor
  · intro relsIn r hr
    exact CFFRELS.installed_initAsSteadyFrom_iff hr
  · intro relsIn r hr
    exact PPCFFRELS.installed_initAsSteadyFrom_iff hr

/-- In shorter rows, the second one starts where the table has entry `n` of its first. -/
theorem Steady.not_fitsStride {s : Steady} {n : ℕ} (hn : 2 ≤ n) (hlt : n < s.MaxConstLength)
    (hne : s.Steady_P 1 0 ≠ s.Steady_P 0 n) : ¬ s.FitsStride n := by
  rintro (h | h | ⟨_, h⟩)
  · omega
  · omega
  · have h10 := h 1 (by omega) 0 (by omega)
    rw [Nat.mul_one, Nat.add_zero, Nat.div_eq_of_lt hlt, Nat.mod_eq_of_lt hlt] at h10
    exact hne h10

/-- With the real tables and a delay of one, `P` does not hold the steady
    covariance. -/
theorem secondOrder_not_installed :
    (∀ r, CFFRELS.initAsSteady CFFRELS.ML_A default 2 1 1 1 (-16 / 10) (66 / 100) = r →
      r.Fits CFFRELS.ML_A ∧ r.ML = 5 ∧ ¬ CFFRELS.steady.Installed r.ML.toNat r.arr) ∧
    ∀ r, PPCFFRELS.initAsSteady PPCFFRELS.ML_A default 2 1 1 1 (-13 / 10) (48 / 100) = r →
      r.Fits PPCFFRELS.ML_A ∧ r.ML = 4 ∧ ¬ PPCFFRELS.steady.Installed r.ML.toNat r.arr := by
  constructor
  · intro r hr
    have hcfg : CFFRELS.Configured CFFRELS.ML_A 2 1 1 1 (-16 / 10) (66 / 100) r :=
      hr ▸ CFFRELS.initAsSteadyFrom_configured
    have hdeg := hcfg.degrees le_rfl
    have hML : r.ML = 5 := hdeg.ML
    refine ⟨⟨?_, ?_, ?_, ?_⟩, hML, ?_⟩
    · rw [hdeg.NF1]; norm_num
    · rw [hdeg.NG]; norm_num
    · rw [hML]; decide
    · rw [hdeg.NAA]; decide
    · rw [CFFRELS.installed_initAsSteadyFrom_iff hr, hML, show (5 : ℤ).toNat = 5 from rfl]
      exact Steady.not_fitsStride (by decide) (by decide) (by norm_num [CFFRELS.steady])
  · intro r hr
    have hcfg : PPCFFRELS.Configured PPCFFRELS.ML_A 2 1 1 1 (-13 / 10) (48 / 100) r :=
      hr ▸ PPCFFRELS.initAsSteadyFrom_configured
    have hdeg := hcfg.degrees le_rfl
    have hML : r.ML = 4 := hdeg.ML
    refine ⟨⟨?_, ?_, ?_, ?_⟩, hML, ?_⟩
    · rw [hdeg.NF]; norm_num
    · rw [hdeg.NG]; norm_num
    · rw [hML]; decide
    · rw [hdeg.NAA]; decide
    · rw [PPCFFRELS.installed_initAsSteadyFrom_iff hr, hML, show (4 : ℤ).toNat = 4 from rfl]
      exact Steady.not_fitsStride (by decide) (by decide) (by norm_num [PPCFFRELS.steady])
