-- SUMMARY: matrix_inversion of LibMatrix.c, and that it inverts exactly the invertible matrices.
import LynxFly.Base.GaussJordan
import LynxFly.Math.LibMatrix

/-!
# Matrix inversion

`matrix_inversion` brings `A` to the identity by row operations that it applies to
`AInverse` as well, in place. What it changes of `A` left of the pivot column is known
to be zero, so some of its loops skip those columns and others do not.

Its copy `ac` of `A`, which is filled, freed and never read, is left out.
-/

open Buffers Buffers.Prog GaussJordan Matrix

namespace LibMatrix

variable {Buf : Type} [DecidableEq Buf]

/-! ## The routine -/

section Routine

variable (A AInverse : Buf) (n iPass : ℕ)

/-- `AInverse` starts as the identity. -/
def inversionInit : Prog Buf ℚ Unit :=
  loop n fun i => do
    loop n fun j => wr AInverse (n * i + j) 0
    wr AInverse (n * i + i) 1

/-- The row of the largest element of the pivot column, from the pivot row on. -/
def findPivot : Prog Buf ℚ ℕ :=
  fold (n - iPass) iPass fun k imx => do
    let irow := iPass + k
    if |← rd A (n * irow + iPass)| > |← rd A (n * imx + iPass)| then pure irow else pure imx

/-- Interchange two elements of a column. -/
def interchange (a : Buf) (p q icol : ℕ) : Prog Buf ℚ Unit := do
  let temp ← rd a (n * p + icol)
  wr a (n * p + icol) (← rd a (n * q + icol))
  wr a (n * q + icol) temp

/-- Interchange the elements of row `iPass` and row `imx` in both matrices. -/
def interchangeRows (imx : ℕ) : Prog Buf ℚ Unit :=
  if imx ≠ iPass then
    loop n fun icol => do
      interchange n AInverse iPass imx icol
      if icol ≥ iPass then interchange n A iPass imx icol else pure ()
  else
    pure ()

/-- Normalize the pivot row by dividing by the pivot element. -/
def normalizePivotRow (pivot : ℚ) : Prog Buf ℚ Unit :=
  loop n fun icol => do
    wr AInverse (n * iPass + icol) (← fdiv (← rd AInverse (n * iPass + icol)) pivot)
    if icol ≥ iPass then
      wr A (n * iPass + icol) (← fdiv (← rd A (n * iPass + icol)) pivot)
    else
      pure ()

/-- Add a multiple of the pivot row to each row. -/
def eliminate : Prog Buf ℚ Unit :=
  loop n fun irow =>
    if irow ≠ iPass then do
      let factor ← rd A (n * irow + iPass)
      loop n fun icol => do
        wr AInverse (n * irow + icol)
          ((← rd AInverse (n * irow + icol)) - factor * (← rd AInverse (n * iPass + icol)))
        wr A (n * irow + icol)
          ((← rd A (n * irow + icol)) - factor * (← rd A (n * iPass + icol)))
    else
      pure ()

/-- One pass, from the determinant so far; `none` where the routine returns 0. -/
def inversionPass (det : ℚ) : Prog Buf ℚ (Option ℚ) := do
  let imx ← findPivot A n iPass
  interchangeRows A AInverse n iPass imx
  let pivot ← rd A (n * iPass + iPass)
  let det := det * pivot
  if det = 0 then
    pure none
  else do
    normalizePivotRow A AInverse n iPass pivot
    eliminate A AInverse n iPass
    pure (some det)

/-- The passes, up to the first that returns. -/
def inversionPasses : Prog Buf ℚ (Option ℚ) :=
  fold n (some 1) fun iPass det =>
    match det with
    | none => pure none
    | some det => inversionPass A AInverse n iPass det

/-- `matrix_inversion`. -/
def matrixInversion : Prog Buf ℚ ℤ := do
  inversionInit AInverse n
  match ← inversionPasses A AInverse n with
  | none => pure 0
  | some _ => pure 1

end Routine

/-! ## What the loops of a pass compute -/

section Spec

variable {A AInverse : Buf} {n iPass imx : ℕ} {c : Cells Buf ℚ}

theorem exec_inversionInit : ∀ b, ∀ i < n, ∀ j < n,
    (inversionInit AInverse n).exec c b (n * i + j) =
      if b = AInverse then if i = j then 1 else 0 else c b (n * i + j) := by
  refine exec_loop_rows fun k hk c' hc' b i hi j hj => ?_
  have hrow : ∀ b, ∀ i < n, ∀ j < n,
      (loop n fun j => wr AInverse (n * k + j) 0).exec c' b (n * i + j) =
        if b = AInverse ∧ i = k then 0 else c' b (n * i + j) :=
    exec_loop_cols fun l hl c'' hc'' b i hi j hj => by
      rw [exec_wr_rowMajor hj hl]
      by_cases hjl : j = l
      · simp only [hjl, and_true, if_true, hc'' b i hi]
      · simp only [hjl, and_false, if_false]
  rw [exec_bind, exec_wr_rowMajor hj hk, hrow b i hi j hj]
  by_cases hb : b = AInverse
  · by_cases hik : i = k
    · rw [hik]
      simp only [hb, true_and, if_true]
      exact if_congr eq_comm rfl rfl
    · simp only [hb, hik, true_and, false_and, if_false]
  · simp only [hb, false_and, if_false]
    rw [hc' b i hi j hj, if_neg hb, ite_self, ite_self]

omit [DecidableEq Buf] in
/-- The pivot search ends at a row from `iPass` on, where no such row has a larger
    element. -/
theorem findPivot_spec (hi : iPass < n) :
    (findPivot A n iPass).exec c = c ∧ iPass ≤ (findPivot A n iPass).result c ∧
      (findPivot A n iPass).result c < n ∧ ∀ irow, iPass ≤ irow → irow < n →
        |c A (n * irow + iPass)| ≤ |c A (n * (findPivot A n iPass).result c + iPass)| := by
  have hinv : (findPivot A n iPass).exec c = c ∧ iPass ≤ (findPivot A n iPass).result c ∧
      (findPivot A n iPass).result c < n ∧ ∀ irow, iPass ≤ irow → irow < iPass + (n - iPass) →
        |c A (n * irow + iPass)| ≤ |c A (n * (findPivot A n iPass).result c + iPass)| :=
    fold_induct (fun k imx c' => c' = c ∧ iPass ≤ imx ∧ imx < n ∧ ∀ irow, iPass ≤ irow →
      irow < iPass + k → |c A (n * irow + iPass)| ≤ |c A (n * imx + iPass)|)
    ⟨rfl, le_rfl, hi, fun irow h1 h2 => absurd h2 (by omega)⟩ fun k hk imx c' h => by
      obtain ⟨rfl, hle, hlt, hmax⟩ := h
      simp only [result_bind, exec_bind, result_rd, exec_rd]
      split
      case isTrue hgt =>
        refine ⟨exec_pure _, by rw [result_pure]; omega, by rw [result_pure]; omega,
          fun irow h1 h2 => ?_⟩
        rw [result_pure]
        rcases Nat.lt_succ_iff_lt_or_eq.mp h2 with h | h
        · exact (hmax irow h1 h).trans hgt.le
        · exact h ▸ le_rfl
      case isFalse hle' =>
        refine ⟨exec_pure _, by rw [result_pure]; exact hle, by rw [result_pure]; exact hlt,
          fun irow h1 h2 => ?_⟩
        rw [result_pure]
        rcases Nat.lt_succ_iff_lt_or_eq.mp h2 with h | h
        · exact hmax irow h1 h
        · exact h ▸ not_lt.mp hle'
  obtain ⟨hexec, hle, hlt, hmax⟩ := hinv
  exact ⟨hexec, hle, hlt, fun irow h1 h2 => hmax irow h1 (by omega)⟩

theorem exec_interchange {a b : Buf} {p q i j k : ℕ} (hj : j < n) (hk : k < n) :
    (interchange n a p q k).exec c b (n * i + j) =
      if b = a ∧ j = k then c b (n * (Equiv.swap p q i : ℕ) + j) else c b (n * i + j) := by
  simp only [interchange, exec_bind, result_rd, exec_rd, exec_wr_rowMajor hj hk]
  by_cases hb : b = a ∧ j = k
  · obtain ⟨rfl, rfl⟩ := hb
    simp only [Equiv.swap_apply_def, and_true, true_and, if_true]
    by_cases hq : i = q
    · by_cases hp : i = p
      · rw [if_pos hq, if_pos hp, ← hp, ← hq]
      · rw [if_pos hq, if_neg hp, if_pos hq]
    · by_cases hp : i = p
      · rw [if_neg hq, if_pos hp, if_pos hp]
      · rw [if_neg hq, if_neg hp, if_neg hp, if_neg hq]
  · rw [if_neg hb, if_neg fun h => hb ⟨h.1, h.2.2⟩, if_neg fun h => hb ⟨h.1, h.2.2⟩]

/-- The rows are exchanged, in `A` only from the pivot column on. -/
theorem exec_interchangeRows (hi : iPass < n) (hm : imx < n) (hA : A ≠ AInverse) :
    ∀ b, ∀ i < n, ∀ j < n,
    (interchangeRows A AInverse n iPass imx).exec c b (n * i + j) =
      if b = AInverse ∨ b = A ∧ iPass ≤ j then
        c b (n * (Equiv.swap iPass imx i : ℕ) + j) else c b (n * i + j) := by
  unfold interchangeRows
  split
  case isFalse heq =>
    intro b i _ j _
    rw [not_not.mp heq, Equiv.swap_self, Equiv.refl_apply, ite_self, exec_pure]
  refine exec_loop_cols fun k hk c' hc' b i hi' j hj => ?_
  have hswap : (Equiv.swap iPass imx i : ℕ) < n := by
    rw [Equiv.swap_apply_def]
    split
    · exact hm
    · split
      · exact hi
      · exact hi'
  rw [exec_bind]
  by_cases hjk : j = k
  · subst hjk
    rw [if_pos rfl]
    split
    case isTrue hle =>
      simp only [exec_interchange hj hk, hc' b i hi', hc' b _ hswap, and_true]
      by_cases hbI : b = AInverse
      · rw [if_neg fun h => hA (h.symm.trans hbI), if_pos hbI, if_pos (.inl hbI)]
      · by_cases hbA : b = A
        · rw [if_pos hbA, if_neg hbI, if_pos (.inr ⟨hbA, hle⟩)]
        · rw [if_neg hbA, if_neg hbI, if_neg fun h => h.elim hbI fun h => hbA h.1]
    case isFalse hle =>
      rw [exec_pure, exec_interchange hj hk, hc' b i hi', hc' b _ hswap]
      exact if_congr (by simp [hle]) rfl rfl
  · rw [if_neg hjk]
    split
    case isTrue hle =>
      rw [exec_interchange hj hk, if_neg fun h => hjk h.2, exec_interchange hj hk,
        if_neg fun h => hjk h.2]
    case isFalse hle =>
      rw [exec_pure, exec_interchange hj hk, if_neg fun h => hjk h.2]

/-- The pivot row is divided, in `A` only from the pivot column on. -/
theorem exec_normalizePivotRow {pivot : ℚ} (hi : iPass < n) (hA : A ≠ AInverse) :
    ∀ b, ∀ i < n, ∀ j < n,
    (normalizePivotRow A AInverse n iPass pivot).exec c b (n * i + j) =
      if (b = AInverse ∨ b = A ∧ iPass ≤ j) ∧ i = iPass then c b (n * i + j) / pivot
      else c b (n * i + j) := by
  refine exec_loop_cols fun k hk c' hc' b i hi' j hj => ?_
  simp only [exec_bind, result_rd, exec_rd, exec_fdiv, result_fdiv]
  by_cases hrow : i = iPass ∧ j = k
  · obtain ⟨rfl, rfl⟩ := hrow
    rw [if_pos rfl]
    split
    case isTrue hle =>
      simp only [exec_bind, result_rd, exec_rd, exec_fdiv, result_fdiv, exec_wr_rowMajor hj hj,
        hA, hc' _ i hi', and_true, if_false]
      by_cases hbA : b = A
      · rw [if_pos hbA, if_pos (.inr ⟨hbA, hle⟩), hbA]
      · by_cases hbI : b = AInverse
        · rw [if_neg hbA, if_pos hbI, if_pos (.inl hbI), hbI]
        · rw [if_neg hbA, if_neg hbI, if_neg fun h => h.elim hbI fun h => hbA h.1]
    case isFalse hle =>
      simp only [exec_pure, exec_wr_rowMajor hj hj, hc' _ i hi', and_true]
      by_cases hbI : b = AInverse
      · rw [if_pos hbI, if_pos (.inl hbI), hbI]
      · rw [if_neg hbI, if_neg fun h => h.elim hbI fun h => hle h.2]
  · have hkeep : ∀ {a : Buf} {v : ℚ} {c'' : Cells Buf ℚ},
        (wr a (n * iPass + k) v).exec c'' b (n * i + j) = c'' b (n * i + j) := by
      intro a v c''
      rw [exec_wr_rowMajor hj hk, if_neg fun h => hrow h.2]
    have hside : (if j = k then
        if (b = AInverse ∨ b = A ∧ iPass ≤ j) ∧ i = iPass then c b (n * i + j) / pivot
        else c b (n * i + j) else c' b (n * i + j)) = c' b (n * i + j) := by
      by_cases hjk : j = k
      · rw [if_pos hjk, if_neg fun h => hrow ⟨h.2, hjk⟩, hjk, hc' b i hi']
      · rw [if_neg hjk]
    rw [hside]
    split
    · simp only [exec_bind, exec_rd, exec_fdiv, hkeep]
    · simp only [exec_pure, hkeep]

/-- One row has the pivot row, times `factor`, subtracted. -/
theorem exec_subtractRow {irow : ℕ} {factor : ℚ} (hrow : irow < n) (hi : iPass < n)
    (hA : A ≠ AInverse) : ∀ b, ∀ i < n, ∀ j < n, (loop n fun icol => do
      wr AInverse (n * irow + icol)
        ((← rd AInverse (n * irow + icol)) - factor * (← rd AInverse (n * iPass + icol)))
      wr A (n * irow + icol)
        ((← rd A (n * irow + icol)) - factor * (← rd A (n * iPass + icol)))).exec c b (n * i + j) =
      if (b = AInverse ∨ b = A) ∧ i = irow then
        c b (n * i + j) - factor * c b (n * iPass + j)
      else c b (n * i + j) := by
  refine exec_loop_cols fun k hk c' hc' b i hi' j hj => ?_
  simp only [exec_bind, result_rd, exec_rd, exec_wr_rowMajor hj hk, exec_wr_rowMajor hk hk,
    hA, hc' _ irow hrow, hc' _ iPass hi, false_and, if_false]
  by_cases hjk : j = k
  · subst hjk
    by_cases hir : i = irow
    · subst hir
      simp only [hc' _ i hi', and_true, if_true]
      by_cases hbA : b = A
      · rw [if_pos hbA, if_pos (.inr hbA), hbA]
      · by_cases hbI : b = AInverse
        · rw [if_neg hbA, if_pos hbI, if_pos (.inl hbI), hbI]
        · rw [if_neg hbA, if_neg hbI, if_neg fun h => h.elim hbI hbA]
    · simp only [hir, hc' b i hi', false_and, and_false, if_false, if_true]
  · simp only [hjk, and_false, if_false]

/-- Every other row has the pivot row, times its element of the pivot column,
    subtracted. -/
theorem exec_eliminate (hi : iPass < n) (hA : A ≠ AInverse) : ∀ b, ∀ i < n, ∀ j < n,
    (eliminate A AInverse n iPass).exec c b (n * i + j) =
      if (b = AInverse ∨ b = A) ∧ i ≠ iPass then
        c b (n * i + j) - c A (n * i + iPass) * c b (n * iPass + j)
      else c b (n * i + j) := by
  refine exec_loop_rows fun irow hrow c' hc' b i hi' j hj => ?_
  -- the row itself is not done yet, and the pivot row stays as it was
  have hself : ∀ b, ∀ j < n, c' b (n * irow + j) = c b (n * irow + j) := fun b j hj => by
    rw [hc' b irow hrow j hj, if_neg (Nat.lt_irrefl irow)]
  have hpivot : ∀ b, ∀ j < n, c' b (n * iPass + j) = c b (n * iPass + j) := fun b j hj => by
    rw [hc' b iPass hi j hj]
    split
    · exact if_neg fun h => h.2 rfl
    · rfl
  split
  case isTrue hne =>
    simp only [exec_bind, result_rd, exec_rd]
    rw [exec_subtractRow hrow hi hA b i hi' j hj]
    by_cases hir : i = irow
    · subst hir
      simp only [hself _ _ hj, hself _ _ hi, hpivot _ _ hj, and_true, if_true, hne, ne_eq,
        not_false_eq_true]
    · simp only [hir, and_false, if_false]
  case isFalse heq =>
    rw [exec_pure]
    by_cases hir : i = irow
    · subst hir
      rw [if_pos rfl, if_neg fun h => heq h.2, hself b j hj]
    · rw [if_neg hir]

/-! ## One pass -/

variable {A₀ : Matrix (Fin n) (Fin n) ℚ}

/-- The two buffers as the matrices of the elimination, before pass `k`. -/
def IsReduced (A AInverse : Buf) (A₀ : Matrix (Fin n) (Fin n) ℚ) (k : ℕ) (c : Cells Buf ℚ) :
    Prop :=
  Reduced A₀ k (asMatrix n n (c A)) (asMatrix n n (c AInverse))

theorem reduced_inversionInit (hA : A ≠ AInverse) :
    IsReduced A AInverse (asMatrix n n (c A)) 0 ((inversionInit AInverse n).exec c) := by
  have hAInverse : asMatrix n n ((inversionInit AInverse n).exec c AInverse) = 1 := by
    ext i j
    rw [asMatrix_apply, exec_inversionInit AInverse i i.isLt j j.isLt, if_pos rfl, one_apply]
    exact if_congr Fin.ext_iff.symm rfl rfl
  have hAsame : asMatrix n n ((inversionInit AInverse n).exec c A) = asMatrix n n (c A) := by
    ext i j
    rw [asMatrix_apply, exec_inversionInit A i i.isLt j j.isLt, if_neg hA]
    rfl
  rw [IsReduced, hAInverse, hAsame]
  exact reduced_zero

/-- In the unit columns the exchange would change nothing. -/
theorem IsReduced.interchangeRows (h : IsReduced A AInverse A₀ iPass c) (hi : iPass < n)
    (hm : imx < n) (hle : iPass ≤ imx) (hA : A ≠ AInverse) :
    IsReduced A AInverse A₀ iPass ((interchangeRows A AInverse n iPass imx).exec c) := by
  have hval : ∀ i : Fin n, (Equiv.swap (⟨iPass, hi⟩ : Fin n) ⟨imx, hm⟩ i : ℕ) =
      Equiv.swap iPass imx i := by
    intro i
    rw [Equiv.swap_apply_def, Equiv.swap_apply_def]
    simp only [Fin.ext_iff, apply_ite Fin.val]
  have hswap := h.swapRows (p := ⟨iPass, hi⟩) (q := ⟨imx, hm⟩) le_rfl hle
  have hAInverse : asMatrix n n ((LibMatrix.interchangeRows A AInverse n iPass imx).exec c
      AInverse) = swapRows ⟨iPass, hi⟩ ⟨imx, hm⟩ (asMatrix n n (c AInverse)) := by
    ext i j
    rw [asMatrix_apply, exec_interchangeRows hi hm hA _ i i.isLt j j.isLt, if_pos (.inl rfl),
      ← hval]
    rfl
  have hAcols : asMatrix n n ((LibMatrix.interchangeRows A AInverse n iPass imx).exec c A) =
      swapRows ⟨iPass, hi⟩ ⟨imx, hm⟩ (asMatrix n n (c A)) := by
    ext i j
    rw [asMatrix_apply, exec_interchangeRows hi hm hA _ i i.isLt j j.isLt]
    by_cases hj : iPass ≤ j
    · rw [if_pos (.inr ⟨rfl, hj⟩), ← hval]
      rfl
    · rw [if_neg fun h => h.elim hA fun h => hj h.2, hswap.cols j (not_le.mp hj),
        ← h.cols j (not_le.mp hj)]
      rfl
  rw [IsReduced, hAInverse, hAcols]
  exact hswap

theorem IsReduced.normalizePivotRow {pivot : ℚ} (h : IsReduced A AInverse A₀ iPass c)
    (hi : iPass < n) (hpivot : pivot ≠ 0) (hA : A ≠ AInverse) :
    IsReduced A AInverse A₀ iPass ((normalizePivotRow A AInverse n iPass pivot).exec c) := by
  have hdiv := h.divRow (p := ⟨iPass, hi⟩) le_rfl hpivot
  have hAInverse : asMatrix n n ((LibMatrix.normalizePivotRow A AInverse n iPass pivot).exec c
      AInverse) = divRow ⟨iPass, hi⟩ pivot (asMatrix n n (c AInverse)) := by
    ext i j
    rw [asMatrix_apply, exec_normalizePivotRow hi hA _ i i.isLt j j.isLt]
    exact if_congr (by simp [Fin.ext_iff]) rfl rfl
  have hAcols : asMatrix n n ((LibMatrix.normalizePivotRow A AInverse n iPass pivot).exec c A) =
      divRow ⟨iPass, hi⟩ pivot (asMatrix n n (c A)) := by
    ext i j
    rw [asMatrix_apply, exec_normalizePivotRow hi hA _ i i.isLt j j.isLt]
    by_cases hj : iPass ≤ j
    · exact if_congr (by simp [Fin.ext_iff, hj]) rfl rfl
    · rw [if_neg fun h => h.1.elim hA fun h => hj h.2, hdiv.cols j (not_le.mp hj),
        ← h.cols j (not_le.mp hj)]
      rfl
  rw [IsReduced, hAInverse, hAcols]
  exact hdiv

/-- With a one on the diagonal, the elimination finishes the pass. -/
theorem IsReduced.eliminate (h : IsReduced A AInverse A₀ iPass c) (hi : iPass < n)
    (hone : c A (n * iPass + iPass) = 1) (hA : A ≠ AInverse) :
    IsReduced A AInverse A₀ (iPass + 1) ((eliminate A AInverse n iPass).exec c) := by
  have hclear : ∀ b, b = AInverse ∨ b = A →
      asMatrix n n ((LibMatrix.eliminate A AInverse n iPass).exec c b) =
        clearRows ⟨iPass, hi⟩ (fun i => asMatrix n n (c A) i ⟨iPass, hi⟩) (asMatrix n n (c b)) := by
    intro b hb
    ext i j
    rw [asMatrix_apply, exec_eliminate hi hA b i i.isLt j j.isLt]
    by_cases hrow : (i : ℕ) = iPass
    · rw [if_neg fun h => h.2 hrow]
      exact (if_pos (Fin.ext hrow)).symm
    · rw [if_pos ⟨hb, hrow⟩]
      exact (if_neg fun h => hrow (congrArg Fin.val h)).symm
  rw [IsReduced, hclear A (.inr rfl), hclear AInverse (.inl rfl)]
  exact h.clearRows rfl hone

/-- What is known after a pass, from its result. -/
def PassInv (A AInverse : Buf) (A₀ : Matrix (Fin n) (Fin n) ℚ) (k : ℕ) (det : Option ℚ)
    (c : Cells Buf ℚ) : Prop :=
  match det with
  | none => ¬ IsUnit A₀
  | some det => det ≠ 0 ∧ IsReduced A AInverse A₀ k c

/-- Step lemma: a pass finds a pivot and reduces one more column, or there is none and
    the matrix is singular. -/
theorem passInv_inversionPass {det : ℚ} (hdet : det ≠ 0) (h : IsReduced A AInverse A₀ iPass c)
    (hi : iPass < n) (hA : A ≠ AInverse) :
    PassInv A AInverse A₀ (iPass + 1) ((inversionPass A AInverse n iPass det).result c)
      ((inversionPass A AInverse n iPass det).exec c) := by
  obtain ⟨hexec, hle, hlt, hmax⟩ := findPivot_spec (A := A) (c := c) hi
  simp only [inversionPass, result_bind, exec_bind, hexec]
  generalize (findPivot A n iPass).result c = imx at hle hlt hmax ⊢
  have hred := IsReduced.interchangeRows h hi hlt hle hA
  have hpivot : (interchangeRows A AInverse n iPass imx).exec c A (n * iPass + iPass) =
      c A (n * imx + iPass) := by
    rw [exec_interchangeRows hi hlt hA A iPass hi iPass hi, if_pos (.inr ⟨rfl, le_rfl⟩),
      Equiv.swap_apply_left]
  generalize (interchangeRows A AInverse n iPass imx).exec c = c₁ at hred hpivot ⊢
  simp only [result_rd, exec_rd]
  split
  case isTrue hzero =>
    -- the largest element of the column is zero
    rw [result_pure]
    refine h.singular hi fun i hik => ?_
    have hcol := hmax i hik i.isLt
    rw [← hpivot, (mul_eq_zero.mp hzero).resolve_left hdet, abs_zero] at hcol
    exact abs_nonpos_iff.mp hcol
  case isFalse hne =>
    have hne₁ : c₁ A (n * iPass + iPass) ≠ 0 := right_ne_zero_of_mul hne
    simp only [exec_bind, result_bind, exec_pure, result_pure]
    refine ⟨hne, (hred.normalizePivotRow hi hne₁ hA).eliminate hi ?_ hA⟩
    rw [exec_normalizePivotRow hi hA A iPass hi iPass hi, if_pos ⟨.inr ⟨rfl, le_rfl⟩, rfl⟩,
      div_self hne₁]

/-- Run lemma, over all passes. -/
theorem passInv_inversionPasses (h : IsReduced A AInverse A₀ 0 c) (hA : A ≠ AInverse) :
    PassInv A AInverse A₀ n ((inversionPasses A AInverse n).result c)
      ((inversionPasses A AInverse n).exec c) := by
  refine fold_induct (PassInv A AInverse A₀) ⟨one_ne_zero, h⟩ fun k hk det c' hinv => ?_
  cases det with
  | none => exact hinv
  | some det => exact passInv_inversionPass hinv.1 hinv.2 hk hA

/-! ## What it touches -/

section Within

variable {ok : Access Buf ℚ → Prop}

theorem within_interchange {a : Buf} {p q k : ℕ} (ha : Room ok a (n * n)) (hp : p < n) (hq : q < n)
    (hk : k < n) : Within ok (interchange n a p q k) :=
  (within_rd (ha.rowMajor hp hk).1).bind fun _ => (within_rd (ha.rowMajor hq hk).1).bind fun _ =>
    (within_wr (ha.rowMajor hp hk).2).bind fun _ => within_wr (ha.rowMajor hq hk).2

theorem within_interchangeRows (hA : Room ok A (n * n)) (hAInverse : Room ok AInverse (n * n))
    (hi : iPass < n) (hm : imx < n) : Within ok (interchangeRows A AInverse n iPass imx) := by
  refine within_ite (fun _ => within_loop fun k hk => ?_) fun _ => within_pure ()
  exact (within_interchange hAInverse hi hm hk).bind fun _ =>
    within_ite (fun _ => within_interchange hA hi hm hk) fun _ => within_pure ()

theorem within_normalizePivotRow {pivot : ℚ} (hA : Room ok A (n * n))
    (hAInverse : Room ok AInverse (n * n)) (hi : iPass < n) (hdiv : ok (.div pivot)) :
    Within ok (normalizePivotRow A AInverse n iPass pivot) := by
  refine within_loop fun k hk => ?_
  have hcell : ∀ {a : Buf}, Room ok a (n * n) → Within ok (do
      wr a (n * iPass + k) (← fdiv (← rd a (n * iPass + k)) pivot)) := fun ha =>
    (within_rd (ha.rowMajor hi hk).1).bind fun _ => (within_fdiv hdiv).bind fun _ =>
      within_wr (ha.rowMajor hi hk).2
  exact (within_rd (hAInverse.rowMajor hi hk).1).bind fun _ => (within_fdiv hdiv).bind fun _ =>
    (within_wr (hAInverse.rowMajor hi hk).2).bind fun _ =>
      within_ite (fun _ => hcell hA) fun _ => within_pure ()

theorem within_eliminate (hA : Room ok A (n * n)) (hAInverse : Room ok AInverse (n * n))
    (hi : iPass < n) : Within ok (eliminate A AInverse n iPass) := by
  refine within_loop fun irow hrow => within_ite (fun _ => ?_) fun _ => within_pure ()
  exact (within_rd (hA.rowMajor hrow hi).1).bind fun _ => within_loop fun k hk =>
    (within_rd (hAInverse.rowMajor hrow hk).1).bind fun _ =>
    (within_rd (hAInverse.rowMajor hi hk).1).bind fun _ =>
    (within_wr (hAInverse.rowMajor hrow hk).2).bind fun _ =>
    (within_rd (hA.rowMajor hrow hk).1).bind fun _ =>
    (within_rd (hA.rowMajor hi hk).1).bind fun _ => within_wr (hA.rowMajor hrow hk).2

omit [DecidableEq Buf] in
theorem within_findPivot (hA : Room ok A (n * n)) (hi : iPass < n) :
    Within ok (findPivot A n iPass) := by
  refine within_fold (fun imx => imx < n) hi (fun k hk imx c' hm => ?_) fun k hk imx hm => ?_
  · simp only [result_bind]
    split
    · rw [result_pure]
      omega
    · rw [result_pure]
      exact hm
  · exact (within_rd (hA.rowMajor (by omega : iPass + k < n) hi).1).bind fun _ =>
      (within_rd (hA.rowMajor hm hi).1).bind fun _ =>
      within_ite (fun _ => within_pure _) fun _ => within_pure _

/-- Every access is inside the `n * n` cells of the two matrices, and no division is by
    zero: the determinant is tested before. -/
theorem within_matrixInversion (hA : Room ok A (n * n)) (hAInverse : Room ok AInverse (n * n))
    (hdiv : ∀ d ≠ 0, ok (.div d)) : Within ok (matrixInversion A AInverse n) := by
  refine (within_loop fun i hi =>
    (within_loop fun j hj => within_wr (hAInverse.rowMajor hi hj).2).bind fun _ =>
      within_wr (hAInverse.rowMajor hi hi).2).bind fun _ => ?_
  refine Within.bind (within_fold (fun _ => True) trivial (fun _ _ _ _ _ => trivial)
    fun iPass hi det _ => ?_) fun det => ?_
  · cases det with
    | none => exact within_pure none
    | some det =>
      refine (within_findPivot hA hi).bind_of_result (R := fun imx => imx < n)
        (fun c => (findPivot_spec hi).2.2.1) fun imx hm => ?_
      refine (within_interchangeRows hA hAInverse hi hm).bind fun _ =>
        (within_rd (hA.rowMajor hi hi).1).bind fun pivot => within_ite (fun _ => within_pure none)
          fun hne => ?_
      exact (within_normalizePivotRow hA hAInverse hi (hdiv pivot (right_ne_zero_of_mul hne))).bind
        fun _ => (within_eliminate hA hAInverse hi).bind fun _ => within_pure _
  · cases det with
    | none => exact within_pure 0
    | some det => exact within_pure 1

end Within

/-! ## The result -/

/-- What `matrix_inversion` does with the matrix `A₀`: it returns `r` and leaves `A` and
    `B` in its two buffers. -/
structure Inverts (A₀ : Matrix (Fin n) (Fin n) ℚ) (r : ℤ) (A B : Matrix (Fin n) (Fin n) ℚ) :
    Prop where
  zero_or_one : r = 0 ∨ r = 1
  one_iff : r = 1 ↔ IsUnit A₀
  left_inverse : r = 1 → B * A₀ = 1
  right_inverse : r = 1 → A₀ * B = 1
  identity : r = 1 → A = 1
  singular : r = 0 → A₀.det = 0

/-- `matrix_inversion` divides by no zero, and inverts exactly the invertible
    matrices. -/
theorem matrixInversion_inverts (A AInverse : Buf) (n : ℕ) (c : Cells Buf ℚ)
    (hA : A ≠ AInverse) :
    (∀ d ∈ divisors (matrixInversion A AInverse n) c, d ≠ 0) ∧
    Inverts (asMatrix n n (c A)) ((matrixInversion A AInverse n).result c)
      (asMatrix n n ((matrixInversion A AInverse n).exec c A))
      (asMatrix n n ((matrixInversion A AInverse n).exec c AInverse)) := by
  have hcells : ∀ a : Buf, Room (Access.DivNeZero (V := ℚ)) a (n * n) :=
    fun _ _ _ => ⟨trivial, trivial⟩
  refine ⟨fun d hd => ?_, ?_⟩
  · exact within_matrixInversion (hcells A) (hcells AInverse) (fun _ h => h) c _ (mem_divisors hd)
  · have hinit : IsReduced A AInverse (asMatrix n n (c A)) 0 ((inversionInit AInverse n).exec c) :=
      reduced_inversionInit hA
    have hinv := passInv_inversionPasses hinit hA
    simp only [matrixInversion, result_bind, exec_bind]
    generalize (inversionPasses A AInverse n).result ((inversionInit AInverse n).exec c) = det
      at hinv ⊢
    generalize (inversionPasses A AInverse n).exec ((inversionInit AInverse n).exec c) = c'
      at hinv ⊢
    cases det with
    | none =>
      have hsing : ¬ IsUnit (asMatrix n n (c A)) := hinv
      simp only [result_pure, exec_pure]
      refine ⟨.inl rfl, ⟨fun h => absurd h zero_ne_one, fun h => absurd h hsing⟩,
        fun h => absurd h zero_ne_one, fun h => absurd h zero_ne_one,
        fun h => absurd h zero_ne_one, fun _ => ?_⟩
      rw [isUnit_iff_isUnit_det, isUnit_iff_ne_zero] at hsing
      exact not_not.mp hsing
    | some det =>
      obtain ⟨hone, hleft, hright⟩ := hinv.2.inverse
      simp only [result_pure, exec_pure]
      refine ⟨.inr rfl, ⟨fun _ => ?_, fun _ => rfl⟩, fun _ => hleft, fun _ => hright, fun _ => hone,
        fun h => absurd h one_ne_zero⟩
      exact (isUnit_iff_isUnit_det _).mpr (isUnit_det_of_left_inverse hleft)

/-- The exchange of two coordinates, whose first pivot is zero where it stands. -/
def exchange : Cells Bool ℚ := fun _ q => if q = 1 ∨ q = 2 then 1 else 0

theorem exchange_inverts :
    (∀ d ∈ divisors (matrixInversion true false 2) exchange, d ≠ 0) ∧
    Inverts (asMatrix 2 2 (exchange true)) ((matrixInversion true false 2).result exchange)
      (asMatrix 2 2 ((matrixInversion true false 2).exec exchange true))
      (asMatrix 2 2 ((matrixInversion true false 2).exec exchange false)) :=
  matrixInversion_inverts true false 2 exchange (by decide)

end Spec

end LibMatrix
