-- SUMMARY: Vectors and row-major matrices read off a flat buffer.
import Mathlib.Data.Matrix.Mul
import LynxFly.Base.Memory

/-! # Row-major views of a buffer -/

namespace Buffers

variable {V : Type} {m n : ℕ}

/-- The first `n` cells. -/
def asVec (n : ℕ) (b : ℤ → V) : Fin n → V := fun i => b i

/-- The `m × n` matrix stored row by row. -/
def asMatrix (m n : ℕ) (b : ℤ → V) : Matrix (Fin m) (Fin n) V :=
  Matrix.of fun i j => b (n * i + j)

@[simp] theorem asVec_apply (b : ℤ → V) (i : Fin n) : asVec n b i = b i := rfl
@[simp] theorem asMatrix_apply (b : ℤ → V) (i : Fin m) (j : Fin n) :
    asMatrix m n b i j = b (n * i + j) := rfl

theorem asVec_ext {b : ℤ → V} {v : Fin n → V} (h : ∀ i (hi : i < n), b i = v ⟨i, hi⟩) :
    asVec n b = v := by
  funext i
  exact h i i.isLt

theorem asMatrix_ext {b : ℤ → V} {M : Matrix (Fin m) (Fin n) V}
    (h : ∀ i (hi : i < m) j (hj : j < n), b (n * i + j) = M ⟨i, hi⟩ ⟨j, hj⟩) :
    asMatrix m n b = M := by
  ext i j
  exact h i i.isLt j j.isLt

/-! ## A filled grid, seen as a matrix, a column or a row -/

section FillsGrid

variable {Buf : Type} {p : Prog Buf V Unit} {c : Cells Buf V} {C : Buf} {w : ℕ → ℕ → V}

theorem FillsGrid.asMatrix_eq (h : FillsGrid p c C m n (fun i j => n * i + j) w) :
    asMatrix m n (p.exec c C) = Matrix.of fun (i : Fin m) (j : Fin n) => w i j :=
  asMatrix_ext fun i hi j hj => h.cell i hi j hj

theorem FillsGrid.asVec_col_eq (h : FillsGrid p c C m 1 (fun i j => (1 : ℕ) * i + j) w) :
    asVec m (p.exec c C) = fun i : Fin m => w i 0 :=
  asVec_ext fun i hi => by simpa using h.cell i hi 0 Nat.one_pos

theorem FillsGrid.asVec_row_eq (h : FillsGrid p c C 1 n (fun i j => n * i + j) w) :
    asVec n (p.exec c C) = fun j : Fin n => w 0 j :=
  asVec_ext fun j hj => by simpa using h.cell 0 Nat.one_pos j hj

end FillsGrid

/-! ## Loops over the columns or the rows -/

section Loops

variable {Buf : Type} {c : Cells Buf V}

/-- A write, seen from the cells of matrices with `n` columns. -/
theorem exec_wr_rowMajor [DecidableEq Buf] {a b : Buf} {v : V} {i i' j j' : ℕ} (hj : j < n)
    (hj' : j' < n) : (wr a (n * i' + j') v).exec c b (n * i + j) =
      if b = a ∧ i = i' ∧ j = j' then v else c b (n * i + j) := by
  rw [exec_wr]
  refine if_congr (and_congr_right fun _ => ?_) rfl rfl
  constructor
  · exact rowMajor_inj hj hj'
  · rintro ⟨rfl, rfl⟩
    rfl

variable {body : ℕ → Prog Buf V Unit} {w : Buf → ℕ → ℕ → V}

/-- A loop whose iteration `k` only changes column `k`, and only depends on it. -/
theorem exec_loop_cols (h : ∀ k < n, ∀ c' : Cells Buf V,
    (∀ b, ∀ i < m, c' b (n * i + k) = c b (n * i + k)) → ∀ b, ∀ i < m, ∀ j < n,
      (body k).exec c' b (n * i + j) = if j = k then w b i j else c' b (n * i + j)) :
    ∀ b, ∀ i < m, ∀ j < n, (loop n body).exec c b (n * i + j) = w b i j := by
  have hinv : ∀ b, ∀ i < m, ∀ j < n, (loop n body).exec c b (n * i + j) =
      if j < n then w b i j else c b (n * i + j) :=
    exec_loop_induct (fun k c' => ∀ b, ∀ i < m, ∀ j < n,
      c' b (n * i + j) = if j < k then w b i j else c b (n * i + j))
    (fun b i _ j _ => (if_neg (Nat.not_lt_zero j)).symm) fun k hk c' hc' b i hi j hj => by
      have hcol : ∀ b, ∀ i < m, c' b (n * i + k) = c b (n * i + k) := fun b i hi => by
        rw [hc' b i hi k hk, if_neg (Nat.lt_irrefl k)]
      rw [h k hk c' hcol b i hi j hj, hc' b i hi j hj]
      by_cases hjk : j = k
      · rw [if_pos hjk, if_pos (by omega)]
      · rw [if_neg hjk]
        exact if_congr (by omega) rfl rfl
  intro b i hi j hj
  rw [hinv b i hi j hj, if_pos hj]

/-- A loop whose iteration `k` only changes row `k`. It may rely on the rows before it
    being done and those after it being as they were. -/
theorem exec_loop_rows (h : ∀ k < m, ∀ c' : Cells Buf V,
    (∀ b, ∀ i < m, ∀ j < n, c' b (n * i + j) = if i < k then w b i j else c b (n * i + j)) →
      ∀ b, ∀ i < m, ∀ j < n,
        (body k).exec c' b (n * i + j) = if i = k then w b i j else c' b (n * i + j)) :
    ∀ b, ∀ i < m, ∀ j < n, (loop m body).exec c b (n * i + j) = w b i j := by
  have hinv : ∀ b, ∀ i < m, ∀ j < n, (loop m body).exec c b (n * i + j) =
      if i < m then w b i j else c b (n * i + j) :=
    exec_loop_induct (fun k c' => ∀ b, ∀ i < m, ∀ j < n,
      c' b (n * i + j) = if i < k then w b i j else c b (n * i + j))
    (fun b i _ j _ => (if_neg (Nat.not_lt_zero i)).symm) fun k hk c' hc' b i hi j hj => by
      rw [h k hk c' hc' b i hi j hj, hc' b i hi j hj]
      by_cases hik : i = k
      · rw [if_pos hik, if_pos (by omega)]
      · rw [if_neg hik]
        exact if_congr (by omega) rfl rfl
  intro b i hi j hj
  rw [hinv b i hi j hj, if_pos hi]

end Loops

end Buffers
