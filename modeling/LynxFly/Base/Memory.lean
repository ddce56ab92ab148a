-- SUMMARY: Imperative programs over named flat buffers: reads, writes, divisions, counted loops, and the accesses they make.
import Mathlib.Algebra.BigOperators.Group.Finset.Basic
import Mathlib.Data.Set.Function
import Mathlib.Tactic.Ring

/-!
# Programs over flat buffers

A program runs on a set of named buffers. A buffer has one cell for every
integer, so an index that leaves the array a buffer stands for reaches a cell of
its own instead of a neighbour's; what a program touches is recorded in the
order it is touched, and being inside the arrays is a statement about that
record.

`Fills` says what a program that only writes one buffer leaves in it. It is
closed under counted loops, and the rules of this file reduce a nest of loops to
its innermost body.
-/

namespace Buffers

/-- One step of a program that may go wrong. -/
inductive Access (Buf V : Type) where
  | read (a : Buf) (i : ℤ)
  | write (a : Buf) (i : ℤ)
  | div (d : V)
  deriving DecidableEq

/-- The contents of all buffers. -/
abbrev Cells (Buf V : Type) := Buf → ℤ → V

/-- A program: a result, the buffers it leaves, and the accesses it makes. -/
def Prog (Buf V β : Type) : Type :=
  Cells Buf V → β × Cells Buf V × List (Access Buf V)

namespace Prog

variable {Buf V β γ : Type}

def result (p : Prog Buf V β) (c : Cells Buf V) : β := (p c).1
def exec (p : Prog Buf V β) (c : Cells Buf V) : Cells Buf V := (p c).2.1
def accesses (p : Prog Buf V β) (c : Cells Buf V) : List (Access Buf V) := (p c).2.2

instance : Monad (Prog Buf V) where
  pure b := fun c => (b, c, [])
  bind p f := fun c =>
    ((f (p.result c)).result (p.exec c), (f (p.result c)).exec (p.exec c),
      p.accesses c ++ (f (p.result c)).accesses (p.exec c))

variable {c : Cells Buf V}


-- These equations, like those of the primitives below, hold by `rfl` but are kept
-- from `dsimp`: on a long program the kernel would have to convert one unfolded
-- run into another.
@[simp] theorem result_pure (b : β) : (pure b : Prog Buf V β).result c = b := by
  unfold result
  rfl
@[simp] theorem exec_pure (b : β) : (pure b : Prog Buf V β).exec c = c := by
  unfold exec
  rfl
@[simp] theorem accesses_pure (b : β) : (pure b : Prog Buf V β).accesses c = [] := by
  unfold accesses
  rfl

@[simp] theorem result_bind (p : Prog Buf V β) (f : β → Prog Buf V γ) :
    (p >>= f).result c = (f (p.result c)).result (p.exec c) := by
  unfold result
  rfl
@[simp] theorem exec_bind (p : Prog Buf V β) (f : β → Prog Buf V γ) :
    (p >>= f).exec c = (f (p.result c)).exec (p.exec c) := by
  unfold exec
  rfl
@[simp] theorem accesses_bind (p : Prog Buf V β) (f : β → Prog Buf V γ) :
    (p >>= f).accesses c = p.accesses c ++ (f (p.result c)).accesses (p.exec c) := by
  unfold accesses
  rfl

end Prog

open Prog

section Primitives

variable {Buf V : Type}

/-- Read cell `i` of buffer `a`. -/
def rd (a : Buf) (i : ℤ) : Prog Buf V V := fun c => (c a i, c, [.read a i])

/-- Write `v` to cell `i` of buffer `a`. -/
def wr [DecidableEq Buf] (a : Buf) (i : ℤ) (v : V) : Prog Buf V Unit := fun c =>
  ((), fun b j => if b = a ∧ j = i then v else c b j, [.write a i])

/-- Divide, recording the divisor. -/
def fdiv [Div V] (x d : V) : Prog Buf V V := fun c => (x / d, c, [.div d])

/-- `for (i = 0; i < n; i++) body i`. -/
def loop (n : ℕ) (body : ℕ → Prog Buf V Unit) : Prog Buf V Unit :=
  match n with
  | 0 => pure ()
  | n + 1 => do loop n body; body n

variable {c : Cells Buf V} {a : Buf} {i : ℤ}

@[simp] theorem result_rd : (rd a i : Prog Buf V V).result c = c a i := by
  unfold result
  rfl
@[simp] theorem exec_rd : (rd a i : Prog Buf V V).exec c = c := by
  unfold exec
  rfl
@[simp] theorem accesses_rd : (rd a i : Prog Buf V V).accesses c = [.read a i] := by
  unfold accesses
  rfl

@[simp] theorem result_fdiv [Div V] (x d : V) :
    (fdiv x d : Prog Buf V V).result c = x / d := by
  unfold result
  rfl
@[simp] theorem exec_fdiv [Div V] (x d : V) : (fdiv x d : Prog Buf V V).exec c = c := by
  unfold exec
  rfl
@[simp] theorem accesses_fdiv [Div V] (x d : V) :
    (fdiv x d : Prog Buf V V).accesses c = [.div d] := by
  unfold accesses
  rfl

@[simp] theorem accesses_wr [DecidableEq Buf] (v : V) :
    (wr a i v : Prog Buf V Unit).accesses c = [.write a i] := by
  unfold accesses
  rfl
theorem exec_wr [DecidableEq Buf] (v : V) (b : Buf) (j : ℤ) :
    (wr a i v : Prog Buf V Unit).exec c b j = if b = a ∧ j = i then v else c b j := rfl
@[simp] theorem exec_wr_self [DecidableEq Buf] (v : V) :
    (wr a i v : Prog Buf V Unit).exec c a i = v := by simp [exec_wr]
@[simp] theorem exec_wr_of_ne [DecidableEq Buf] (v : V) {b : Buf} (h : b ≠ a) :
    (wr a i v : Prog Buf V Unit).exec c b = c b := by
  funext j
  simp [exec_wr, h]
@[simp] theorem exec_wr_of_index_ne [DecidableEq Buf] (v : V) {j : ℤ} (h : j ≠ i) :
    (wr a i v : Prog Buf V Unit).exec c a j = c a j := by simp [exec_wr, h]

@[simp] theorem exec_loop_zero (body : ℕ → Prog Buf V Unit) : (loop 0 body).exec c = c := rfl
@[simp] theorem exec_loop_succ (n : ℕ) (body : ℕ → Prog Buf V Unit) :
    (loop (n + 1) body).exec c = (body n).exec ((loop n body).exec c) := rfl
@[simp] theorem accesses_loop_zero (body : ℕ → Prog Buf V Unit) :
    (loop 0 body).accesses c = [] := rfl
@[simp] theorem accesses_loop_succ (n : ℕ) (body : ℕ → Prog Buf V Unit) :
    (loop (n + 1) body).accesses c =
      (loop n body).accesses c ++ (body n).accesses ((loop n body).exec c) := rfl

/-- Loop rule: an invariant of the iteration count that every iteration keeps
    holds with the bound when the loop ends. -/
theorem exec_loop_induct {n : ℕ} {body : ℕ → Prog Buf V Unit} (I : ℕ → Cells Buf V → Prop)
    (h0 : I 0 c) (hstep : ∀ k < n, ∀ c', I k c' → I (k + 1) ((body k).exec c')) :
    I n ((loop n body).exec c) := by
  induction n with
  | zero => exact h0
  | succ n ih =>
    rw [exec_loop_succ]
    exact hstep n (Nat.lt_succ_self n) _ (ih fun k hk => hstep k (Nat.lt_succ_of_lt hk))

/-- The same with a local that every iteration updates. -/
def fold {σ : Type} (n : ℕ) (s : σ) (body : ℕ → σ → Prog Buf V σ) : Prog Buf V σ :=
  match n with
  | 0 => pure s
  | n + 1 => do body n (← fold n s body)

/-- Loop rule, with the local. -/
theorem fold_induct {σ : Type} {n : ℕ} {s : σ} {body : ℕ → σ → Prog Buf V σ}
    (I : ℕ → σ → Cells Buf V → Prop) (h0 : I 0 s c)
    (hstep : ∀ k < n, ∀ s' c', I k s' c' → I (k + 1) ((body k s').result c') ((body k s').exec c')) :
    I n ((fold n s body).result c) ((fold n s body).exec c) := by
  induction n with
  | zero => exact h0
  | succ n ih =>
    rw [fold, result_bind, exec_bind]
    exact hstep n (Nat.lt_succ_self n) _ _ (ih fun k hk => hstep k (Nat.lt_succ_of_lt hk))

end Primitives

/-! ## Programs that write one buffer -/

section Fills

variable {Buf V : Type} {c : Cells Buf V} {a : Buf}

/-- Run from `c`, the program leaves `w` in the cells `S` of buffer `a` and
    changes nothing else. -/
structure Fills (p : Prog Buf V Unit) (c : Cells Buf V) (a : Buf) (S : Set ℤ) (w : ℤ → V) :
    Prop where
  hit : ∀ j ∈ S, p.exec c a j = w j
  miss : ∀ j ∉ S, p.exec c a j = c a j
  frame : ∀ b ≠ a, p.exec c b = c b

theorem fills_wr [DecidableEq Buf] (i : ℤ) (v : V) : Fills (wr a i v) c a {i} fun _ => v where
  hit := by
    rintro j rfl
    exact exec_wr_self v
  miss _ hj := exec_wr_of_index_ne v hj
  frame _ hb := exec_wr_of_ne v hb

/-- A loop fills what its iterations fill. An iteration may rely on the other
    buffers being as they were, and on the cells no earlier iteration fills. -/
theorem Fills.of_loop {n : ℕ} {body : ℕ → Prog Buf V Unit} {S : ℕ → Set ℤ} {w : ℤ → V}
    (h : ∀ k < n, ∀ c' : Cells Buf V, (∀ b ≠ a, c' b = c b) →
      (∀ j, (∀ i < k, j ∉ S i) → c' a j = c a j) → Fills (body k) c' a (S k) w) :
    Fills (loop n body) c a {j | ∃ i < n, j ∈ S i} w := by
  induction n with
  | zero =>
    exact ⟨fun j hj => by simp at hj, fun _ _ => rfl, fun _ _ => rfl⟩
  | succ n ih =>
    have hn := ih fun k hk => h k (Nat.lt_succ_of_lt hk)
    have hbody := h n (Nat.lt_succ_self n) _ hn.frame fun j hj =>
      hn.miss j fun ⟨i, hi, hmem⟩ => hj i hi hmem
    refine ⟨fun j hj => ?_, fun j hj => ?_, fun b hb => ?_⟩
    · by_cases hjn : j ∈ S n
      · exact hbody.hit j hjn
      · obtain ⟨i, hi, hmem⟩ := hj
        have hin : i < n := by
          rcases Nat.lt_succ_iff_lt_or_eq.mp hi with hlt | rfl
          · exact hlt
          · exact absurd hmem hjn
        rw [exec_loop_succ, hbody.miss j hjn]
        exact hn.hit j ⟨i, hin, hmem⟩
    · have hjn : j ∉ S n := fun hmem => hj ⟨n, Nat.lt_succ_self n, hmem⟩
      rw [exec_loop_succ, hbody.miss j hjn]
      exact hn.miss j fun ⟨i, hi, hmem⟩ => hj ⟨i, Nat.lt_succ_of_lt hi, hmem⟩
    · rw [exec_loop_succ, hbody.frame b hb]
      exact hn.frame b hb

/-- A loop that adds `t k` to one cell in iteration `k` leaves the sum there. -/
theorem Fills.accumulate [AddCommMonoid V] {n : ℕ} {body : ℕ → Prog Buf V Unit} {i : ℤ}
    {t : ℕ → V}
    (h : ∀ k < n, ∀ c' : Cells Buf V, (∀ b ≠ a, c' b = c b) →
      Fills (body k) c' a {i} fun _ => c' a i + t k) :
    Fills (loop n body) c a {i} fun _ => c a i + ∑ k ∈ Finset.range n, t k := by
  induction n with
  | zero =>
    refine ⟨?_, fun _ _ => rfl, fun _ _ => rfl⟩
    rintro j rfl
    simp
  | succ n ih =>
    have hn := ih fun k hk => h k (Nat.lt_succ_of_lt hk)
    have hbody := h n (Nat.lt_succ_self n) _ hn.frame
    refine ⟨?_, fun j hj => ?_, fun b hb => ?_⟩
    · rintro j rfl
      rw [exec_loop_succ, hbody.hit j rfl, hn.hit j rfl, Finset.sum_range_succ, add_assoc]
    · rw [exec_loop_succ, hbody.miss j hj, hn.miss j hj]
    · rw [exec_loop_succ, hbody.frame b hb, hn.frame b hb]

/-- Sequencing two programs that write the same buffer, the second everywhere
    the first does. -/
theorem Fills.seq {p q : Prog Buf V Unit} {S : Set ℤ} {w w' : ℤ → V}
    (hp : Fills p c a S w) (hq : Fills q (p.exec c) a S w') :
    Fills (do p; q) c a S w' where
  hit j hj := hq.hit j hj
  miss j hj := (hq.miss j hj).trans (hp.miss j hj)
  frame b hb := (hq.frame b hb).trans (hp.frame b hb)

/-- Reading first does not matter to what is filled. -/
theorem Fills.of_rd {b : Buf} {i : ℤ} {f : V → Prog Buf V Unit} {S : Set ℤ} {w : ℤ → V}
    (h : Fills (f (c b i)) c a S w) : Fills (do f (← rd b i)) c a S w :=
  ⟨h.hit, h.miss, h.frame⟩

theorem Fills.pure {S : Set ℤ} : Fills (Pure.pure ()) c a S (c a) :=
  ⟨fun _ _ => rfl, fun _ _ => rfl, fun _ _ => rfl⟩

theorem Fills.congr {p : Prog Buf V Unit} {S : Set ℤ} {w w' : ℤ → V} (h : Fills p c a S w)
    (hw : ∀ j ∈ S, w j = w' j) : Fills p c a S w' :=
  ⟨fun j hj => (h.hit j hj).trans (hw j hj), h.miss, h.frame⟩

/-- One cell of `a` for each index below `n`. -/
structure FillsRow (p : Prog Buf V Unit) (c : Cells Buf V) (a : Buf) (n : ℕ)
    (idx : ℕ → ℤ) (w : ℕ → V) : Prop where
  cell : ∀ i < n, p.exec c a (idx i) = w i
  rest : ∀ q, (∀ i < n, q ≠ idx i) → p.exec c a q = c a q
  frame : ∀ b ≠ a, p.exec c b = c b

/-- A loop, each iteration filling a cell of its own. -/
theorem FillsRow.of_loop {n : ℕ} {body : ℕ → Prog Buf V Unit} {idx : ℕ → ℤ} {w : ℕ → V}
    (hinj : ∀ i < n, ∀ j < n, idx i = idx j → i = j)
    (h : ∀ i < n, ∀ c' : Cells Buf V, (∀ b ≠ a, c' b = c b) →
      Fills (body i) c' a {idx i} fun _ => w i) :
    FillsRow (loop n body) c a n idx w := by
  let s : Set ℕ := {i | i < n}
  have hf : Set.InjOn idx s := fun i hi j hj hij => hinj i hi j hj hij
  let v : ℤ → V := fun q => w (Function.invFunOn idx s q)
  have hv : ∀ i < n, v (idx i) = w i := fun i hi => by
    have hinv : Function.invFunOn idx s (idx i) = i := hf.leftInvOn_invFunOn hi
    exact congrArg w hinv
  have hfill : Fills (loop n body) c a {q | ∃ i < n, q ∈ ({idx i} : Set ℤ)} v :=
    Fills.of_loop fun i hi c' hframe _ => (h i hi c' hframe).congr fun q hq => by
      rw [Set.mem_singleton_iff.mp hq, hv i hi]
  exact ⟨fun i hi => (hfill.hit _ ⟨i, hi, rfl⟩).trans (hv i hi),
    fun q hq => hfill.miss q fun ⟨i, hi, heq⟩ => hq i hi heq, hfill.frame⟩

/-- Writing consecutive cells from `off` on. -/
theorem fillsRow_wr [DecidableEq Buf] (n : ℕ) (off : ℤ) (v : ℕ → V) :
    FillsRow (loop n fun i => wr a (off + i) (v i)) c a n (fun i => off + i) v :=
  FillsRow.of_loop (fun i _ j _ h => by omega) fun _ _ _ _ => fills_wr _ _

/-- The same from the first cell on. -/
theorem fillsRow_wr_zero [DecidableEq Buf] (n : ℕ) (v : ℕ → V) :
    FillsRow (loop n fun i => wr a i (v i)) c a n (fun i => i) v := by
  simpa using fillsRow_wr (c := c) (a := a) n 0 v

/-- One cell of `a` for each pair `(i, j)` below `(m, n)`. -/
structure FillsGrid (p : Prog Buf V Unit) (c : Cells Buf V) (a : Buf) (m n : ℕ)
    (idx : ℕ → ℕ → ℤ) (w : ℕ → ℕ → V) : Prop where
  cell : ∀ i < m, ∀ j < n, p.exec c a (idx i j) = w i j
  rest : ∀ q, (∀ i < m, ∀ j < n, q ≠ idx i j) → p.exec c a q = c a q
  frame : ∀ b ≠ a, p.exec c b = c b

/-- Two nested loops, each pair of indices filling a cell of its own. The body
    may rely on the other buffers and on its own cell not being filled yet. -/
theorem FillsGrid.of_loops {m n : ℕ} {body : ℕ → ℕ → Prog Buf V Unit} {idx : ℕ → ℕ → ℤ}
    {w : ℕ → ℕ → V}
    (hinj : ∀ i < m, ∀ j < n, ∀ i' < m, ∀ j' < n, idx i j = idx i' j' → i = i' ∧ j = j')
    (h : ∀ i < m, ∀ j < n, ∀ c' : Cells Buf V, (∀ b ≠ a, c' b = c b) →
      c' a (idx i j) = c a (idx i j) → Fills (body i j) c' a {idx i j} fun _ => w i j) :
    FillsGrid (loop m fun i => loop n fun j => body i j) c a m n idx w := by
  -- the value by cell: the index pair of a filled cell is unique
  let f : ℕ × ℕ → ℤ := fun ij => idx ij.1 ij.2
  let s : Set (ℕ × ℕ) := {ij | ij.1 < m ∧ ij.2 < n}
  have hf : Set.InjOn f s := fun x hx y hy hxy =>
    Prod.ext_iff.mpr (hinj x.1 hx.1 x.2 hx.2 y.1 hy.1 y.2 hy.2 hxy)
  let v : ℤ → V := fun q => w (Function.invFunOn f s q).1 (Function.invFunOn f s q).2
  have hv : ∀ i < m, ∀ j < n, v (idx i j) = w i j := fun i hi j hj => by
    have hinv : Function.invFunOn f s (f (i, j)) = (i, j) := hf.leftInvOn_invFunOn ⟨hi, hj⟩
    exact congrArg (fun ij : ℕ × ℕ => w ij.1 ij.2) hinv
  have hfill : Fills (loop m fun i => loop n fun j => body i j) c a
      {q | ∃ i < m, q ∈ {q | ∃ j < n, q ∈ ({idx i j} : Set ℤ)}} v := by
    refine Fills.of_loop fun i hi c' hframe hkeep => ?_
    refine Fills.of_loop fun j hj c'' hframe' hkeep' => ?_
    refine (h i hi j hj c'' (fun b hb => (hframe' b hb).trans (hframe b hb)) ?_).congr ?_
    · rw [hkeep' _ fun j' hj' heq => ?_, hkeep _ fun i' hi' => ?_]
      · rintro ⟨j', hj', heq⟩
        exact absurd (hinj i hi j hj i' (by omega) j' hj' heq).1 (by omega)
      · exact absurd (hinj i hi j hj i hi j' (by omega) heq).2 (by omega)
    · rintro q rfl
      exact (hv i hi j hj).symm
  refine ⟨fun i hi j hj => ?_, fun q hq => ?_, hfill.frame⟩
  · exact (hfill.hit _ ⟨i, hi, j, hj, rfl⟩).trans (hv i hi j hj)
  · exact hfill.miss q fun ⟨i, hi, j, hj, heq⟩ => hq i hi j hj heq

/-- Row-major cells of a matrix with `n` columns are told apart by their
    indices. -/
theorem rowMajor_inj {n i j i' j' : ℕ} (hj : j < n) (hj' : j' < n)
    (h : (n * i + j : ℤ) = n * i' + j') : i = i' ∧ j = j' := by
  have hnat : n * i + j = n * i' + j' := by exact_mod_cast h
  have hdiv := congrArg (· / n) hnat
  have hmod := congrArg (· % n) hnat
  simp only [Nat.mul_add_div (by omega : n > 0), Nat.div_eq_of_lt hj, Nat.div_eq_of_lt hj',
    Nat.add_zero, Nat.mul_add_mod, Nat.mod_eq_of_lt hj, Nat.mod_eq_of_lt hj'] at hdiv hmod
  exact ⟨hdiv, hmod⟩

/-- They are among the first `m * n`. -/
theorem rowMajor_lt {m n i j : ℕ} (hi : i < m) (hj : j < n) : n * i + j < m * n := by
  calc n * i + j < n * i + n := by omega
    _ = n * (i + 1) := (Nat.mul_succ n i).symm
    _ ≤ n * m := Nat.mul_le_mul_left n hi
    _ = m * n := Nat.mul_comm n m

end Fills

/-! ## Where a program goes -/

section Within

variable {Buf V β γ : Type} {ok : Access Buf V → Prop}

/-- Every access the program makes, from any buffers, is a permitted one. -/
def Within (ok : Access Buf V → Prop) (p : Prog Buf V β) : Prop :=
  ∀ c, ∀ e ∈ p.accesses c, ok e

theorem within_pure (b : β) : Within ok (pure b : Prog Buf V β) := by
  intro c e he
  simp at he

theorem Within.bind {p : Prog Buf V β} {f : β → Prog Buf V γ} (hp : Within ok p)
    (hf : ∀ b, Within ok (f b)) : Within ok (p >>= f) := by
  intro c e he
  rw [accesses_bind, List.mem_append] at he
  rcases he with he | he
  · exact hp c e he
  · exact hf _ _ e he

theorem within_rd {a : Buf} {i : ℤ} (h : ok (.read a i)) : Within ok (rd a i) := by
  intro c e he
  rw [accesses_rd, List.mem_singleton] at he
  exact he ▸ h

theorem within_wr [DecidableEq Buf] {a : Buf} {i : ℤ} {v : V} (h : ok (.write a i)) :
    Within ok (wr a i v) := by
  intro c e he
  rw [accesses_wr, List.mem_singleton] at he
  exact he ▸ h

theorem within_fdiv [Div V] {x d : V} (h : ok (.div d)) :
    Within ok (fdiv x d : Prog Buf V V) := by
  intro c e he
  rw [accesses_fdiv, List.mem_singleton] at he
  exact he ▸ h

theorem within_loop {n : ℕ} {body : ℕ → Prog Buf V Unit} (h : ∀ k < n, Within ok (body k)) :
    Within ok (loop n body) := by
  induction n with
  | zero => exact within_pure ()
  | succ n ih =>
    exact (ih fun k hk => h k (Nat.lt_succ_of_lt hk)).bind fun _ => h n (Nat.lt_succ_self n)

/-- What follows may rely on what is known of the result. -/
theorem Within.bind_of_result {R : β → Prop} {p : Prog Buf V β} {f : β → Prog Buf V γ}
    (hp : Within ok p) (hR : ∀ c, R (p.result c)) (hf : ∀ b, R b → Within ok (f b)) :
    Within ok (p >>= f) := by
  intro c e he
  rw [accesses_bind, List.mem_append] at he
  rcases he with he | he
  · exact hp c e he
  · exact hf _ (hR c) _ e he

theorem within_fold {σ : Type} {n : ℕ} {s : σ} {body : ℕ → σ → Prog Buf V σ} (I : σ → Prop)
    (h0 : I s) (hI : ∀ k < n, ∀ s c, I s → I ((body k s).result c))
    (h : ∀ k < n, ∀ s, I s → Within ok (body k s)) : Within ok (fold n s body) := by
  induction n with
  | zero => exact within_pure s
  | succ n ih =>
    have hres : ∀ c, I ((fold n s body).result c) := fun c =>
      fold_induct (fun _ s' _ => I s') h0 fun k hk s' c' hs' =>
        hI k (Nat.lt_succ_of_lt hk) s' c' hs'
    exact (ih (fun k hk => hI k (Nat.lt_succ_of_lt hk)) fun k hk =>
      h k (Nat.lt_succ_of_lt hk)).bind_of_result hres fun s' hs' => h n (Nat.lt_succ_self n) s' hs'

theorem within_ite {P : Prop} [Decidable P] {p q : Prog Buf V β} (hp : P → Within ok p)
    (hq : ¬ P → Within ok q) : Within ok (if P then p else q) := by
  split
  · exact hp ‹_›
  · exact hq ‹_›

/-- The first `N` cells of `a` may be read and written. -/
def Room (ok : Access Buf V → Prop) (a : Buf) (N : ℕ) : Prop :=
  ∀ i < N, ok (.read a (i : ℕ)) ∧ ok (.write a (i : ℕ))

theorem within_rd_room {a : Buf} {N i : ℕ} (h : Room ok a N) (hi : i < N) :
    Within ok (rd a i) :=
  within_rd (h i hi).1

theorem within_wr_room [DecidableEq Buf] {a : Buf} {N i : ℕ} {v : V} (h : Room ok a N)
    (hi : i < N) : Within ok (wr a i v) :=
  within_wr (h i hi).2

/-- A cell of a row-major matrix, among the first `m * n`. -/
theorem Room.rowMajor {a : Buf} {m n i j : ℕ} (h : Room ok a (m * n)) (hi : i < m) (hj : j < n) :
    ok (.read a (n * i + j)) ∧ ok (.write a (n * i + j)) := by
  have h := h _ (rowMajor_lt hi hj)
  rwa [Nat.cast_add, Nat.cast_mul] at h

/-- What a loop does is done by an iteration, from where those before it end. -/
theorem mem_accesses_loop_iff {n : ℕ} {body : ℕ → Prog Buf V Unit} {e : Access Buf V}
    {c : Cells Buf V} :
    e ∈ (loop n body).accesses c ↔ ∃ k < n, e ∈ (body k).accesses ((loop k body).exec c) := by
  induction n with
  | zero => simp
  | succ n ih =>
    rw [accesses_loop_succ, List.mem_append, ih]
    constructor
    · rintro (⟨k, hk, he⟩ | he)
      · exact ⟨k, Nat.lt_succ_of_lt hk, he⟩
      · exact ⟨n, Nat.lt_succ_self n, he⟩
    · rintro ⟨k, hk, he⟩
      rcases Nat.lt_succ_iff_lt_or_eq.mp hk with hlt | rfl
      · exact .inl ⟨k, hlt, he⟩
      · exact .inr he

/-- What an iteration does from every state, the loop does. -/
theorem mem_accesses_loop {n k : ℕ} (hk : k < n) {body : ℕ → Prog Buf V Unit}
    {e : Access Buf V} (h : ∀ c, e ∈ (body k).accesses c) (c : Cells Buf V) :
    e ∈ (loop n body).accesses c :=
  mem_accesses_loop_iff.mpr ⟨k, hk, h _⟩

end Within

/-! ## What a program leaves alone -/

section Keeps

variable {Buf V β γ : Type} {a : Buf}

/-- Run from any buffers, the program leaves buffer `a` as it was. -/
def Keeps (a : Buf) (p : Prog Buf V β) : Prop := ∀ c, p.exec c a = c a

theorem keeps_pure (b : β) : Keeps a (pure b : Prog Buf V β) := by
  intro c
  rw [exec_pure]

theorem Keeps.bind {p : Prog Buf V β} {f : β → Prog Buf V γ} (hp : Keeps a p)
    (hf : ∀ b, Keeps a (f b)) : Keeps a (p >>= f) := by
  intro c
  rw [exec_bind, hf, hp]

theorem keeps_rd (b : Buf) (i : ℤ) : Keeps a (rd b i : Prog Buf V V) := by
  intro c
  rw [exec_rd]

theorem keeps_wr [DecidableEq Buf] {b : Buf} (h : a ≠ b) (i : ℤ) (v : V) :
    Keeps a (wr b i v) := by
  intro c
  exact exec_wr_of_ne v h

theorem keeps_loop {n : ℕ} {body : ℕ → Prog Buf V Unit} (h : ∀ k < n, Keeps a (body k)) :
    Keeps a (loop n body) := by
  induction n with
  | zero => exact keeps_pure ()
  | succ n ih =>
    exact (ih fun k hk => h k (Nat.lt_succ_of_lt hk)).bind fun _ => h n (Nat.lt_succ_self n)

theorem keeps_ite {P : Prop} [Decidable P] {p q : Prog Buf V β} (hp : Keeps a p)
    (hq : Keeps a q) : Keeps a (if P then p else q) := by
  split
  · exact hp
  · exact hq

end Keeps

/-! ## Programs that store constants -/

section Constant

variable {Buf V : Type}

/-- What the program writes, and where, does not depend on the buffers. -/
def Constant (p : Prog Buf V Unit) : Prop :=
  ∃ w : Buf → ℤ → Option V, ∀ c b j, p.exec c b j = (w b j).getD (c b j)

theorem constant_wr [DecidableEq Buf] (a : Buf) (i : ℤ) (v : V) : Constant (wr a i v) := by
  refine ⟨fun b j => if b = a ∧ j = i then some v else none, fun c b j => ?_⟩
  rw [exec_wr]
  by_cases h : b = a ∧ j = i
  · simp only [if_pos h, Option.getD_some]
  · simp only [if_neg h, Option.getD_none]

theorem Constant.seq {p q : Prog Buf V Unit} (hp : Constant p) (hq : Constant q) :
    Constant (do p; q) := by
  obtain ⟨wp, hwp⟩ := hp
  obtain ⟨wq, hwq⟩ := hq
  refine ⟨fun b j => (wq b j).or (wp b j), fun c b j => ?_⟩
  rw [exec_bind, hwq, hwp]
  cases h : wq b j with
  | none => simp only [h, Option.none_or, Option.getD_none]
  | some v => simp only [h, Option.some_or, Option.getD_some]

theorem constant_loop {n : ℕ} {body : ℕ → Prog Buf V Unit} (h : ∀ k < n, Constant (body k)) :
    Constant (loop n body) := by
  induction n with
  | zero => exact ⟨fun _ _ => none, fun _ _ _ => rfl⟩
  | succ n ih =>
    exact (ih fun k hk => h k (Nat.lt_succ_of_lt hk)).seq (h n (Nat.lt_succ_self n))

/-- Where its constants already are, it changes nothing. -/
theorem Constant.exec_again {p : Prog Buf V Unit} (h : Constant p) {c c' : Cells Buf V} {b : Buf}
    (hb : c' b = p.exec c b) : p.exec c' b = c' b := by
  obtain ⟨w, hw⟩ := h
  funext j
  rw [hw, hb, hw]
  cases w b j with
  | none => rfl
  | some v => rfl

end Constant

/-! ## What a program divides by -/

section Divisors

variable {Buf V β γ : Type} {c : Cells Buf V}

/-- The divisors of a run, in order. -/
def divisors (p : Prog Buf V β) (c : Cells Buf V) : List V :=
  (p.accesses c).filterMap fun
    | .div d => some d
    | _ => none

theorem divisors_bind (p : Prog Buf V β) (f : β → Prog Buf V γ) :
    divisors (p >>= f) c = divisors p c ++ divisors (f (p.result c)) (p.exec c) := by
  rw [divisors, accesses_bind, List.filterMap_append]
  rfl

theorem divisors_fdiv [Div V] (x d : V) : divisors (fdiv x d : Prog Buf V V) c = [d] := by
  rw [divisors, accesses_fdiv]
  rfl

theorem divisors_rd (a : Buf) (i : ℤ) : divisors (rd a i : Prog Buf V V) c = [] := by
  rw [divisors, accesses_rd]
  rfl

theorem mem_divisors {p : Prog Buf V β} {d : V} (h : d ∈ divisors p c) :
    .div d ∈ p.accesses c := by
  obtain ⟨e, he, hd⟩ := List.mem_filterMap.mp h
  cases e with
  | read a i => cases hd
  | write a i => cases hd
  | div d' => exact Option.some.inj hd ▸ he

/-- Not a division by zero. -/
def Access.DivNeZero [Zero V] : Access Buf V → Prop
  | .div d => d ≠ 0
  | _ => True

/-- Touching cells only. -/
def Access.IsCell : Access Buf V → Prop
  | .div _ => False
  | _ => True

theorem room_isCell (a : Buf) (N : ℕ) : Room (Access.IsCell (V := V)) a N :=
  fun _ _ => ⟨trivial, trivial⟩

theorem divisors_of_within {p : Prog Buf V β} (h : Within Access.IsCell p) : divisors p c = [] := by
  rw [divisors, List.filterMap_eq_nil_iff]
  intro e he
  have hcell := h c e he
  cases e with
  | read a i => rfl
  | write a i => rfl
  | div d => exact hcell.elim

end Divisors

end Buffers
