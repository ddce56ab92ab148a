-- SUMMARY: Runs of a state under a sequence of calls, and the invariant rule.
import Mathlib.Data.Nat.Notation

namespace Runs

variable {σ α : Type} {step : σ → α → σ} {s : σ} {calls : ℕ → α}

/-- The states of a run, one call after the other. -/
def run (step : σ → α → σ) (s : σ) (calls : ℕ → α) : ℕ → σ
  | 0 => s
  | k + 1 => step (run step s calls k) (calls k)

@[simp] theorem run_zero : run step s calls 0 = s := rfl
@[simp] theorem run_succ (k : ℕ) :
    run step s calls (k + 1) = step (run step s calls k) (calls k) := rfl

/-- A run goes on from where it stands. -/
theorem run_add (k j : ℕ) :
    run step s calls (k + j) = run step (run step s calls k) (fun i => calls (k + i)) j := by
  induction j with
  | zero => rfl
  | succ j ih => rw [← Nat.add_assoc, run_succ, run_succ, ih]

/-- Invariant rule: what holds first and is kept by every call holds throughout. -/
theorem run_invariant {I : σ → Prop} (h0 : I s) (hstep : ∀ s a, I s → I (step s a)) (k : ℕ) :
    I (run step s calls k) := by
  induction k with
  | zero => exact h0
  | succ k ih => exact hstep _ _ ih

end Runs
