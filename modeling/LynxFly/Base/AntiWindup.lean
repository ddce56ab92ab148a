-- SUMMARY: Sums that stop growing at a bound: the conditional accumulation of integrators.
import Mathlib.Algebra.Order.Field.Basic
import Mathlib.Data.List.Induction
import Mathlib.Tactic.Linarith

/-!
# Anti-windup

An increment is taken while the sum is on the near side of the bound it moves
towards. Since the test comes before the addition, the sum may pass the bound by
one increment, and never by more.
-/

namespace AntiWindup

variable {K : Type} [Field K] [LinearOrder K]

/-- Whether the increment `x` is taken when the sum is `v`. -/
def Takes (bound v x : K) : Prop := (x ≥ 0 ∧ v < bound) ∨ (x < 0 ∧ v > -bound)

instance (bound v x : K) : Decidable (Takes bound v x) := by
  unfold Takes
  infer_instance

/-- One increment. -/
def accumulate (bound v x : K) : K := if Takes bound v x then v + x else v

theorem accumulate_of_takes {bound v x : K} (h : Takes bound v x) :
    accumulate bound v x = v + x := if_pos h

theorem accumulate_of_not_takes {bound v x : K} (h : ¬ Takes bound v x) :
    accumulate bound v x = v := if_neg h

variable [IsStrictOrderedRing K] {bound v x δ : K}

theorem abs_accumulate_le (hv : |v| ≤ bound + δ) (hx : |x| ≤ δ) :
    |accumulate bound v x| ≤ bound + δ := by
  by_cases h : Takes bound v x
  · rw [accumulate_of_takes h]
    rw [abs_le] at hv hx ⊢
    rcases h with ⟨hpos, hlt⟩ | ⟨hneg, hgt⟩
    · constructor <;> linarith
    · constructor <;> linarith
  · rwa [accumulate_of_not_takes h]

/-- From zero, a sum passes its bound by no more than its largest increment. -/
theorem abs_foldl_accumulate_le {xs : List K} (hbound : 0 ≤ bound + δ)
    (hxs : ∀ x ∈ xs, |x| ≤ δ) : |xs.foldl (accumulate bound) 0| ≤ bound + δ := by
  induction xs using List.reverseRecOn with
  | nil => simpa using hbound
  | append_singleton xs x ih =>
    rw [List.foldl_append]
    exact abs_accumulate_le (ih fun y hy => hxs y (by simp [hy])) (hxs x (by simp))

end AntiWindup
