-- SUMMARY: Interleaved threads: runs of actions, what holds throughout them, and what a thread owns alone.
import Mathlib.Logic.Function.Basic
import Mathlib.Tactic.ByContra

/-!
# Interleavings

A system takes one action after the other, of whichever thread. A run is the list of
its actions; an action that is not enabled ends it.
-/

namespace Interleaving

section Runs

variable {σ α : Type} {step : σ → α → Option σ} {ok : σ → α → Prop} {P I : σ → Prop} {s s' : σ}

/-- Every action of the run meets `ok` in the state it is taken in. -/
def Along (step : σ → α → Option σ) (ok : σ → α → Prop) (s : σ) : List α → Prop
  | [] => True
  | a :: as => ∀ s', step s a = some s' → ok s a ∧ Along step ok s' as

/-- Every state of the run satisfies `P`. -/
def Throughout (step : σ → α → Option σ) (P : σ → Prop) (s : σ) : List α → Prop
  | [] => P s
  | a :: as => P s ∧ ∀ s', step s a = some s' → Throughout step P s' as

/-- The state a run ends in. -/
def exec (step : σ → α → Option σ) (s : σ) : List α → Option σ
  | [] => some s
  | a :: as => (step s a).bind fun s' => exec step s' as

theorem Along.cons {a : α} {as : List α} (hs : step s a = some s') (ha : ok s a)
    (has : Along step ok s' as) : Along step ok s (a :: as) := by
  intro s'' hs''
  rw [hs] at hs''
  cases hs''
  exact ⟨ha, has⟩

theorem Throughout.exec {as : List α} (h : Throughout step P s as)
    (hexec : exec step s as = some s') : P s' := by
  induction as generalizing s with
  | nil =>
    cases hexec
    exact h
  | cons a as ih =>
    obtain ⟨s₁, hs₁, hrest⟩ := Option.bind_eq_some_iff.mp hexec
    exact ih (h.2 s₁ hs₁) hrest

theorem Throughout.start {as : List α} (h : Throughout step P s as) : P s := by
  cases as with
  | nil => exact h
  | cons a as => exact h.1

theorem along_of_forall {as : List α} (h : ∀ a ∈ as, ∀ s, ok s a) : Along step ok s as := by
  induction as generalizing s with
  | nil => exact trivial
  | cons a as ih =>
    intro s' hs'
    exact ⟨h a (List.mem_cons_self ..) s, ih fun a' ha' => h a' (List.mem_cons_of_mem a ha')⟩

/-- Invariant rule: actions that meet `ok` keep `I`, which implies `P`. -/
theorem throughout_of_along {as : List α} (hP : ∀ s, I s → P s)
    (hkeep : ∀ s a s', I s → ok s a → step s a = some s' → I s') (h : I s)
    (hok : Along step ok s as) : Throughout step P s as := by
  induction as generalizing s with
  | nil => exact hP s h
  | cons a as ih =>
    refine ⟨hP s h, fun s' hs' => ?_⟩
    obtain ⟨ha, has⟩ := hok s' hs'
    exact ih (hkeep s a s' h ha hs') has

/-- When every other action breaks `P` at once, `P` lasts exactly as long as the
    actions meet `ok`. -/
theorem throughout_iff_along {as : List α} (hP : ∀ s, I s → P s)
    (hkeep : ∀ s a s', I s → ok s a → step s a = some s' → I s')
    (hbreak : ∀ s a s', I s → ¬ ok s a → step s a = some s' → ¬ P s') (h : I s) :
    Throughout step P s as ↔ Along step ok s as := by
  refine ⟨fun hall => ?_, throughout_of_along hP hkeep h⟩
  induction as generalizing s with
  | nil => exact trivial
  | cons a as ih =>
    intro s' hs'
    have hrest := hall.2 s' hs'
    have ha : ok s a := by
      by_contra hno
      exact hbreak s a s' h hno hs' hrest.start
    exact ⟨ha, ih (hkeep s a s' h ha hs') hrest⟩

/-- Where every action that does not meet `ok` leads to states that a run cannot end in
    without `P` having failed, runs that do end keep `P` only as long as they meet `ok`. -/
theorem along_of_throughout {D E : σ → Prop} {as : List α}
    (hkeep : ∀ s a s', I s → ok s a → step s a = some s' → I s')
    (hbreak : ∀ s a s', I s → ¬ ok s a → step s a = some s' → D s')
    (hdoom : ∀ s a s', D s → step s a = some s' → D s' ∨ ¬ P s') (hend : ∀ s, D s → ¬ E s) (h : I s)
    (hexec : exec step s as = some s') (he : E s') (hall : Throughout step P s as) :
    Along step ok s as := by
  have hnever : ∀ {s : σ} {as : List α}, D s → exec step s as = some s' →
      ¬ Throughout step P s as := by
    intro s as hd hexec hall
    induction as generalizing s with
    | nil =>
      cases hexec
      exact hend _ hd he
    | cons a as ih =>
      obtain ⟨s₁, hs₁, hrest⟩ := Option.bind_eq_some_iff.mp hexec
      have hall₁ := hall.2 s₁ hs₁
      rcases hdoom s a s₁ hd hs₁ with hd₁ | hnot
      · exact ih hd₁ hrest hall₁
      · exact hnot hall₁.start
  induction as generalizing s with
  | nil => exact trivial
  | cons a as ih =>
    obtain ⟨s₁, hs₁, hrest⟩ := Option.bind_eq_some_iff.mp hexec
    have hall₁ := hall.2 s₁ hs₁
    have ha : ok s a := by
      by_contra hno
      exact hnever (hbreak s a s₁ h hno hs₁) hrest hall₁
    exact .cons hs₁ ha (ih (hkeep s a s₁ h ha hs₁) hrest hall₁)

/-- Rule for a state reached: what every action keeps. -/
theorem exec_keep {as : List α} (hkeep : ∀ s a s', P s → step s a = some s' → P s') (h : P s)
    (hexec : exec step s as = some s') : P s' := by
  induction as generalizing s with
  | nil =>
    cases hexec
    exact h
  | cons a as ih =>
    obtain ⟨s₁, hs₁, hrest⟩ := Option.bind_eq_some_iff.mp hexec
    exact ih (hkeep s a s₁ h hs₁) hrest

end Runs

/-! ## Ownership -/

section Exclusive

variable {ι α : Type} {own : ι → Option α}

/-- No two threads own the same thing. -/
def Exclusive (own : ι → Option α) : Prop :=
  ∀ t t' a, own t = some a → own t' = some a → t = t'

theorem exclusive_none : Exclusive fun _ : ι => (none : Option α) := by
  intro _ _ _ h
  cases h

variable [DecidableEq ι] {t t' : ι} {a b : α}

theorem of_update_none (h : Function.update own t none t' = some a) :
    t' ≠ t ∧ own t' = some a := by
  rw [Function.update_apply] at h
  split at h
  · cases h
  · exact ⟨‹_›, h⟩

theorem of_update_some (h : Function.update own t (some b) t' = some a) :
    t' = t ∧ b = a ∨ t' ≠ t ∧ own t' = some a := by
  rw [Function.update_apply] at h
  split at h
  · cases h
    exact .inl ⟨‹_›, rfl⟩
  · exact .inr ⟨‹_›, h⟩

/-- What thread `t` did not own stays where it is. -/
theorem update_owner (h : own t' = some a) (ht : own t ≠ some a) (o : Option α) :
    Function.update own t o t' = some a := by
  have htt : t' ≠ t := by
    rintro rfl
    exact ht h
  rw [Function.update_of_ne htt, h]

theorem Exclusive.release (h : Exclusive own) : Exclusive (Function.update own t none) :=
  fun t₁ t₂ a h₁ h₂ => h t₁ t₂ a (of_update_none h₁).2 (of_update_none h₂).2

/-- A thread may take what nobody owns. -/
theorem Exclusive.acquire (h : Exclusive own) (ha : ∀ t', own t' ≠ some a) :
    Exclusive (Function.update own t (some a)) := by
  intro t₁ t₂ c h₁ h₂
  rcases of_update_some h₁ with ⟨ht₁, rfl⟩ | ⟨_, h₁⟩
  · rcases of_update_some h₂ with ⟨ht₂, _⟩ | ⟨_, h₂⟩
    · exact ht₁.trans ht₂.symm
    · exact absurd h₂ (ha t₂)
  · rcases of_update_some h₂ with ⟨_, rfl⟩ | ⟨_, h₂⟩
    · exact absurd h₁ (ha t₁)
    · exact h t₁ t₂ c h₁ h₂

end Exclusive

end Interleaving
