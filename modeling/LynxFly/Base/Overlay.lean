-- SUMMARY: Lists laid over a buffer: programs that rewrite one buffer, and the windows they leave.
import LynxFly.Base.ByteCopy

/-!
# Overlays

The contents of one buffer after lists of values are laid over it, one after the other, and
what is seen of them through windows. A program that rewrites one buffer is such a sequence.
-/

namespace Buffers

open Prog

section Overlay

variable {V : Type} {m : ℤ → V} {off t n : ℕ} {vs : List V}

/-- The values, from `off` on. -/
def overlay (m : ℤ → V) (off : ℕ) (vs : List V) : ℤ → V := fun j =>
  if off ≤ j ∧ j < off + vs.length then vs.getD (j - off).toNat (m j) else m j

/-- The `n` values from `off` on. -/
def window (m : ℤ → V) (off n : ℕ) : List V := slice (fun _ : Unit => m) () off n

@[simp] theorem length_window : (window m off n).length = n := length_slice off n

theorem getElem?_window {i : ℕ} (hi : i < n) :
    (window m off n)[i]? = some (m ((off + i : ℕ) : ℤ)) := getElem?_slice hi

theorem window_congr {m' : ℤ → V} (h : ∀ i, off ≤ i → i < off + n → m' (i : ℕ) = m (i : ℕ)) :
    window m' off n = window m off n := slice_congr (a := ()) h

theorem window_succ : window m off (n + 1) = m (off : ℤ) :: window m (off + 1) n := slice_succ off n

theorem window_add {n' : ℕ} :
    window m off (n + n') = window m off n ++ window m (off + n) n' := slice_add off n n'

/-- A window onto two lists, one behind the other. -/
theorem window_append_iff {vs' : List V} : window m off (vs ++ vs').length = vs ++ vs' ↔
    window m off vs.length = vs ∧ window m (off + vs.length) vs'.length = vs' := by
  rw [List.length_append, window_add]
  constructor
  · intro h
    exact List.append_inj h length_window
  · rintro ⟨h1, h2⟩
    rw [h1, h2]

theorem overlay_nil : overlay m off [] = m := by
  funext j
  rw [overlay, List.length_nil, if_neg (by omega)]

theorem overlay_of_lt {i : ℕ} (hi : i < vs.length) :
    overlay m off vs ((off + i : ℕ) : ℤ) = vs.get ⟨i, hi⟩ := by
  rw [overlay, if_pos (by omega), show ((off + i : ℕ) : ℤ) - off = (i : ℕ) by omega,
    Int.toNat_natCast, List.getD_eq_getElem?_getD, List.getElem?_eq_getElem hi, Option.getD_some,
    List.get_eq_getElem]

theorem overlay_of_apart {j : ℤ} (h : j < off ∨ off + vs.length ≤ j) :
    overlay m off vs j = m j := by
  rw [overlay, if_neg (by omega)]

/-- The list is seen where it lies. -/
theorem window_overlay (hn : vs.length = n) : window (overlay m off vs) off n = vs := by
  subst hn
  refine slice_eq_iff.mpr ⟨rfl, fun i hi => ?_⟩
  rw [overlay_of_lt hi, List.getElem?_eq_getElem hi, List.get_eq_getElem]

theorem window_overlay_of_apart (h : t + n ≤ off ∨ off + vs.length ≤ t) :
    window (overlay m off vs) t n = window m t n :=
  window_congr fun i h1 h2 => overlay_of_apart (by omega)

end Overlay

/-! ## Programs that rewrite one buffer -/

section Leaves

variable {Buf V β γ : Type} {b : Buf}

/-- Run from `c`, the program returns `r` and leaves `m` in `b`, and nothing else changes. -/
structure Leaves (p : Prog Buf V β) (c : Cells Buf V) (r : β) (b : Buf) (m : ℤ → V) : Prop where
  result : p.result c = r
  here : p.exec c b = m
  frame : ∀ a ≠ b, p.exec c a = c a

variable {p : Prog Buf V β} {f : β → Prog Buf V γ} {c : Cells Buf V} {r : β} {r' : γ} {m m' : ℤ → V}

theorem leaves_pure (r : β) : Leaves (pure r : Prog Buf V β) c r b (c b) where
  result := result_pure r
  here := by rw [exec_pure]
  frame _ _ := by rw [exec_pure]

theorem Leaves.bind (hp : Leaves p c r b m)
    (hf : ∀ c', c' b = m → (∀ a ≠ b, c' a = c a) → Leaves (f r) c' r' b m') :
    Leaves (p >>= f) c r' b m' := by
  have hrest := hf (p.exec c) hp.here hp.frame
  refine ⟨?_, ?_, fun a ha => ?_⟩
  · rw [result_bind, hp.result, hrest.result]
  · rw [exec_bind, hp.result, hrest.here]
  · rw [exec_bind, hp.result, hrest.frame a ha, hp.frame a ha]

theorem Leaves.of_rd {a : Buf} {i : ℤ} {g : V → Prog Buf V β} (h : Leaves (g (c a i)) c r b m) :
    Leaves (rd a i >>= g) c r b m :=
  ⟨h.result, h.here, h.frame⟩

theorem Leaves.congr (h : Leaves p c r b m) (hm : m = m') : Leaves p c r b m' := hm ▸ h

variable [DecidableEq Buf]

theorem leaves_store (off : ℕ) (vs : List V) :
    Leaves (store b off vs) c () b (overlay (c b) off vs) := by
  refine ⟨rfl, ?_, fun a ha => keeps_store ha off vs c⟩
  induction vs generalizing off c with
  | nil =>
    rw [overlay_nil]
    rfl
  | cons v vs ih =>
    rw [store, exec_bind, ih]
    funext j
    by_cases hfirst : j = off
    · subst hfirst
      rw [overlay_of_apart (by omega), exec_wr_self, overlay, if_pos (by simp), sub_self]
      rfl
    · by_cases hin : ((off + 1 : ℕ) : ℤ) ≤ j ∧ j < ((off + 1 : ℕ) : ℤ) + vs.length
      · obtain ⟨i, hi, rfl⟩ : ∃ i < vs.length, j = ((off + 1 + i : ℕ) : ℤ) :=
          ⟨(j - (off + 1 : ℕ)).toNat, by omega, by omega⟩
        rw [overlay_of_lt hi, show off + 1 + i = off + (i + 1) by omega,
          overlay_of_lt (Nat.succ_lt_succ hi)]
        rfl
      · rw [overlay_of_apart (by omega), exec_wr_of_index_ne v hfirst,
          overlay_of_apart (by rw [List.length_cons]; omega)]

/-- Copying from another buffer. -/
theorem leaves_copy {src : Buf} (hsrc : b ≠ src) (off s n : ℕ) :
    Leaves (copy b off src s n) c () b (overlay (c b) off (window (c src) s n)) := by
  refine ⟨rfl, ?_, fun a ha => ?_⟩
  · funext j
    rw [exec_copy (.inl hsrc)]
    by_cases hin : (off : ℤ) ≤ j ∧ j < off + n
    · obtain ⟨i, hi, rfl⟩ : ∃ i < n, j = ((off + i : ℕ) : ℤ) :=
        ⟨(j - off).toNat, by omega, by omega⟩
      have hwindow : (window (c src) s n)[i]? = some (c src ((s + i : ℕ) : ℤ)) := getElem?_window hi
      rw [List.getElem?_eq_getElem (by rwa [length_window])] at hwindow
      rw [if_pos ⟨rfl, hin⟩, overlay_of_lt (by rwa [length_window]), List.get_eq_getElem,
        Option.some.inj hwindow]
      refine congrArg _ ?_
      omega
    · rw [if_neg fun h => hin h.2, overlay_of_apart (by rw [length_window]; omega)]
  · funext j
    rw [exec_copy (.inl hsrc), if_neg fun h => ha h.1]

end Leaves

end Buffers
