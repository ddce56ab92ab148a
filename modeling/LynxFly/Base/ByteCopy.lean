-- SUMMARY: Copies between flat buffers: what they leave, and when they stay inside.
import LynxFly.Base.Memory

/-!
# Copying

`memcpy` as a program over flat buffers, and stretches of a buffer as lists. A copy moves
one stretch onto another; copies to stretches that follow one another put lists together.
-/

namespace Buffers

open Prog

section Slices

variable {Buf V : Type} {c c' : Cells Buf V} {a : Buf}

/-- The `n` cells of `a` from `s` on. -/
def slice (c : Cells Buf V) (a : Buf) (s n : ℕ) : List V :=
  (List.range n).map fun i => c a ((s + i : ℕ) : ℤ)

@[simp] theorem slice_zero (s : ℕ) : slice c a s 0 = [] := rfl

@[simp] theorem length_slice (s n : ℕ) : (slice c a s n).length = n := by
  rw [slice, List.length_map, List.length_range]

theorem slice_succ (s n : ℕ) : slice c a s (n + 1) = c a (s : ℤ) :: slice c a (s + 1) n := by
  rw [slice, List.range_succ_eq_map, List.map_cons, List.map_map, slice, Nat.add_zero]
  refine congrArg _ (List.map_congr_left fun i _ => ?_)
  rw [Function.comp_apply, Nat.succ_eq_add_one, Nat.add_assoc, Nat.add_comm 1 i]

theorem slice_add (s m n : ℕ) : slice c a s (m + n) = slice c a s m ++ slice c a (s + m) n := by
  rw [slice, List.range_add, List.map_append, List.map_map]
  refine congrArg _ (List.map_congr_left fun i _ => ?_)
  rw [Function.comp_apply, Nat.add_assoc]

theorem slice_congr {s n : ℕ} (h : ∀ i, s ≤ i → i < s + n → c' a (i : ℕ) = c a (i : ℕ)) :
    slice c' a s n = slice c a s n := by
  refine List.map_congr_left fun i hi => h (s + i) (Nat.le_add_right s i) ?_
  exact Nat.add_lt_add_left (List.mem_range.mp hi) s

theorem getElem?_slice {s n i : ℕ} (hi : i < n) :
    (slice c a s n)[i]? = some (c a ((s + i : ℕ) : ℤ)) := by
  rw [slice, List.getElem?_map, List.getElem?_range hi, Option.map_some]

theorem slice_eq_iff {s n : ℕ} {bs : List V} : slice c a s n = bs ↔
    bs.length = n ∧ ∀ i < n, bs[i]? = some (c a ((s + i : ℕ) : ℤ)) := by
  constructor
  · rintro rfl
    exact ⟨length_slice s n, fun i hi => getElem?_slice hi⟩
  · rintro ⟨rfl, h⟩
    refine List.ext_getElem? fun i => ?_
    by_cases hi : i < bs.length
    · rw [getElem?_slice hi, h i hi]
    · rw [List.getElem?_eq_none (by rw [length_slice]; omega), List.getElem?_eq_none (by omega)]

end Slices

section Copy

variable {Buf V : Type} [DecidableEq Buf] {c : Cells Buf V} {dst src b : Buf} {d s n : ℕ}

/-- `memcpy(dst + d, src + s, n)`. -/
def copy (dst : Buf) (d : ℕ) (src : Buf) (s n : ℕ) : Prog Buf V Unit :=
  loop n fun i => do wr dst ((d + i : ℕ) : ℤ) (← rd src ((s + i : ℕ) : ℤ))

/-- Writing a list of values, one after the other. -/
def store (dst : Buf) (d : ℕ) : List V → Prog Buf V Unit
  | [] => pure ()
  | v :: vs => do
    wr dst (d : ℤ) v
    store dst (d + 1) vs

/-- The stretches are of different buffers, or do not meet. -/
def Apart (dst : Buf) (d : ℕ) (src : Buf) (s n : ℕ) : Prop :=
  dst ≠ src ∨ d + n ≤ s ∨ s + n ≤ d

theorem exec_copy (h : Apart dst d src s n) (b : Buf) (j : ℤ) :
    (copy dst d src s n).exec c b j =
      if b = dst ∧ d ≤ j ∧ j < d + n then c src (s + (j - d)) else c b j := by
  have hloop : ∀ m ≤ n, ∀ b j, (copy dst d src s m).exec c b j =
      if b = dst ∧ d ≤ j ∧ j < d + m then c src (s + (j - d)) else c b j := by
    intro m hm
    induction m with
    | zero =>
      intro b j
      rw [if_neg (by omega)]
      rfl
    | succ m ih =>
      have ih := ih (by omega)
      intro b j
      have hsrc : (copy dst d src s m).exec c src ((s + m : ℕ) : ℤ) = c src ((s + m : ℕ) : ℤ) := by
        rw [ih, if_neg]
        rintro ⟨rfl, h1, h2⟩
        rcases h with h | h | h
        · exact h rfl
        · omega
        · omega
      have hstep : (copy dst d src s (m + 1)).exec c b j =
          if b = dst ∧ j = ((d + m : ℕ) : ℤ) then (copy dst d src s m).exec c src ((s + m : ℕ) : ℤ)
          else (copy dst d src s m).exec c b j := by
        rw [copy, exec_loop_succ, exec_bind, exec_wr]
        rfl
      rw [hstep, hsrc, ih]
      by_cases hb : b = dst
      · by_cases hj : j = ((d + m : ℕ) : ℤ)
        · rw [if_pos ⟨hb, hj⟩, if_pos ⟨hb, by omega, by omega⟩]
          refine congrArg _ ?_
          omega
        · rw [if_neg (by tauto)]
          refine if_congr (and_congr_right fun _ => ?_) rfl rfl
          omega
      · rw [if_neg (by tauto), if_neg (by tauto), if_neg (by tauto)]
  exact hloop n le_rfl b j

/-- What is copied arrives, as a whole and in every part. -/
theorem slice_copy_part (h : Apart dst d src s n) {k m : ℕ} (hk : k + m ≤ n) :
    slice ((copy dst d src s n).exec c) dst (d + k) m = slice c src (s + k) m := by
  refine List.map_congr_left fun i hi => ?_
  have hi := List.mem_range.mp hi
  rw [exec_copy h, if_pos ⟨rfl, by omega, by omega⟩]
  refine congrArg _ ?_
  omega

theorem slice_copy (h : Apart dst d src s n) :
    slice ((copy dst d src s n).exec c) dst d n = slice c src s n :=
  slice_copy_part h (Nat.zero_add n).le

theorem slice_copy_of_ne (hb : b ≠ dst) (h : Apart dst d src s n) (t m : ℕ) :
    slice ((copy dst d src s n).exec c) b t m = slice c b t m :=
  slice_congr fun _ _ _ => by rw [exec_copy h, if_neg (by tauto)]

/-- Nothing else changes. -/
theorem slice_copy_of_apart (h : Apart dst d src s n) {t m : ℕ} (ht : t + m ≤ d ∨ d + n ≤ t) :
    slice ((copy dst d src s n).exec c) b t m = slice c b t m :=
  slice_congr fun _ _ _ => by rw [exec_copy h, if_neg (by omega)]

theorem exec_store (d : ℕ) (vs : List V) (b : Buf) (i : ℕ) : (store dst d vs).exec c b (i : ℤ) =
    if b = dst ∧ d ≤ i then vs.getD (i - d) (c b i) else c b i := by
  induction vs generalizing d c with
  | nil =>
    rw [List.getD_nil, ite_self]
    rfl
  | cons v vs ih =>
    rw [store, exec_bind, ih, exec_wr]
    by_cases hb : b = dst
    · rcases Nat.lt_trichotomy i d with hi | rfl | hi
      · rw [if_neg (by omega), if_neg (by omega), if_neg (by omega)]
      · rw [if_neg (by omega), if_pos ⟨hb, rfl⟩, if_pos ⟨hb, le_rfl⟩, Nat.sub_self,
          List.getD_cons_zero]
      · rw [if_pos ⟨hb, hi⟩, if_neg (by omega), if_pos ⟨hb, by omega⟩,
          show i - d = i - (d + 1) + 1 by omega, List.getD_cons_succ]
    · rw [if_neg (by tauto), if_neg (by tauto), if_neg (by tauto)]

theorem slice_store (vs : List V) : slice ((store dst d vs).exec c) dst d vs.length = vs := by
  rw [slice_eq_iff]
  refine ⟨rfl, fun i hi => ?_⟩
  rw [exec_store, if_pos ⟨rfl, Nat.le_add_right d i⟩, Nat.add_sub_cancel_left,
    List.getD_eq_getElem?_getD, List.getElem?_eq_getElem hi, Option.getD_some]

theorem keeps_store (hb : b ≠ dst) (d : ℕ) (vs : List V) : Keeps b (store dst d vs) := by
  induction vs generalizing d with
  | nil => exact keeps_pure _
  | cons v vs ih => exact (keeps_wr hb _ _).bind fun _ => ih (d + 1)

/-! Accesses -/

theorem mem_accesses_copy {e : Access Buf V} : e ∈ (copy dst d src s n).accesses c ↔
    ∃ i < n, e = .read src ((s + i : ℕ) : ℤ) ∨ e = .write dst ((d + i : ℕ) : ℤ) := by
  rw [copy, mem_accesses_loop_iff]
  simp

theorem mem_accesses_store {vs : List V} {e : Access Buf V} :
    e ∈ (store dst d vs).accesses c ↔ ∃ i < vs.length, e = .write dst ((d + i : ℕ) : ℤ) := by
  induction vs generalizing d c with
  | nil => simp [store]
  | cons v vs ih =>
    rw [store, accesses_bind, accesses_wr, List.mem_append, List.mem_singleton, ih]
    constructor
    · rintro (rfl | ⟨i, hi, rfl⟩)
      · exact ⟨0, Nat.succ_pos _, rfl⟩
      · exact ⟨i + 1, Nat.succ_lt_succ hi, by rw [Nat.add_right_comm, Nat.add_assoc]⟩
    · rintro ⟨i, hi, rfl⟩
      cases i with
      | zero => exact .inl rfl
      | succ i =>
        exact .inr ⟨i, Nat.lt_of_succ_lt_succ hi, by rw [Nat.add_right_comm, Nat.add_assoc]⟩

/-- The access is to one of the first `size` cells of its buffer. -/
def Access.Inside (size : Buf → ℕ) : Access Buf V → Prop
  | .read a i | .write a i => 0 ≤ i ∧ i < size a
  | .div _ => True

/-- A copy stays inside when both its stretches do. -/
theorem copy_inside_iff {size : Buf → ℕ} :
    (∀ e ∈ (copy dst d src s n).accesses c, e.Inside size) ↔
      n = 0 ∨ d + n ≤ size dst ∧ s + n ≤ size src := by
  rcases Nat.eq_zero_or_pos n with rfl | hn
  · exact ⟨fun _ => .inl rfl, fun _ e he => by cases he⟩
  constructor
  · intro h
    have hread := h _ (mem_accesses_copy.mpr ⟨n - 1, by omega, .inl rfl⟩)
    have hwrite := h _ (mem_accesses_copy.mpr ⟨n - 1, by omega, .inr rfl⟩)
    have h1 := hread.2
    have h2 := hwrite.2
    omega
  · intro h e he
    obtain ⟨hdst, hsrc⟩ := h.resolve_left hn.ne'
    obtain ⟨i, hi, rfl | rfl⟩ := mem_accesses_copy.mp he
    · exact ⟨by omega, by omega⟩
    · exact ⟨by omega, by omega⟩

end Copy

end Buffers
