-- SUMMARY: Blocks that fill a stretch of memory: splitting, coalescing, and the blocks in use.
import Mathlib.Data.List.Chain
import Mathlib.Tactic.Linarith

/-!
# Blocks

An allocator divides its memory into blocks, one after the other, each in use or free. Every
block has room for a header and is a multiple of a unit. Free neighbours are put together; a
division without them is determined by where its used blocks lie.
-/

namespace Blocks

/-- A block: its length, header included, and whether it is in use. -/
@[ext]
structure Block (hdr unit : ℕ) where
  len : ℕ
  used : Bool
  room : hdr ≤ len
  aligned : unit ∣ len
  deriving DecidableEq

section Layout

variable {hdr unit : ℕ} {b c : Block hdr unit} {bs xs ys : List (Block hdr unit)} {p : ℕ}

namespace Block

def take (b : Block hdr unit) : Block hdr unit := { b with used := true }

def drop (b : Block hdr unit) : Block hdr unit := { b with used := false }

/-- The block and the next one as one. -/
def join (b c : Block hdr unit) : Block hdr unit :=
  { b with len := b.len + c.len
           room := b.room.trans (Nat.le_add_right _ _)
           aligned := Nat.dvd_add b.aligned c.aligned }

@[simp] theorem len_take : b.take.len = b.len := rfl
@[simp] theorem used_take : b.take.used = true := rfl
@[simp] theorem len_drop : b.drop.len = b.len := rfl
@[simp] theorem used_drop : b.drop.used = false := rfl
@[simp] theorem len_join : (b.join c).len = b.len + c.len := rfl
@[simp] theorem used_join : (b.join c).used = b.used := rfl

/-- The first `n` of a block as one of its own, and the rest as a free one. -/
def cut (b : Block hdr unit) (n : ℕ) (hn : hdr ≤ n ∧ unit ∣ n) (hb : n + hdr ≤ b.len) :
    Block hdr unit × Block hdr unit :=
  (⟨n, b.used, hn.1, hn.2⟩, ⟨b.len - n, false, by omega, Nat.dvd_sub b.aligned hn.2⟩)

end Block

/-- The length of the blocks together. -/
def total (bs : List (Block hdr unit)) : ℕ := (bs.map Block.len).sum

@[simp] theorem total_nil : total ([] : List (Block hdr unit)) = 0 := rfl
@[simp] theorem total_cons : total (b :: bs) = b.len + total bs := List.sum_cons
@[simp] theorem total_append : total (xs ++ ys) = total xs + total ys := by
  rw [total, List.map_append, List.sum_append, total, total]

theorem dvd_total : unit ∣ total bs := by
  induction bs with
  | nil => exact dvd_zero _
  | cons b bs ih => exact Nat.dvd_add b.aligned ih

/-! ## Where blocks lie -/

/-- Where the blocks in use lie, or the free ones, with their lengths; the first block starts
    at `p`. -/
def blocksAt (u : Bool) : ℕ → List (Block hdr unit) → List (ℕ × ℕ)
  | _, [] => []
  | p, b :: bs =>
    if b.used = u then (p, b.len) :: blocksAt u (p + b.len) bs else blocksAt u (p + b.len) bs

variable {u : Bool} {s l : ℕ}

@[simp] theorem blocksAt_nil : blocksAt u p ([] : List (Block hdr unit)) = [] := rfl

theorem blocksAt_cons_self (hb : b.used = u) :
    blocksAt u p (b :: bs) = (p, b.len) :: blocksAt u (p + b.len) bs := if_pos hb

theorem blocksAt_cons_ne (hb : b.used ≠ u) :
    blocksAt u p (b :: bs) = blocksAt u (p + b.len) bs := if_neg hb

theorem blocksAt_append :
    blocksAt u p (xs ++ ys) = blocksAt u p xs ++ blocksAt u (p + total xs) ys := by
  induction xs generalizing p with
  | nil => rfl
  | cons x xs ih =>
    rw [List.cons_append, total_cons, ← Nat.add_assoc]
    by_cases hx : x.used = u
    · rw [blocksAt_cons_self hx, blocksAt_cons_self hx, ih, List.cons_append]
    · rw [blocksAt_cons_ne hx, blocksAt_cons_ne hx, ih]

theorem mem_blocksAt_cons {x : ℕ × ℕ} : x ∈ blocksAt u p (b :: ys) ↔
    (b.used = u ∧ x = (p, b.len)) ∨ x ∈ blocksAt u (p + b.len) ys := by
  by_cases hb : b.used = u
  · rw [blocksAt_cons_self hb, List.mem_cons, and_iff_right hb]
  · rw [blocksAt_cons_ne hb, or_iff_right fun h => hb h.1]

/-- The blocks around one, and that one if it is of the kind. -/
theorem mem_blocksAt_around {x : ℕ × ℕ} : x ∈ blocksAt u p (xs ++ b :: ys) ↔
    x ∈ blocksAt u p xs ∨ (b.used = u ∧ x = (p + total xs, b.len)) ∨
      x ∈ blocksAt u (p + total xs + b.len) ys := by
  rw [blocksAt_append, List.mem_append]
  by_cases hb : b.used = u
  · rw [blocksAt_cons_self hb, List.mem_cons, and_iff_right hb]
  · rw [blocksAt_cons_ne hb, iff_false_intro (fun h => hb h.1 : ¬(b.used = u ∧ x = _)), false_or]

theorem exists_of_mem_blocksAt (h : (s, l) ∈ blocksAt u p bs) : ∃ xs b ys,
    bs = xs ++ b :: ys ∧ b.used = u ∧ s = p + total xs ∧ l = b.len := by
  induction bs generalizing p with
  | nil => cases h
  | cons b bs ih =>
    rw [← List.nil_append (b :: bs), mem_blocksAt_around] at h
    rcases h with h | ⟨hb, heq⟩ | h
    · cases h
    · cases heq
      exact ⟨[], b, bs, rfl, hb, rfl, rfl⟩
    · obtain ⟨xs, c, ys, rfl, hc, hs, hl⟩ := ih h
      exact ⟨b :: xs, c, ys, rfl, hc, by rw [hs, total_cons, total_nil]; omega, hl⟩

/-- A block lies among all of them. -/
theorem mem_blocksAt_bounds (h : (s, l) ∈ blocksAt u p bs) :
    p ≤ s ∧ hdr ≤ l ∧ s + l ≤ p + total bs ∧ unit ∣ s - p := by
  obtain ⟨xs, b, ys, rfl, -, rfl, rfl⟩ := exists_of_mem_blocksAt h
  rw [total_append, total_cons, Nat.add_sub_cancel_left]
  exact ⟨Nat.le_add_right _ _, b.room, by omega, dvd_total⟩

/-- The blocks around one are those that start elsewhere. -/
theorem mem_blocksAt_ne (hhdr : 0 < hdr) :
    (s, l) ∈ blocksAt u 0 xs ∨ (s, l) ∈ blocksAt u (total xs + b.len) ys ↔
      (s, l) ∈ blocksAt u 0 (xs ++ b :: ys) ∧ s ≠ total xs := by
  have hroom := b.room
  rw [mem_blocksAt_around, Nat.zero_add]
  constructor
  · rintro (h | h)
    · have hb := mem_blocksAt_bounds h
      exact ⟨.inl h, by omega⟩
    · have hb := mem_blocksAt_bounds h
      exact ⟨.inr (.inr h), by omega⟩
  · rintro ⟨h | ⟨-, h⟩ | h, hne⟩
    · exact .inl h
    · exact absurd (Prod.mk.inj h).1 hne
    · exact .inr h

/-- Blocks follow one another. -/
theorem le_of_mem_blocksAt {s' l' : ℕ} (h : (s, l) ∈ blocksAt u p bs)
    (h' : (s', l') ∈ blocksAt u p bs)
    (hlt : s < s') : s + l ≤ s' := by
  obtain ⟨xs, b, ys, rfl, -, rfl, rfl⟩ := exists_of_mem_blocksAt h
  rcases mem_blocksAt_around.mp h' with h1 | ⟨-, h1⟩ | h1
  · have hb := mem_blocksAt_bounds h1
    omega
  · cases h1
    omega
  · exact (mem_blocksAt_bounds h1).1

theorem len_unique {l' : ℕ} (hhdr : 0 < hdr) (h : (s, l) ∈ blocksAt u p bs)
    (h' : (s, l') ∈ blocksAt u p bs) : l = l' := by
  obtain ⟨xs, b, ys, rfl, -, rfl, rfl⟩ := exists_of_mem_blocksAt h
  have hroom := b.room
  rcases mem_blocksAt_around.mp h' with h1 | ⟨-, h1⟩ | h1
  · have hb := mem_blocksAt_bounds h1
    omega
  · exact (Prod.mk.inj h1).2.symm
  · have hb := mem_blocksAt_bounds h1
    omega

theorem pairwise_blocksAt (hhdr : 0 < hdr) : (blocksAt u p bs).Pairwise fun x y => x.1 < y.1 := by
  induction bs generalizing p with
  | nil => exact List.Pairwise.nil
  | cons b bs ih =>
    have hroom := b.room
    by_cases hb : b.used = u
    · rw [blocksAt_cons_self hb]
      refine List.pairwise_cons.mpr ⟨fun y hy => ?_, ih⟩
      have hlo := (mem_blocksAt_bounds hy).1
      show p < y.1
      omega
    · rw [blocksAt_cons_ne hb]
      exact ih

/-- The blocks of a kind are determined as a set. -/
theorem blocksAt_ext (hhdr : 0 < hdr)
    (h : ∀ s l, (s, l) ∈ blocksAt u p xs ↔ (s, l) ∈ blocksAt u p ys) :
    blocksAt u p xs = blocksAt u p ys := by
  have hnodup : ∀ bs : List (Block hdr unit), (blocksAt u p bs).Nodup := fun bs =>
    (pairwise_blocksAt hhdr).imp fun hlt heq => (heq ▸ hlt).ne rfl
  have hperm := (List.perm_ext_iff_of_nodup (hnodup xs) (hnodup ys)).mpr fun x => h x.1 x.2
  exact hperm.eq_of_pairwise (fun a b _ _ h1 h2 => absurd (h1.trans h2) (lt_irrefl _))
    (pairwise_blocksAt hhdr) (pairwise_blocksAt hhdr)

theorem blocksAt_cons_free (hb : b.used = false) :
    blocksAt true p (b :: bs) = blocksAt true (p + b.len) bs :=
  blocksAt_cons_ne (by rw [hb]; exact Bool.false_ne_true)

/-- The memory the used blocks take. -/
def inUse (bs : List (Block hdr unit)) : ℕ := ((blocksAt true 0 bs).map Prod.snd).sum

theorem sum_blocksAt (q : ℕ) : ((blocksAt true q bs).map Prod.snd).sum = inUse bs := by
  have hshift : ∀ p q, ((blocksAt true p bs).map Prod.snd).sum =
      ((blocksAt true q bs).map Prod.snd).sum := by
    induction bs with
    | nil => intro p q; rfl
    | cons b bs ih =>
      intro p q
      cases hb : b.used with
      | true =>
        rw [blocksAt_cons_self hb, blocksAt_cons_self hb, List.map_cons, List.map_cons,
          List.sum_cons,
          List.sum_cons, ih]
      | false =>
        rw [blocksAt_cons_free hb, blocksAt_cons_free hb, ih]
  exact hshift q 0

theorem inUse_append : inUse (xs ++ ys) = inUse xs + inUse ys := by
  rw [inUse, blocksAt_append, List.map_append, List.sum_append, sum_blocksAt, sum_blocksAt]

theorem inUse_cons : inUse (b :: bs) = (if b.used then b.len else 0) + inUse bs := by
  cases hb : b.used with
  | true =>
    rw [inUse, blocksAt_cons_self hb, List.map_cons, List.sum_cons, sum_blocksAt, if_pos rfl]
  | false =>
    rw [inUse, blocksAt_cons_free hb, sum_blocksAt, if_neg Bool.false_ne_true, Nat.zero_add]

@[simp] theorem inUse_nil : inUse ([] : List (Block hdr unit)) = 0 := rfl

theorem inUse_le_total : inUse bs ≤ total bs := by
  induction bs with
  | nil => exact le_rfl
  | cons b bs ih =>
    rw [inUse_cons, total_cons]
    split <;> omega

/-! ## Coalescing -/

/-- A free block and what follows it, the next block taken in if it is free. -/
def absorb (b : Block hdr unit) : List (Block hdr unit) → List (Block hdr unit)
  | [] => [b]
  | c :: cs => if c.used then b :: c :: cs else b.join c :: cs

/-- All free neighbours put together. -/
def mergeFree : List (Block hdr unit) → List (Block hdr unit)
  | [] => []
  | b :: bs => if b.used then b :: mergeFree bs else absorb b (mergeFree bs)

/-- There are no free neighbours. -/
def Coalesced (bs : List (Block hdr unit)) : Prop :=
  bs.IsChain fun b c => b.used = true ∨ c.used = true

theorem absorb_of_used (hb : ∀ c ∈ bs.head?, c.used = true) : absorb b bs = b :: bs := by
  cases bs with
  | nil => rfl
  | cons c cs => exact if_pos (hb c rfl)

theorem exists_absorb_eq (b : Block hdr unit) (bs : List (Block hdr unit)) :
    ∃ c cs, absorb b bs = c :: cs ∧ c.used = b.used := by
  cases bs with
  | nil => exact ⟨b, [], rfl, rfl⟩
  | cons c cs =>
    rw [absorb]
    split
    · exact ⟨b, c :: cs, rfl, rfl⟩
    · exact ⟨b.join c, cs, rfl, rfl⟩

theorem blocksAt_absorb (hb : b.used = false) :
    blocksAt true p (absorb b bs) = blocksAt true (p + b.len) bs := by
  cases bs with
  | nil => exact blocksAt_cons_free hb
  | cons c cs =>
    rw [absorb]
    split
    case isTrue hc => exact blocksAt_cons_free hb
    case isFalse hc =>
      rw [blocksAt_cons_free (by rwa [Block.used_join]),
        blocksAt_cons_free (Bool.eq_false_iff.mpr hc), Block.len_join, Nat.add_assoc]

/-- The free blocks are where they were, but for one that is taken in. -/
theorem mem_absorb_iff (hhdr : 0 < hdr) (hb : b.used = false) :
    (∃ l, (s, l) ∈ blocksAt false p (absorb b bs)) ↔
      s = p ∨ p + b.len < s ∧ ∃ l, (s, l) ∈ blocksAt false (p + b.len) bs := by
  cases bs with
  | nil => simp [absorb, blocksAt_cons_self hb]
  | cons c cs =>
    have hroom := c.room
    have hrest : ∀ l, (s, l) ∈ blocksAt false (p + b.len + c.len) cs → p + b.len < s := by
      intro l h
      have hlo := (mem_blocksAt_bounds h).1
      omega
    rw [absorb]
    split
    case isTrue hc =>
      rw [blocksAt_cons_self hb, blocksAt_cons_ne (by rw [hc]; decide)]
      simp only [List.mem_cons, Prod.mk.injEq, exists_or, exists_and_left, exists_eq, and_true]
      exact or_congr_right ⟨fun ⟨l, h⟩ => ⟨hrest l h, l, h⟩, fun h => h.2⟩
    case isFalse hc =>
      have hc := Bool.eq_false_iff.mpr hc
      rw [blocksAt_cons_self (by rwa [Block.used_join]), blocksAt_cons_self hc, Block.len_join,
        ← Nat.add_assoc]
      simp only [List.mem_cons, Prod.mk.injEq, exists_or, exists_and_left, exists_eq, and_true]
      refine or_congr_right ⟨fun ⟨l, h⟩ => ⟨hrest l h, .inr ⟨l, h⟩⟩, fun h => h.2.resolve_left ?_⟩
      exact h.1.ne'

/-- Coalescing keeps the used blocks. -/
theorem blocksAt_mergeFree : blocksAt true p (mergeFree bs) = blocksAt true p bs := by
  induction bs generalizing p with
  | nil => rfl
  | cons b bs ih =>
    rw [mergeFree]
    split
    case isTrue hb => rw [blocksAt_cons_self hb, blocksAt_cons_self hb, ih]
    case isFalse hb =>
      have hb := Bool.eq_false_iff.mpr hb
      rw [blocksAt_absorb hb, blocksAt_cons_free hb, ih]

theorem inUse_mergeFree : inUse (mergeFree bs) = inUse bs := by
  rw [inUse, blocksAt_mergeFree, inUse]

theorem Coalesced.tail (h : Coalesced (b :: bs)) : Coalesced bs := List.IsChain.tail h

theorem Coalesced.left (h : Coalesced (xs ++ ys)) : Coalesced xs := List.IsChain.left_of_append h

theorem Coalesced.right (h : Coalesced (xs ++ ys)) : Coalesced ys := List.IsChain.right_of_append h

theorem Coalesced.head_used (h : Coalesced (b :: bs)) (hb : b.used = false) :
    ∀ c ∈ bs.head?, c.used = true := by
  intro c hc
  cases bs with
  | nil => cases hc
  | cons d ds =>
    cases hc
    refine (List.isChain_cons_cons.mp h).1.resolve_left ?_
    rw [hb]
    exact Bool.false_ne_true

theorem Coalesced.cons (h : Coalesced bs) (hb : b.used = true ∨ ∀ c ∈ bs.head?, c.used = true) :
    Coalesced (b :: bs) := by
  cases bs with
  | nil => exact List.isChain_singleton b
  | cons c cs => exact List.isChain_cons_cons.mpr ⟨hb.imp_right fun hc => hc c rfl, h⟩

theorem coalesced_absorb (h : Coalesced bs) : Coalesced (absorb b bs) := by
  cases bs with
  | nil => exact List.isChain_singleton b
  | cons c cs =>
    rw [absorb]
    split
    case isTrue hc => exact h.cons (.inr fun d hd => by cases hd; exact hc)
    case isFalse hc => exact h.tail.cons (.inr (h.head_used (Bool.eq_false_iff.mpr hc)))

theorem coalesced_mergeFree (bs : List (Block hdr unit)) : Coalesced (mergeFree bs) := by
  induction bs with
  | nil => exact List.isChain_nil
  | cons b bs ih =>
    rw [mergeFree]
    split
    case isTrue hb => exact ih.cons (.inl hb)
    case isFalse => exact coalesced_absorb ih

theorem mergeFree_of_coalesced (h : Coalesced bs) : mergeFree bs = bs := by
  induction bs with
  | nil => rfl
  | cons b bs ih =>
    rw [mergeFree, ih h.tail]
    split
    case isTrue hb => rfl
    case isFalse hb => exact absorb_of_used (h.head_used (Bool.eq_false_iff.mpr hb))

/-- What follows a used block is coalesced apart from what comes before it. -/
theorem mergeFree_append (h : Coalesced xs) (hlast : ∀ a ∈ xs.getLast?, a.used = true) :
    mergeFree (xs ++ ys) = xs ++ mergeFree ys := by
  induction xs with
  | nil => rfl
  | cons x xs ih =>
    cases xs with
    | nil =>
      have hx : x.used = true := hlast x rfl
      rw [List.cons_append, List.nil_append, mergeFree, if_pos hx, List.cons_append,
        List.nil_append]
    | cons y xs =>
      rw [List.cons_append, mergeFree,
        ih h.tail fun a ha => hlast a (by rwa [List.getLast?_cons_cons]),
        List.cons_append]
      split
      case isTrue hx => rfl
      case isFalse hx =>
        rw [List.cons_append]
        exact absorb_of_used fun c hc => h.head_used (Bool.eq_false_iff.mpr hx) c hc

/-- A free block before the place is taken in with what follows. -/
theorem mergeFree_append_free (h : Coalesced (xs ++ [b])) (hb : b.used = false) :
    mergeFree (xs ++ b :: ys) = xs ++ absorb b (mergeFree ys) := by
  have hxs : Coalesced xs := h.left
  have hlast : ∀ a ∈ xs.getLast?, a.used = true := by
    intro a ha
    refine ((List.isChain_append.mp h).2.2 a ha b rfl).resolve_right ?_
    rw [hb]
    exact Bool.false_ne_true
  rw [mergeFree_append hxs hlast, mergeFree, if_neg (Bool.eq_false_iff.mp hb)]

/-- Where nothing is in use, all is one free block. -/
theorem eq_singleton_of_unused (h : Coalesced bs) (hu : blocksAt true p bs = []) (hne : bs ≠ []) :
    ∃ b, bs = [b] ∧ b.used = false := by
  have hfree : ∀ {xs ys : List (Block hdr unit)} {b : Block hdr unit} {p : ℕ},
      blocksAt true p (xs ++ b :: ys) = [] → b.used = false := by
    intro xs ys b p hnil
    by_contra hb
    have hmem : (p + total xs, b.len) ∈ blocksAt true p (xs ++ b :: ys) :=
      mem_blocksAt_around.mpr (.inr (.inl ⟨Bool.not_eq_false b.used ▸ hb, rfl⟩))
    rw [hnil] at hmem
    cases hmem
  cases bs with
  | nil => exact absurd rfl hne
  | cons b bs =>
    have hb : b.used = false := hfree (show blocksAt true p ([] ++ b :: bs) = [] from hu)
    cases bs with
    | nil => exact ⟨b, rfl, hb⟩
    | cons c cs =>
      have hc : c.used = false := hfree (show blocksAt true p ([b] ++ c :: cs) = [] from hu)
      rw [h.head_used hb c rfl] at hc
      cases hc

/-- Without free neighbours, the blocks are determined by those in use. -/
theorem eq_of_blocksAt_eq (hhdr : 0 < hdr) (hx : Coalesced xs) (hy : Coalesced ys)
    (ht : total xs = total ys) (hu : blocksAt true p xs = blocksAt true p ys) : xs = ys := by
  induction xs generalizing p ys with
  | nil =>
    cases ys with
    | nil => rfl
    | cons y ys =>
      have hroom := y.room
      rw [total_nil, total_cons] at ht
      omega
  | cons x xs ih =>
    cases ys with
    | nil =>
      have hroom := x.room
      rw [total_nil, total_cons] at ht
      omega
    | cons y ys =>
      have hrx := x.room
      have hry := y.room
      rw [total_cons, total_cons] at ht
      -- It is enough that the first blocks agree.
      have hfirst : x.len = y.len → x.used = y.used → x :: xs = y :: ys := by
        intro hlen hused
        have hrest : blocksAt true (p + x.len) xs = blocksAt true (p + x.len) ys := by
          cases hc : x.used with
          | true =>
            rw [blocksAt_cons_self hc, blocksAt_cons_self (hused ▸ hc), ← hlen] at hu
            exact (List.cons.inj hu).2
          | false =>
            rw [blocksAt_cons_free hc, blocksAt_cons_free (hused ▸ hc), ← hlen] at hu
            exact hu
        rw [ih hx.tail hy.tail (by omega) hrest, Block.ext hlen hused]
      cases hcx : x.used with
      | true =>
        cases hcy : y.used with
        | true =>
          rw [blocksAt_cons_self hcx, blocksAt_cons_self hcy] at hu
          exact hfirst (Prod.mk.inj (List.cons.inj hu).1).2 (hcx.trans hcy.symm)
        | false =>
          rw [blocksAt_cons_self hcx, blocksAt_cons_free hcy] at hu
          have hmem : (p, x.len) ∈ blocksAt true (p + y.len) ys := hu ▸ List.mem_cons_self
          have hb := (mem_blocksAt_bounds hmem).1
          omega
      | false =>
        cases hcy : y.used with
        | true =>
          rw [blocksAt_cons_free hcx, blocksAt_cons_self hcy] at hu
          have hmem : (p, y.len) ∈ blocksAt true (p + x.len) xs := hu ▸ List.mem_cons_self
          have hb := (mem_blocksAt_bounds hmem).1
          omega
        | false =>
          rw [blocksAt_cons_free hcx, blocksAt_cons_free hcy] at hu
          refine hfirst ?_ (hcx.trans hcy.symm)
          -- A free block ends where the next used one starts, or at the end of all.
          cases xs with
          | nil =>
            cases ys with
            | nil => simpa using ht
            | cons d ds =>
              rw [blocksAt_nil, blocksAt_cons_self (hy.head_used hcy d rfl)] at hu
              cases hu
          | cons c cs =>
            rw [blocksAt_cons_self (hx.head_used hcx c rfl)] at hu
            cases ys with
            | nil => cases hu
            | cons d ds =>
              rw [blocksAt_cons_self (hy.head_used hcy d rfl)] at hu
              have hstart := (Prod.mk.inj (List.cons.inj hu).1).1
              omega

end Layout

end Blocks
