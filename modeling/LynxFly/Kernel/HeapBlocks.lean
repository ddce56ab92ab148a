-- SUMMARY: What the functions of the heap do to the blocks it is divided into.
import LynxFly.Kernel.Heap

/-!
# mem.c, on blocks

The headers of the heap make up a list of blocks without free neighbours. On it `rt_malloc`
takes the first free block that is large enough, `rt_free` gives one back and plugs the holes,
and `rt_realloc` cuts one.
-/

namespace Kernel

open Bytes Blocks

namespace Heap

/-! ## The functions, on blocks -/

/-- The heap is divided into these blocks, and the variables of the allocator go with them. -/
structure Layout (h : Heap) (bs : List HeapBlock) : Prop extends Chain h bs where
  coalesced : Coalesced bs
  starts : StartsFree h bs
  inside : ∀ s l, (s, l) ∈ blocksAt true 0 bs → s + SIZEOF_STRUCT_MEM < h.heap_end
  used_mem : h.used_mem = inUse bs
  max_mem : h.used_mem ≤ h.max_mem
  room : MIN_SIZE_ALIGNED ≤ h.mem_size_aligned

section Free

variable {h : Heap} {b : HeapBlock} {xs ys : List HeapBlock}

theorem inUse_around : inUse (xs ++ b :: ys) =
    inUse xs + (if b.used then b.len else 0) + inUse ys := by
  rw [inUse_append, inUse_cons, Nat.add_assoc]

/-- A block of length `n` marked free, before holes are plugged. -/
def unmark (h : Heap) (mem n : ℕ) : Heap :=
  { (h.put heap_mem.usedField mem 0).put heap_mem.magicField mem HEAP_MAGIC with
    lfree := if mem < h.lfree then mem else h.lfree
    used_mem := usub h.used_mem n }

theorem mem_unmark {p n : ℕ} :
    (h.unmark p n).mem p = { h.mem p with used := 0, magic := HEAP_MAGIC } := by
  have hmagic : HEAP_MAGIC < 2 ^ 16 := by decide
  refine (mem_put_magic (h := h.put heap_mem.usedField p 0) hmagic).trans ?_
  rw [mem_put_used (by decide)]

theorem mem_unmark_of_apart {p n r : ℕ}
    (hr : r + SIZEOF_STRUCT_MEM ≤ p ∨ p + SIZEOF_STRUCT_MEM ≤ r) :
    (h.unmark p n).mem r = h.mem r := by
  refine (mem_put_of_apart (h := h.put heap_mem.usedField p 0) (f := heap_mem.magicField)
    (v := HEAP_MAGIC) (by decide) hr).trans ?_
  exact mem_put_of_apart (by decide) hr

/-- `rt_free`, of a used block. -/
theorem rt_free_spec (hl : Layout h (xs ++ b :: ys)) (hb : b.used = true) :
    ∃ h', h.rt_free (some (Blocks.total xs + SIZEOF_STRUCT_MEM)) = some h' ∧
      Layout h' (mergeFree (xs ++ b.drop :: ys)) ∧ SameData h h' (xs ++ b.drop :: ys) ∧
      (Lowest h (xs ++ b :: ys) → Lowest h' (mergeFree (xs ++ b.drop :: ys))) ∧
      h'.mem_size_aligned = h.mem_size_aligned ∧ h'.max_mem = h.max_mem ∧
      h'.lfree ≤ Blocks.total xs := by
  obtain ⟨q, hh⟩ := hl.header
  have hend := hl.bounds.2
  have hroom := b.room
  have hsize : SIZEOF_STRUCT_MEM = 16 := rfl
  have hsmall := hl.small
  have hmagic : HEAP_MAGIC < 2 ^ 16 := by decide
  have hdvd : 4 ∣ Blocks.total xs := dvd_total
  have hin := hl.inside _ _ (mem_blocksAt_around.mpr (.inr (.inl ⟨hb, rfl⟩)))
  rw [Nat.zero_add] at hin
  have hpred : usub (Blocks.total xs + SIZEOF_STRUCT_MEM) SIZEOF_STRUCT_MEM = Blocks.total xs := by
    rw [usub_of_le (by omega) (by omega), Nat.add_sub_cancel]
  have hlen : usub (h.mem (Blocks.total xs)).next (Blocks.total xs) = b.len := by
    rw [hh.next, usub_of_le (by omega) (by omega), Nat.add_sub_cancel_left]
  have huse := hl.used_mem
  rw [inUse_around, if_pos hb] at huse
  have hle : inUse (xs ++ b :: ys) ≤ Blocks.total (xs ++ b :: ys) := inUse_le_total
  rw [hl.total, inUse_around, if_pos hb] at hle
  have hchain : Chain (h.unmark (Blocks.total xs) b.len) (xs ++ b.drop :: ys) := by
    refine hl.toChain.mark rfl rfl (fun q hq => ⟨?_, ?_, ?_, ?_⟩) fun r hr => mem_unmark_of_apart hr
    all_goals rw [mem_unmark]
    · rfl
    · exact hq.next
    · exact hq.prev
  obtain ⟨h', hrun, hp⟩ := plug_holes_spec hchain rfl hl.coalesced.left hl.coalesced.right.tail
  have hlfree : (h.unmark (Blocks.total xs) b.len).lfree =
      if Blocks.total xs < h.lfree then Blocks.total xs else h.lfree := rfl
  have hused : (h.unmark (Blocks.total xs) b.len).used_mem = inUse xs + inUse ys := by
    show usub h.used_mem b.len = _
    rw [usub_of_le (by omega) (by omega)]
    omega
  have hfree : ∀ x, x ∈ blocksAt false 0 (xs ++ b.drop :: ys) ↔
      x = (Blocks.total xs, b.len) ∨ x ∈ blocksAt false 0 (xs ++ b :: ys) := by
    intro x
    rw [mem_blocksAt_around, mem_blocksAt_around, and_iff_right Block.used_drop, Nat.zero_add,
      Block.len_drop, iff_false_intro (fun h1 => (by rw [hb] at h1; cases h1.1) :
        ¬(b.used = false ∧ x = (Blocks.total xs, b.len))), false_or, or_left_comm]
  have hstarts : StartsFree (h.unmark (Blocks.total xs) b.len) (xs ++ b.drop :: ys) := by
    rw [StartsFree, hlfree]
    split
    · exact .inr ⟨_, (hfree _).mpr (.inl rfl)⟩
    · exact hl.starts.imp id (Exists.imp fun l h1 => (hfree _).mpr (.inr h1))
  have hlow : Lowest h (xs ++ b :: ys) →
      Lowest (h.unmark (Blocks.total xs) b.len) (xs ++ b.drop :: ys) := by
    intro hlow s l hsl
    rw [hlfree]
    rcases (hfree _).mp hsl with h1 | h1
    · have h1 := (Prod.mk.inj h1).1
      split <;> omega
    · have h1 := hlow _ _ h1
      split <;> omega
  have hinUse : inUse (mergeFree (xs ++ b.drop :: ys)) = inUse xs + inUse ys := by
    rw [inUse_mergeFree, inUse_around, Block.used_drop, if_neg Bool.false_ne_true, Nat.add_zero]
  have hend' : h'.heap_end = h.heap_end := by
    rw [heap_end, hp.size]
    rfl
  refine ⟨h', ?_, ⟨hp.chain, coalesced_mergeFree _, hp.lfree hstarts, ?_, ?_, ?_, ?_⟩, ?_,
    fun h1 => hp.lowest hstarts (hlow h1), hp.size, hp.max_mem, ?_⟩
  · have ha : (Blocks.total xs + SIZEOF_STRUCT_MEM) % 4 = 0 := by omega
    have hmused : (h.mem (Blocks.total xs)).used ≠ 0 := by
      rw [hh.used, hb]
      exact Nat.one_ne_zero
    have hin2 : Blocks.total xs ≤ h.heap_end := by omega
    simp only [rt_free, rt_assert_of ha, rt_assert_of hin, hpred, header_eq hin2,
      rt_assert_of hmused, rt_assert_of hh.magic, write_eq hin2, Option.bind_eq_bind,
      Option.bind_some, hlen]
    rw [write_eq (by exact hin2), Option.bind_some]
    exact hrun
  · rw [hp.used, hend']
    intro s l hsl
    refine hl.inside s l ?_
    rw [mem_blocksAt_around] at hsl ⊢
    exact hsl.imp id (.imp (fun h1 => absurd h1.1 Bool.false_ne_true) id)
  · rw [hp.used_mem, hused, hinUse]
  · have hmax := hl.max_mem
    rw [hp.used_mem, hp.max_mem, hused]
    show _ ≤ h.max_mem
    omega
  · rw [hp.size]
    exact hl.room
  · have hmark : SameData h (h.unmark (Blocks.total xs) b.len) (xs ++ b.drop :: ys) :=
      (sameData_put (f := heap_mem.usedField) (by decide) rfl rfl).trans
        (sameData_put (f := heap_mem.magicField) (by decide) rfl rfl)
    exact hmark.trans hp.data
  · have hle := hp.le
    rw [hlfree] at hle
    split at hle <;> omega

end Free

/-! ## Allocation, on blocks -/

section Search

variable {h : Heap} {bs : List HeapBlock} {n p q q' fuel : ℕ}

/-- The search finds the first free block that is large enough, short of the last place one
    could start at. -/
theorem search_spec (hs : Seg h q p bs q') (hend : p + Blocks.total bs = h.heap_end)
    (hsmall : h.heap_end < 2 ^ 32) (hn : n ≤ h.mem_size_aligned) (hfuel : bs.length < fuel) :
    (h.search n fuel p = some none ∧ ∀ s l, (s, l) ∈ blocksAt false p bs →
        n + SIZEOF_STRUCT_MEM ≤ l → h.mem_size_aligned - n ≤ s) ∨
      ∃ us b vs, bs = us ++ b :: vs ∧ h.search n fuel p = some (some (p + Blocks.total us)) ∧
        b.used = false ∧ n + SIZEOF_STRUCT_MEM ≤ b.len ∧
        p + Blocks.total us < h.mem_size_aligned - n ∧
        ∀ s l, (s, l) ∈ blocksAt false p us → l < n + SIZEOF_STRUCT_MEM := by
  have hstop : h.heap_end = h.mem_size_aligned + SIZEOF_STRUCT_MEM := rfl
  have hbound : usub h.mem_size_aligned n = h.mem_size_aligned - n := usub_of_le hn (by omega)
  induction bs generalizing p q fuel with
  | nil =>
    obtain ⟨fuel, rfl⟩ := Nat.exists_eq_succ_of_ne_zero (by omega : fuel ≠ 0)
    rw [total_nil] at hend
    refine .inl ⟨?_, fun s l hsl => by cases hsl⟩
    rw [search, hbound, if_neg (by omega)]
  | cons b bs ih =>
    obtain ⟨fuel, rfl⟩ := Nat.exists_eq_succ_of_ne_zero (by omega : fuel ≠ 0)
    have hroom := b.room
    have hsize : SIZEOF_STRUCT_MEM = 16 := rfl
    rw [total_cons] at hend
    rw [List.length_cons] at hfuel
    rw [search, hbound]
    by_cases hp : p < h.mem_size_aligned - n
    · have hdata : usub (h.mem p).next (uadd p SIZEOF_STRUCT_MEM) = b.len - SIZEOF_STRUCT_MEM := by
        rw [hs.1.next, uadd_of_lt (by omega), usub_of_le (by omega) (by omega)]
        omega
      rw [if_pos hp, header_eq (by omega), Option.bind_eq_bind, Option.bind_some, hdata]
      by_cases hfit : (h.mem p).used = 0 ∧ n ≤ b.len - SIZEOF_STRUCT_MEM
      · have hfree : b.used = false := by
          have hused := hs.1.used
          rw [hfit.1] at hused
          exact Bool.toNat_eq_zero.mp hused.symm
        refine .inr ⟨[], b, bs, rfl, ?_, hfree, by omega, by simpa using hp,
          fun s l hsl => by cases hsl⟩
        rw [if_pos hfit]
        rfl
      · have hsmaller : b.used = false → b.len < n + SIZEOF_STRUCT_MEM := by
          intro hfree
          rw [hs.1.used, hfree] at hfit
          have hfit := not_and.mp hfit rfl
          omega
        rw [if_neg hfit, hs.1.next]
        rcases ih hs.2 (by omega) (Nat.lt_of_succ_lt_succ hfuel) with
          ⟨hrun, hnone⟩ | ⟨us, c, vs, rfl, hrun, hc⟩
        · refine .inl ⟨hrun, fun s l hsl hl => ?_⟩
          rcases mem_blocksAt_cons.mp hsl with ⟨hfree, hsl⟩ | hsl
          · cases hsl
            have hsmaller := hsmaller hfree
            omega
          · exact hnone s l hsl hl
        · refine .inr ⟨b :: us, c, vs, rfl, ?_, hc.1, hc.2.1, ?_, fun s l hsl => ?_⟩
          · rw [hrun, total_cons, Nat.add_assoc]
          · rw [total_cons, ← Nat.add_assoc]
            exact hc.2.2.1
          · rcases mem_blocksAt_cons.mp hsl with ⟨hfree, hsl⟩ | hsl
            · cases hsl
              exact hsmaller hfree
            · exact hc.2.2.2 s l hsl
    · rw [if_neg hp]
      refine .inl ⟨rfl, fun s l hsl _ => ?_⟩
      have hlo := (mem_blocksAt_bounds hsl).1
      omega

/-- `lfree` moves to the next free block, or to the end. -/
theorem advance_spec (hs : Seg h q p bs q') (hend : p + Blocks.total bs = h.heap_end)
    (hfuel : bs.length < fuel) :
    ∃ l, h.advance fuel p = some l ∧ (l = h.heap_end ∨ ∃ n, (l, n) ∈ blocksAt false p bs) ∧
      ∀ s n, (s, n) ∈ blocksAt false p bs → l ≤ s := by
  induction bs generalizing p q fuel with
  | nil =>
    obtain ⟨fuel, rfl⟩ := Nat.exists_eq_succ_of_ne_zero (by omega : fuel ≠ 0)
    rw [total_nil, Nat.add_zero] at hend
    refine ⟨p, ?_, .inl hend, fun s n hsn => by cases hsn⟩
    rw [advance, header_eq hend.le, Option.bind_eq_bind, Option.bind_some,
      if_neg fun hn => hn.2 hend]
  | cons b bs ih =>
    obtain ⟨fuel, rfl⟩ := Nat.exists_eq_succ_of_ne_zero (by omega : fuel ≠ 0)
    have hroom := b.room
    have hsize : SIZEOF_STRUCT_MEM = 16 := rfl
    rw [total_cons] at hend
    rw [List.length_cons] at hfuel
    rw [advance, header_eq (by omega), Option.bind_eq_bind, Option.bind_some, hs.1.used]
    cases hb : b.used with
    | true =>
      obtain ⟨l, hrun, hl, hmin⟩ := ih hs.2 (by omega) (Nat.lt_of_succ_lt_succ hfuel)
      rw [blocksAt_cons_ne (u := false) (by rw [hb]; decide)]
      refine ⟨l, ?_, hl, hmin⟩
      rw [if_pos ⟨Nat.one_ne_zero, by omega⟩, hs.1.next, hrun]
    | false =>
      rw [if_neg fun hn => hn.1 rfl]
      refine ⟨p, rfl, .inr ⟨b.len, ?_⟩, fun s n hsn => (mem_blocksAt_bounds hsn).1⟩
      rw [blocksAt_cons_self hb]
      exact List.mem_cons_self

end Search

/-- What becomes of a free block that is taken for `n` bytes. -/
def carve (b : HeapBlock) (n : ℕ) (hn : 4 ∣ n) : List HeapBlock :=
  if hb : n + SIZEOF_STRUCT_MEM + MIN_SIZE_ALIGNED + SIZEOF_STRUCT_MEM ≤ b.len then
    [(b.take.cut (n + SIZEOF_STRUCT_MEM) ⟨Nat.le_add_left _ _, Nat.dvd_add hn (by decide)⟩
        (by rw [Block.len_take]; omega)).1,
      (b.take.cut (n + SIZEOF_STRUCT_MEM) ⟨Nat.le_add_left _ _, Nat.dvd_add hn (by decide)⟩
        (by rw [Block.len_take]; omega)).2]
  else
    [b.take]

section Occupy

variable {h : Heap} {b : HeapBlock} {xs ys : List HeapBlock} {n : ℕ}

theorem exists_carve_eq (b : HeapBlock) (n : ℕ) (hn : 4 ∣ n) (hb : n + SIZEOF_STRUCT_MEM ≤ b.len) :
    ∃ c cs, carve b n hn = c :: cs ∧ c.used = true ∧ n + SIZEOF_STRUCT_MEM ≤ c.len ∧
      ∀ d ∈ cs, d.used = false := by
  unfold carve
  split
  · exact ⟨_, _, rfl, rfl, le_rfl, by simp [Block.cut]⟩
  · exact ⟨_, _, rfl, rfl, hb, by simp⟩

theorem total_carve (hn : 4 ∣ n) : Blocks.total (carve b n hn) = b.len := by
  unfold carve
  split
  case isTrue hb =>
    simp only [Block.cut, total_cons, total_nil, Block.len_take]
    omega
  case isFalse =>
    simp

@[simp] theorem mem_count {k p : ℕ} : (h.count k).mem p = h.mem p := rfl

/-- A free block is taken. -/
theorem occupy_spec (th : ℕ) (hc : Chain h (xs ++ b :: ys)) (hb : b.used = false) (hn : 4 ∣ n)
    (hfit : n + SIZEOF_STRUCT_MEM ≤ b.len) :
    ∃ h', h.occupy th n (Blocks.total xs) = some h' ∧ Chain h' (xs ++ (carve b n hn ++ ys)) ∧
      SameData h h' (xs ++ b :: ys) ∧ h'.mem_size_aligned = h.mem_size_aligned ∧
      h'.lfree = h.lfree ∧ h'.used_mem = (h.count (inUse (carve b n hn))).used_mem ∧
      h'.max_mem = (h.count (inUse (carve b n hn))).max_mem := by
  obtain ⟨q, hh⟩ := hc.header
  have hend := hc.bounds.2
  have hsmall := hc.small
  have hsize : SIZEOF_STRUCT_MEM = 16 := rfl
  have hmin : MIN_SIZE_ALIGNED = 12 := rfl
  have hmagic : HEAP_MAGIC < 2 ^ 16 := by decide
  have hin : Blocks.total xs ≤ h.heap_end := by omega
  have hdata : usub (h.mem (Blocks.total xs)).next (uadd (Blocks.total xs) SIZEOF_STRUCT_MEM) =
      b.len - SIZEOF_STRUCT_MEM := by
    rw [hh.next, uadd_of_lt (by omega), usub_of_le (by omega) (by omega)]
    omega
  have hneed : uadd (uadd n SIZEOF_STRUCT_MEM) MIN_SIZE_ALIGNED =
      n + SIZEOF_STRUCT_MEM + MIN_SIZE_ALIGNED := by
    rw [uadd_of_lt (by omega : n + SIZEOF_STRUCT_MEM < 2 ^ 32), uadd_of_lt (by omega)]
  by_cases hsplit : n + SIZEOF_STRUCT_MEM + MIN_SIZE_ALIGNED + SIZEOF_STRUCT_MEM ≤ b.len
  · have hlo : SIZEOF_STRUCT_MEM ≤ n + SIZEOF_STRUCT_MEM ∧ 4 ∣ n + SIZEOF_STRUCT_MEM :=
      ⟨Nat.le_add_left _ _, Nat.dvd_add hn (by decide)⟩
    have hhi : n + SIZEOF_STRUCT_MEM + SIZEOF_STRUCT_MEM ≤ b.len := by omega
    obtain ⟨g, hrun, hg, hdatag, hsizeg, hlfreeg, husedg, hmaxg⟩ := split_spec hc hlo hhi
    have hendg : g.heap_end = h.heap_end := by rw [heap_end, hsizeg, heap_end]
    have hptr2 : uadd (uadd (Blocks.total xs) SIZEOF_STRUCT_MEM) n =
        Blocks.total xs + (n + SIZEOF_STRUCT_MEM) := by
      rw [uadd_of_lt (by omega : Blocks.total xs + SIZEOF_STRUCT_MEM < 2 ^ 32),
        uadd_of_lt (by omega)]
      omega
    have hcarve : carve b n hn = [(b.cut (n + SIZEOF_STRUCT_MEM) hlo hhi).1.take,
        (b.cut (n + SIZEOF_STRUCT_MEM) hlo hhi).2] := dif_pos hsplit
    have hk : inUse (carve b n hn) = uadd n SIZEOF_STRUCT_MEM := by
      rw [hcarve, inUse_cons, inUse_cons, uadd_of_lt (by omega)]
      rfl
    refine ⟨(((g.put heap_mem.usedField (Blocks.total xs) 1).put heap_mem.applicantField
      (Blocks.total xs) th).count (uadd n SIZEOF_STRUCT_MEM)).put heap_mem.magicField
        (Blocks.total xs) HEAP_MAGIC, ?_, ?_, ?_, hsizeg, hlfreeg, ?_, ?_⟩
    · simp only [occupy, header_eq hin, Option.bind_eq_bind, Option.bind_some, hneed, hdata]
      rw [if_pos (by omega), hptr2, hh.next, hrun, Option.bind_some, write_eq (by omega),
        Option.bind_some, write_eq (by exact hendg ▸ hin), Option.bind_some,
        write_eq (by exact hendg ▸ hin)]
    · rw [hcarve]
      refine hg.mark (c := (b.cut (n + SIZEOF_STRUCT_MEM) hlo hhi).1.take) rfl rfl
        (fun q hq => ?_) fun r hr => ?_
      · obtain ⟨a, ha⟩ := mem_put_applicant (h := g.put heap_mem.usedField (Blocks.total xs) 1)
          (p := Blocks.total xs) (v := th)
        refine ⟨?_, ?_, ?_, ?_⟩
        all_goals rw [mem_put_magic hmagic]
        · rw [mem_count, ha, mem_put_used (by decide)]
          rfl
        · rw [mem_count, ha, mem_put_used (by decide)]
          exact hq.next
        · rw [mem_count, ha, mem_put_used (by decide)]
          exact hq.prev
      · rw [mem_put_of_apart (by decide) hr, mem_count, mem_put_of_apart (by decide) hr,
          mem_put_of_apart (by decide) hr]
    · have hcut : SameData h g (xs ++ b :: ys) := by
        intro s l hsl i hlo' hhi'
        refine hdatag s l ?_ i hlo' hhi'
        rw [mem_blocksAt_around] at hsl ⊢
        refine hsl.imp id (.imp (fun h1 => ?_) fun h1 => ?_)
        · rw [hb] at h1
          cases h1.1
        · rw [blocksAt_cons_free rfl]
          refine (congrArg (fun p => (s, l) ∈ blocksAt true p ys) ?_).mp h1
          simp only [Block.cut]
          omega
      refine hcut.trans ?_
      have hput : ∀ (g : Heap) (f : Field) (v : ℕ), Field.Within SIZEOF_STRUCT_MEM f →
          SameData g (g.put f (Blocks.total xs) v) (xs ++ b :: ys) :=
        fun g f v hf => sameData_put hf rfl rfl
      exact (hput _ _ _ (by decide)).trans ((hput _ _ _ (by decide)).trans (hput _ _ _ (by decide)))
    · rw [hk]
      show uadd g.used_mem _ = uadd h.used_mem _
      rw [husedg]
    · rw [hk]
      show (if g.max_mem < uadd g.used_mem _ then uadd g.used_mem _ else g.max_mem) = _
      rw [husedg, hmaxg]
      rfl
  · have hcarve : carve b n hn = [b.take] := dif_neg hsplit
    have hk : inUse (carve b n hn) = usub (h.mem (Blocks.total xs)).next (Blocks.total xs) := by
      rw [hcarve, inUse_cons, hh.next, usub_of_le (by omega) (by omega)]
      simp
    refine ⟨((h.put heap_mem.usedField (Blocks.total xs) 1).count
      (usub (h.mem (Blocks.total xs)).next (Blocks.total xs))).put heap_mem.magicField
        (Blocks.total xs) HEAP_MAGIC, ?_, ?_, ?_, rfl, rfl, ?_, ?_⟩
    · simp only [occupy, header_eq hin, Option.bind_eq_bind, Option.bind_some, hneed, hdata]
      rw [if_neg (by omega), write_eq hin, Option.bind_some, write_eq (by exact hin)]
    · rw [hcarve]
      refine hc.mark (c := b.take) rfl rfl (fun q hq => ?_) fun r hr => ?_
      · refine ⟨?_, ?_, ?_, ?_⟩
        all_goals rw [mem_put_magic hmagic]
        · rw [mem_count, mem_put_used (by decide)]
          rfl
        · rw [mem_count, mem_put_used (by decide)]
          exact hq.next
        · rw [mem_count, mem_put_used (by decide)]
          exact hq.prev
      · rw [mem_put_of_apart (by decide) hr, mem_count, mem_put_of_apart (by decide) hr]
    · exact (sameData_put (f := heap_mem.usedField) (by decide) rfl rfl).trans
        (sameData_put (f := heap_mem.magicField) (by decide) rfl rfl)
    · rw [hk]
      rfl
    · rw [hk]
      rfl

end Occupy

section Malloc

variable {h : Heap} {b : HeapBlock} {bs xs ys : List HeapBlock} {n p s l fuel size th : ℕ}

theorem mem_carve_around {u : Bool} {x : ℕ × ℕ} (hn : 4 ∣ n) :
    x ∈ blocksAt u 0 (xs ++ (carve b n hn ++ ys)) ↔ x ∈ blocksAt u 0 xs ∨
      x ∈ blocksAt u (Blocks.total xs) (carve b n hn) ∨
        x ∈ blocksAt u (Blocks.total xs + b.len) ys := by
  rw [blocksAt_append, List.mem_append, blocksAt_append, List.mem_append, total_carve, Nat.zero_add]

/-- The free part of a block that was taken comes behind the part in use. -/
theorem lt_of_mem_carve (hn : 4 ∣ n) (hb : n + SIZEOF_STRUCT_MEM ≤ b.len)
    (h : (s, l) ∈ blocksAt false p (carve b n hn)) : p < s := by
  obtain ⟨c, cs, hcarve, hc, hlen, -⟩ := exists_carve_eq b n hn hb
  rw [hcarve, blocksAt_cons_ne (by rw [hc]; decide)] at h
  have hlo := (mem_blocksAt_bounds h).1
  have hsize : SIZEOF_STRUCT_MEM = 16 := rfl
  omega

theorem used_carve (hn : 4 ∣ n) (hb : n + SIZEOF_STRUCT_MEM ≤ b.len) :
    ∃ k, n + SIZEOF_STRUCT_MEM ≤ k ∧ k ≤ b.len ∧ blocksAt true p (carve b n hn) = [(p, k)] := by
  obtain ⟨c, cs, hcarve, hc, hlen, hcs⟩ := exists_carve_eq b n hn hb
  have htotal := total_carve (b := b) hn
  rw [hcarve, total_cons] at htotal
  refine ⟨c.len, hlen, by omega, ?_⟩
  rw [hcarve, blocksAt_cons_self hc]
  refine congrArg _ (List.eq_nil_iff_forall_not_mem.mpr fun ⟨s, l⟩ hsl => ?_)
  obtain ⟨us, d, vs, rfl, hd, -⟩ := exists_of_mem_blocksAt hsl
  rw [hcs d (by simp)] at hd
  cases hd

theorem dvd_request : 4 ∣ request size := by
  unfold request
  split
  · decide
  · exact Nat.dvd_mul_left 4 _

/-- A free block is taken: the first in the search that is large enough. -/
structure Taken (h h' : Heap) (xs : List HeapBlock) (b : HeapBlock) (ys : List HeapBlock)
    (n : ℕ) (hn : 4 ∣ n) : Prop where
  free : b.used = false
  lfree_le : h.lfree ≤ Blocks.total xs
  fits : n + SIZEOF_STRUCT_MEM ≤ b.len
  short : Blocks.total xs < h.mem_size_aligned - n
  first : ∀ s l, (s, l) ∈ blocksAt false 0 xs → h.lfree ≤ s → l < n + SIZEOF_STRUCT_MEM
  layout : Layout h' (xs ++ (carve b n hn ++ ys))
  data : SameData h h' (xs ++ b :: ys)
  lowest : Lowest h (xs ++ b :: ys) → Lowest h' (xs ++ (carve b n hn ++ ys))
  size : h'.mem_size_aligned = h.mem_size_aligned
  max_mem : h'.max_mem = max h.max_mem h'.used_mem

/-- No free block is large enough, but for the one that would be filled to the end. -/
def NoneFits (h : Heap) (bs : List HeapBlock) (n : ℕ) : Prop :=
  ∀ s l, (s, l) ∈ blocksAt false 0 bs → h.lfree ≤ s →
    n + SIZEOF_STRUCT_MEM ≤ l → h.mem_size_aligned - n ≤ s

/-- A search starts between blocks. -/
theorem Layout.exists_split (hl : Layout h bs) :
    ∃ pre suf, bs = pre ++ suf ∧ Blocks.total pre = h.lfree := by
  rcases hl.starts with hend | ⟨l, hmem⟩
  · exact ⟨bs, [], (List.append_nil bs).symm, by rw [hend, hl.total]⟩
  · obtain ⟨xs, b, ys, rfl, -, hs, -⟩ := exists_of_mem_blocksAt hmem
    exact ⟨xs, b :: ys, rfl, by rw [hs, Nat.zero_add]⟩

/-- The variables after a block is taken, and `lfree` is moved if it pointed at it. -/
theorem taken_of_occupied {h1 : Heap} (lfree : ℕ) (hl : Layout h (xs ++ b :: ys))
    (hb : b.used = false) (hle : h.lfree ≤ Blocks.total xs) (hn : 4 ∣ n)
    (hmin : MIN_SIZE_ALIGNED ≤ n) (hfit : n + SIZEOF_STRUCT_MEM ≤ b.len)
    (hshort : Blocks.total xs < h.mem_size_aligned - n)
    (hfirst : ∀ s l, (s, l) ∈ blocksAt false 0 xs → h.lfree ≤ s → l < n + SIZEOF_STRUCT_MEM)
    (hc : Chain h1 (xs ++ (carve b n hn ++ ys))) (hdata : SameData h h1 (xs ++ b :: ys))
    (hsize : h1.mem_size_aligned = h.mem_size_aligned)
    (hused : h1.used_mem = (h.count (inUse (carve b n hn))).used_mem)
    (hmax : h1.max_mem = (h.count (inUse (carve b n hn))).max_mem)
    (hsame : Blocks.total xs ≠ h.lfree → lfree = h.lfree)
    (hmoved : Blocks.total xs = h.lfree →
      (lfree = h.heap_end ∨
        ∃ n', (lfree, n') ∈ blocksAt false (Blocks.total xs) (carve b n hn ++ ys)) ∧
        ∀ s n', (s, n') ∈ blocksAt false (Blocks.total xs) (carve b n hn ++ ys) → lfree ≤ s) :
    Taken h { h1 with lfree := lfree } xs b ys n hn := by
  have hend := hl.bounds.2
  have hsmall := hl.small
  have hroom := b.room
  have hsize16 : SIZEOF_STRUCT_MEM = 16 := rfl
  have hmin12 : MIN_SIZE_ALIGNED = 12 := rfl
  have hend1 : ({ h1 with lfree := lfree } : Heap).heap_end = h.heap_end := by
    rw [heap_end, heap_end, ← hsize]
  have hold : ∀ x, x ∈ blocksAt false 0 (xs ++ b :: ys) ↔ x ∈ blocksAt false 0 xs ∨
      x = (Blocks.total xs, b.len) ∨ x ∈ blocksAt false (Blocks.total xs + b.len) ys := by
    intro x
    rw [mem_blocksAt_around, and_iff_right hb, Nat.zero_add]
  have htail : ∀ x, x ∈ blocksAt false (Blocks.total xs) (carve b n hn ++ ys) ↔
      x ∈ blocksAt false (Blocks.total xs) (carve b n hn) ∨
        x ∈ blocksAt false (Blocks.total xs + b.len) ys := by
    intro x
    rw [blocksAt_append, List.mem_append, total_carve]
  obtain ⟨k, hk1, hk2, huse⟩ := used_carve (p := Blocks.total xs) hn hfit
  have hinUse : inUse (carve b n hn) = k := by
    rw [← sum_blocksAt (Blocks.total xs), huse]
    rfl
  have hmem := hl.used_mem
  have hle2 : inUse xs ≤ Blocks.total xs := inUse_le_total
  have hle3 : inUse ys ≤ Blocks.total ys := inUse_le_total
  rw [inUse_around, hb, if_neg Bool.false_ne_true, Nat.add_zero] at hmem
  have hused' : h1.used_mem = h.used_mem + k := by
    rw [hused, hinUse]
    show uadd h.used_mem k = _
    exact uadd_of_lt (by omega)
  have hmax' : h1.max_mem = max h.max_mem h1.used_mem := by
    rw [hmax, hused]
    show (if h.max_mem < (h.count _).used_mem then (h.count _).used_mem else h.max_mem) = _
    split <;> omega
  refine ⟨hb, hle, hfit, hshort, hfirst, ⟨hc.congr rfl rfl, ?_, ?_, ?_, ?_, ?_, ?_⟩, hdata, ?_,
    hsize, hmax'⟩
  · -- What was taken is in use, and its rest has a used block, or none, behind it.
    obtain ⟨c, cs, hcarve, hcu, -, -⟩ := exists_carve_eq b n hn hfit
    have hxs := hl.coalesced.left
    have hys := hl.coalesced.right
    have hmid : Coalesced (carve b n hn ++ ys) := by
      unfold carve
      split
      · refine Coalesced.cons (Coalesced.cons hys.tail (.inr ?_)) (.inl rfl)
        exact hys.head_used hb
      · exact Coalesced.cons hys.tail (.inl rfl)
    refine List.isChain_append.mpr ⟨hxs, hmid, fun x _ y hy => .inr ?_⟩
    rw [hcarve] at hy
    cases hy
    exact hcu
  · rw [StartsFree, hend1]
    by_cases hat : Blocks.total xs = h.lfree
    · refine (hmoved hat).1.imp id (Exists.imp fun n' hn' => ?_)
      rw [blocksAt_append, List.mem_append, Nat.zero_add]
      exact .inr hn'
    · show lfree = _ ∨ ∃ n', (lfree, n') ∈ _
      rw [hsame hat]
      refine hl.starts.imp id (Exists.imp fun l h1 => (mem_carve_around hn).mpr ?_)
      rcases (hold _).mp h1 with h1 | h1 | h1
      · exact .inl h1
      · exact absurd (Prod.mk.inj h1).1.symm hat
      · exact .inr (.inr h1)
  · intro s l hsl
    rw [hend1]
    rcases (mem_carve_around hn).mp hsl with h1 | h1 | h1
    · exact hl.inside s l (mem_blocksAt_around.mpr (.inl h1))
    · rw [huse, List.mem_singleton] at h1
      cases h1
      omega
    · refine hl.inside s l (mem_blocksAt_around.mpr (.inr (.inr ?_)))
      rw [Nat.zero_add]
      exact h1
  · show h1.used_mem = _
    rw [hused', inUse_append, inUse_append, hinUse]
    omega
  · show h1.used_mem ≤ h1.max_mem
    omega
  · show _ ≤ h1.mem_size_aligned
    rw [hsize]
    exact hl.room
  · intro hlow s l hsl
    show lfree ≤ s
    have hin := (mem_carve_around hn).mp hsl
    by_cases hat : Blocks.total xs = h.lfree
    · rcases hin with h1 | h1
      · have hbefore := (mem_blocksAt_bounds h1).2
        have hafter := hlow _ _ ((hold _).mpr (.inl h1))
        omega
      · exact (hmoved hat).2 s l ((htail _).mpr h1)
    · rw [hsame hat]
      rcases hin with h1 | h1 | h1
      · exact hlow _ _ ((hold _).mpr (.inl h1))
      · have hlt := lt_of_mem_carve hn hfit h1
        omega
      · exact hlow _ _ ((hold _).mpr (.inr (.inr h1)))

/-- `rt_malloc`: either nothing changes, and there is nothing to give, or a block is taken. -/
theorem rt_malloc_spec (th size : ℕ) (hl : Layout h bs) (hfuel : bs.length + 1 < fuel) :
    (h.rt_malloc fuel th size = some (h, none) ∧
        (size = 0 ∨ h.mem_size_aligned < RT_ALIGN size ∨ NoneFits h bs (request size))) ∨
      ∃ xs b ys h', bs = xs ++ b :: ys ∧ size ≠ 0 ∧ RT_ALIGN size ≤ h.mem_size_aligned ∧
        h.rt_malloc fuel th size = some (h', some (Blocks.total xs + SIZEOF_STRUCT_MEM)) ∧
        Taken h h' xs b ys (request size) dvd_request := by
  by_cases hzero : size = 0
  · exact .inl ⟨by rw [rt_malloc, if_pos hzero], .inl hzero⟩
  by_cases hbig : h.mem_size_aligned < RT_ALIGN size
  · exact .inl ⟨by rw [rt_malloc, if_neg hzero, if_pos hbig], .inr (.inl hbig)⟩
  have hroom := hl.room
  have hsmall := hl.small
  have hend : h.heap_end = h.mem_size_aligned + SIZEOF_STRUCT_MEM := rfl
  have hmin12 : MIN_SIZE_ALIGNED = 12 := rfl
  have hsize16 : SIZEOF_STRUCT_MEM = 16 := rfl
  have hmin : MIN_SIZE_ALIGNED ≤ request size := by
    unfold request
    split <;> omega
  have hle : request size ≤ h.mem_size_aligned := by
    unfold request
    split <;> omega
  obtain ⟨pre, suf, rfl, hpre⟩ := hl.exists_split
  obtain ⟨q0, hs⟩ := hl.seg
  obtain ⟨q1, hspre, hssuf⟩ := seg_append.mp hs
  rw [Nat.zero_add, hpre] at hssuf
  have htotal := hl.total
  rw [total_append, hpre] at htotal
  rw [List.length_append] at hfuel
  -- What is not before the search is behind it.
  have hsplit : ∀ s l, (s, l) ∈ blocksAt false 0 (pre ++ suf) → h.lfree ≤ s →
      (s, l) ∈ blocksAt false h.lfree suf := by
    intro s l hsl hlo
    rw [blocksAt_append, List.mem_append, Nat.zero_add, hpre] at hsl
    refine hsl.resolve_left fun h1 => ?_
    have hb := (mem_blocksAt_bounds h1).2
    omega
  rcases search_spec hssuf htotal (by omega) hle (by omega : suf.length < fuel) with
    ⟨hrun, hnone⟩ | ⟨us, b, vs, rfl, hrun, hb, hfit, hlast, hfirst⟩
  · refine .inl ⟨?_, .inr (.inr fun s l hsl hlo hl => hnone s l (hsplit s l hsl hlo) hl)⟩
    rw [rt_malloc, if_neg hzero, if_neg hbig, hrun]
    rfl
  · have hxs : Blocks.total (pre ++ us) = h.lfree + Blocks.total us := by rw [total_append, hpre]
    rw [← hxs] at hrun hlast
    rw [List.length_append, List.length_cons] at hfuel
    rw [← List.append_assoc] at hl
    obtain ⟨h1, hocc, hc1, hdata, hsize, hlfree, hused, hmax⟩ :=
      occupy_spec th hl.toChain hb dvd_request hfit
    have hend1 : h1.heap_end = h.heap_end := by rw [heap_end, hsize, heap_end]
    have hdvd : 4 ∣ Blocks.total (pre ++ us) := dvd_total
    have hroomb := b.room
    have hbound := hl.bounds.2
    -- The assertions hold.
    have ha1 : Blocks.total (pre ++ us) + SIZEOF_STRUCT_MEM + request size ≤ h.heap_end := by omega
    have ha2 : (Blocks.total (pre ++ us) + SIZEOF_STRUCT_MEM) % 4 = 0 := by omega
    have ha3 : Blocks.total (pre ++ us) % 4 = 0 := by omega
    have hvisible : ∀ s l, (s, l) ∈ blocksAt false 0 (pre ++ us) → h.lfree ≤ s →
        l < request size + SIZEOF_STRUCT_MEM := by
      intro s l hsl hlo
      rw [blocksAt_append, List.mem_append, Nat.zero_add, hpre] at hsl
      refine hfirst s l (hsl.resolve_left fun h1 => ?_)
      have hb := (mem_blocksAt_bounds h1).2
      omega
    have htaken := fun lfree => taken_of_occupied lfree hl hb (by omega)
      (dvd_request : 4 ∣ request size) hmin hfit hlast hvisible hc1 hdata hsize hused hmax
    by_cases hat : Blocks.total (pre ++ us) = h.lfree
    · obtain ⟨q', hs1⟩ := hc1.seg
      obtain ⟨q'', -, hs1⟩ := seg_append.mp hs1
      rw [Nat.zero_add] at hs1
      have htotal1 := hc1.total
      rw [total_append] at htotal1
      have hlen : (carve b (request size) dvd_request ++ vs).length < fuel := by
        have hcarve : (carve b (request size) dvd_request).length ≤ 2 := by
          unfold carve
          split
          · exact le_rfl
          · exact Nat.le_succ 1
        rw [List.length_append]
        omega
      obtain ⟨lf, hadv, hlf, hmin'⟩ := advance_spec hs1 htotal1 hlen
      rw [hend1] at hlf
      refine .inr ⟨pre ++ us, b, vs, { h1 with lfree := lf }, by rw [List.append_assoc], hzero,
        by omega, ?_, htaken lf (fun hne => absurd hat hne) fun _ => ⟨hlf, hmin'⟩⟩
      have hassert : lf = h1.heap_end ∨ (h1.mem lf).used = 0 := by
        rw [hend1]
        refine hlf.imp id fun hex => ?_
        obtain ⟨n', hn'⟩ := hex
        refine hc1.used_of_mem (l := n') (u := false) ?_
        rw [blocksAt_append, List.mem_append, Nat.zero_add]
        exact .inr hn'
      have hvalid : lf ≤ h1.heap_end := by
        rcases hlf with h1 | ⟨n', hn'⟩
        · omega
        · have hb := (mem_blocksAt_bounds hn').2.2.1
          omega
      have hat' : Blocks.total (pre ++ us) = h1.lfree := by rw [hat, hlfree]
      rw [rt_malloc, if_neg hzero, if_neg hbig, hrun]
      simp only [Option.bind_eq_bind, Option.bind_some, hocc, if_pos hat', hadv,
        header_eq hvalid, rt_assert_of hassert, rt_assert_of ha2, rt_assert_of ha3]
      rw [rt_assert_of (by exact hend1 ▸ ha1), Option.bind_some]
    · refine .inr ⟨pre ++ us, b, vs, h1, by rw [List.append_assoc], hzero, by omega, ?_, ?_⟩
      · have hat' : Blocks.total (pre ++ us) ≠ h1.lfree := by rwa [hlfree]
        rw [rt_malloc, if_neg hzero, if_neg hbig, hrun]
        simp only [Option.bind_eq_bind, Option.bind_some, hocc, if_neg hat', rt_assert_of ha2,
          rt_assert_of ha3]
        rw [rt_assert_of (by exact hend1 ▸ ha1), Option.bind_some]
      · have htaken := htaken h.lfree (fun _ => rfl) fun hat' => absurd hat' hat
        rw [← hlfree] at htaken
        exact htaken

end Malloc

section Resize

variable {h : Heap} {b : HeapBlock} {xs ys : List HeapBlock} {n : ℕ}

/-- A block `b` is cut: `c` is kept, and `d` becomes free. -/
structure Shrunk (h h' : Heap) (xs : List HeapBlock) (b c d : HeapBlock) (ys : List HeapBlock) :
    Prop where
  kept : c.used = true
  rest : d.used = false
  len : c.len + d.len = b.len
  room : SIZEOF_STRUCT_MEM + MIN_SIZE < d.len
  layout : Layout h' (mergeFree (xs ++ c :: d :: ys))
  data : SameData h h' (xs ++ c :: d :: ys)
  lowest : Lowest h (xs ++ b :: ys) → (Lowest h' (mergeFree (xs ++ c :: d :: ys)) ↔
    h.lfree < Blocks.total xs ∨ h.lfree = Blocks.total xs + b.len ∧ h.lfree ≠ h.heap_end)
  size : h'.mem_size_aligned = h.mem_size_aligned
  max_mem : h'.max_mem = h.max_mem

/-- Counting what is given back leaves the blocks as they are. -/
theorem Chain.of_used_mem {bs : List HeapBlock} (hc : Chain h bs) (k : ℕ) :
    Chain { h with used_mem := k } bs := hc.congr rfl rfl

theorem shrink_spec {n n' : ℕ} (hl : Layout h (xs ++ b :: ys)) (hb : b.used = true)
    (hn : SIZEOF_STRUCT_MEM ≤ n ∧ 4 ∣ n) (hroom : n + SIZEOF_STRUCT_MEM + MIN_SIZE < b.len)
    (hn' : n' = b.len - n) : ∃ g h' c d,
      ({ h with used_mem := usub h.used_mem n' } : Heap).split (Blocks.total xs)
        (Blocks.total xs + n) (Blocks.total xs + b.len) = some g ∧
      g.plug_holes (Blocks.total xs + n) = some h' ∧ c.len = n ∧ Shrunk h h' xs b c d ys := by
  have hend := hl.bounds.2
  have hsmall := hl.small
  have hsize : SIZEOF_STRUCT_MEM = 16 := rfl
  have huse := hl.used_mem
  have hinUse : inUse (xs ++ b :: ys) ≤ Blocks.total (xs ++ b :: ys) := inUse_le_total
  rw [hl.total, inUse_around, if_pos hb] at hinUse
  rw [inUse_around, if_pos hb] at huse
  have hused' : usub h.used_mem n' = inUse xs + n + inUse ys := by
    rw [usub_of_le (by omega) (by omega)]
    omega
  have hle : n + SIZEOF_STRUCT_MEM ≤ b.len := by omega
  obtain ⟨g, hrun, hc, hdata, hgsize, hglfree, hgused, hgmax⟩ :=
    split_spec (hl.toChain.of_used_mem (usub h.used_mem n')) hn hle
  have hglfree : g.lfree = h.lfree := hglfree
  have hlen1 : (b.cut n hn hle).1.len = n := rfl
  have hlen2 : (b.cut n hn hle).2.len = b.len - n := rfl
  have hc1 : (b.cut n hn hle).1.used = true := hb
  have hc2 : (b.cut n hn hle).2.used = false := rfl
  generalize (b.cut n hn hle).1 = c at *
  generalize (b.cut n hn hle).2 = d at *
  have hat : Blocks.total (xs ++ [c]) = Blocks.total xs + n := by simp [hlen1]
  have hlist : xs ++ c :: d :: ys = xs ++ [c] ++ d :: ys := by simp
  rw [hlist] at hc hdata
  have hxs : Coalesced (xs ++ [c]) := by
    refine List.isChain_append.mpr ⟨hl.coalesced.left, List.isChain_singleton c, ?_⟩
    intro x _ y hy
    cases hy
    exact .inr hc1
  have hys : Coalesced ys := hl.coalesced.right.tail
  obtain ⟨h', hplug, hp⟩ := plug_holes_spec hc hc2 hxs hys
  rw [hat] at hplug
  have hgend : g.heap_end = h.heap_end := by rw [heap_end, hgsize, heap_end]
  have hend' : h'.heap_end = h.heap_end := by rw [heap_end, hp.size, hgsize, heap_end]
  have hbdy : Blocks.total xs + c.len + d.len = Blocks.total xs + b.len := by omega
  have hold : ∀ x, x ∈ blocksAt false 0 (xs ++ b :: ys) ↔
      x ∈ blocksAt false 0 xs ∨ x ∈ blocksAt false (Blocks.total xs + b.len) ys := by
    intro x
    rw [blocksAt_append, List.mem_append, Nat.zero_add, blocksAt_cons_ne (by rw [hb]; decide)]
  have hfree : ∀ x, x ∈ blocksAt false 0 (xs ++ [c] ++ d :: ys) ↔
      x = (Blocks.total xs + n, d.len) ∨ x ∈ blocksAt false 0 (xs ++ b :: ys) := by
    intro x
    rw [hold, ← hlist, blocksAt_append, List.mem_append, Nat.zero_add,
      blocksAt_cons_ne (by rw [hc1]; decide), blocksAt_cons_self hc2, List.mem_cons, hbdy, hlen1,
      or_left_comm]
  have hstarts : StartsFree g (xs ++ [c] ++ d :: ys) := by
    rw [StartsFree, hglfree, hgend]
    exact hl.starts.imp id (Exists.imp fun l h1 => (hfree _).mpr (.inr h1))
  have hmax := hl.max_mem
  refine ⟨g, h', c, d, hrun, hplug, hlen1, hc1, hc2, by omega, by omega,
    ⟨hlist ▸ hp.chain, coalesced_mergeFree _, hlist ▸ hp.lfree hstarts, ?_, ?_, ?_, ?_⟩,
    hlist ▸ hdata.trans hp.data, fun hlow => ?_, hp.size.trans hgsize, hp.max_mem.trans hgmax⟩
  · rw [hlist, hp.used, hend', ← hlist]
    intro s l hsl
    rcases mem_blocksAt_around.mp hsl with h1 | ⟨-, h1⟩ | h1
    · exact hl.inside s l (mem_blocksAt_around.mpr (.inl h1))
    · cases h1
      omega
    · rw [blocksAt_cons_free hc2, Nat.zero_add, hbdy] at h1
      refine hl.inside s l (mem_blocksAt_around.mpr (.inr (.inr ?_)))
      rw [Nat.zero_add]
      exact h1
  · rw [hp.used_mem, hgused, inUse_mergeFree, inUse_around, if_pos hc1, inUse_cons, hc2,
      if_neg Bool.false_ne_true, Nat.zero_add, hlen1]
    exact hused'
  · rw [hp.used_mem, hp.max_mem, hgused, hgmax]
    show usub h.used_mem n' ≤ h.max_mem
    omega
  · rw [hp.size, hgsize]
    exact hl.room
  · -- The free block behind what is kept starts below `lfree`, unless `lfree` moves to it.
    have hlast : ∀ x ∈ (xs ++ [c]).getLast?, x.used = true := by
      intro x hx
      rw [List.getLast?_append_cons, List.getLast?_singleton] at hx
      cases hx
      exact hc1
    have hnorm : mergeFree (xs ++ [c] ++ d :: ys) = xs ++ c :: absorb d ys := by
      rw [mergeFree_append hxs hlast, mergeFree, hc2, if_neg Bool.false_ne_true,
        mergeFree_of_coalesced hys, List.append_assoc, List.singleton_append]
    have hnew : ∀ s, (∃ l, (s, l) ∈ blocksAt false 0 (mergeFree (xs ++ [c] ++ d :: ys))) ↔
        (∃ l, (s, l) ∈ blocksAt false 0 xs) ∨ s = Blocks.total xs + n ∨
          Blocks.total xs + b.len < s ∧
            ∃ l, (s, l) ∈ blocksAt false (Blocks.total xs + b.len) ys := by
      intro s
      have habs : (∃ l, (s, l) ∈ blocksAt false (Blocks.total xs + c.len) (absorb d ys)) ↔ _ :=
        mem_absorb_iff (by decide : 0 < SIZEOF_STRUCT_MEM) hc2
      rw [hbdy, hlen1] at habs
      rw [← habs, hnorm, blocksAt_append, Nat.zero_add,
        blocksAt_cons_ne (by rw [hc1]; decide), hlen1, ← exists_or]
      simp only [List.mem_append]
    have hpl := hp.le
    have hfloor := hp.floor
    rw [hglfree] at hpl hfloor
    rw [hlist]
    constructor
    · intro hlow'
      obtain ⟨l2, hl2⟩ := (hnew _).mpr (.inr (.inl rfl))
      have hp2 := hlow' _ _ hl2
      rcases hl.starts with hstop | ⟨l, hlmem⟩
      · have hstop' := hp.stop (by rw [hglfree, hgend]; exact hstop)
        omega
      · rcases (hold _).mp hlmem with h1 | h1
        · have hb1 := (mem_blocksAt_bounds h1).2
          exact .inl (by omega)
        · refine .inr ?_
          have hb1 := mem_blocksAt_bounds h1
          refine ⟨?_, by omega⟩
          by_contra hne
          -- A free block further on stays one, and `lfree` with it.
          obtain ⟨l3, hl3⟩ := (hnew h.lfree).mpr (.inr (.inr ⟨by omega, l, h1⟩))
          have hle3 := hfloor _ _ hl3 le_rfl
          omega
    · rintro (hlt | ⟨heq, hne⟩)
      · refine hp.lowest hstarts fun s l hsl => ?_
        rw [hglfree]
        rcases (hfree _).mp hsl with h1 | h1
        · have h1 := (Prod.mk.inj h1).1
          show h.lfree ≤ s
          omega
        · exact hlow _ _ h1
      · intro s l hsl
        rcases (hnew s).mp ⟨l, hsl⟩ with ⟨l', h1⟩ | h1 | ⟨h1, -⟩
        · have h2 := hlow _ _ ((hold _).mpr (.inl h1))
          have h3 := (mem_blocksAt_bounds h1).2
          omega
        · rcases hp.lfree hstarts with hstop | ⟨l', hl'⟩
          · omega
          · rcases (hnew _).mp ⟨l', hl'⟩ with ⟨l'', h2⟩ | h2 | ⟨h2, -⟩
            · have h3 := (mem_blocksAt_bounds h2).2
              omega
            · omega
            · omega
        · omega

/-- `resize`, of a used block: it is as large as it has to be, or cut, or too small. -/
theorem resize_spec {n : ℕ} (hl : Layout h (xs ++ b :: ys)) (hb : b.used = true) (hn : 4 ∣ n)
    (hle : n ≤ h.mem_size_aligned) :
    (h.resize (Blocks.total xs + SIZEOF_STRUCT_MEM) n = some (h, none) ∧
        b.len = n + SIZEOF_STRUCT_MEM) ∨
      (∃ h' c d, h.resize (Blocks.total xs + SIZEOF_STRUCT_MEM) n = some (h', none) ∧
        c.len = n + SIZEOF_STRUCT_MEM ∧ Shrunk h h' xs b c d ys) ∨
      h.resize (Blocks.total xs + SIZEOF_STRUCT_MEM) n =
        some (h, some (b.len - SIZEOF_STRUCT_MEM)) ∧ b.len ≠ n + SIZEOF_STRUCT_MEM ∧
          b.len ≤ n + SIZEOF_STRUCT_MEM + MIN_SIZE + SIZEOF_STRUCT_MEM := by
  obtain ⟨q, hh⟩ := hl.header
  have hend := hl.bounds.2
  have hroom := b.room
  have hsmall := hl.small
  have hstop : h.heap_end = h.mem_size_aligned + SIZEOF_STRUCT_MEM := rfl
  have hsize : SIZEOF_STRUCT_MEM = 16 := rfl
  have hmin : MIN_SIZE = 12 := rfl
  have hin := hl.inside _ _ (mem_blocksAt_around.mpr (.inr (.inl ⟨hb, rfl⟩)))
  rw [Nat.zero_add] at hin
  have hpred : usub (Blocks.total xs + SIZEOF_STRUCT_MEM) SIZEOF_STRUCT_MEM = Blocks.total xs := by
    rw [usub_of_le (by omega) (by omega), Nat.add_sub_cancel]
  have hlen : usub (Blocks.total xs + b.len) (Blocks.total xs) = b.len := by
    rw [usub_of_le (by omega) (by omega), Nat.add_sub_cancel_left]
  have hdata : usub b.len SIZEOF_STRUCT_MEM = b.len - SIZEOF_STRUCT_MEM :=
    usub_of_le hroom (by omega)
  have hneed : uadd (uadd n SIZEOF_STRUCT_MEM) MIN_SIZE = n + SIZEOF_STRUCT_MEM + MIN_SIZE := by
    rw [uadd_of_lt (by omega : n + SIZEOF_STRUCT_MEM < 2 ^ 32), uadd_of_lt (by omega)]
  have hvalid : Blocks.total xs ≤ h.heap_end := by omega
  have hrun : h.resize (Blocks.total xs + SIZEOF_STRUCT_MEM) n =
      if b.len - SIZEOF_STRUCT_MEM = n then some (h, none)
      else if n + SIZEOF_STRUCT_MEM + MIN_SIZE < b.len - SIZEOF_STRUCT_MEM then
        (({ h with used_mem := usub h.used_mem (usub (b.len - SIZEOF_STRUCT_MEM) n) } : Heap).split
            (Blocks.total xs) (uadd (uadd (Blocks.total xs) SIZEOF_STRUCT_MEM) n)
            (Blocks.total xs + b.len)).bind fun g =>
          (g.plug_holes (uadd (uadd (Blocks.total xs) SIZEOF_STRUCT_MEM) n)).bind fun h' =>
            some (h', none)
      else some (h, some (b.len - SIZEOF_STRUCT_MEM)) := by
    rw [resize, if_neg (by omega)]
    simp only [hpred]
    rw [header_eq hvalid, Option.bind_eq_bind, Option.bind_some]
    simp only [hh.next, hlen, hdata, hneed, Option.bind_eq_bind]
  rw [hrun]
  by_cases hsame : b.len - SIZEOF_STRUCT_MEM = n
  · exact .inl ⟨if_pos hsame, by omega⟩
  rw [if_neg hsame]
  by_cases hcut : n + SIZEOF_STRUCT_MEM + MIN_SIZE < b.len - SIZEOF_STRUCT_MEM
  · refine .inr (.inl ?_)
    obtain ⟨g, h', c, d, hsplit, hplug, hc, hs⟩ := shrink_spec (n := n + SIZEOF_STRUCT_MEM)
      hl hb ⟨Nat.le_add_left _ _, Nat.dvd_add hn (by decide)⟩ (by omega)
      (show usub (b.len - SIZEOF_STRUCT_MEM) n = b.len - (n + SIZEOF_STRUCT_MEM) by
        rw [usub_of_le (by omega) (by omega)]
        omega)
    have hptr2 : uadd (uadd (Blocks.total xs) SIZEOF_STRUCT_MEM) n =
        Blocks.total xs + (n + SIZEOF_STRUCT_MEM) := by
      rw [uadd_of_lt (by omega : Blocks.total xs + SIZEOF_STRUCT_MEM < 2 ^ 32),
        uadd_of_lt (by omega)]
      omega
    refine ⟨h', c, d, ?_, hc, hs⟩
    rw [if_pos hcut, hptr2, hsplit, Option.bind_some, hplug, Option.bind_some]
  · exact .inr (.inr ⟨if_neg hcut, by omega, by omega⟩)

end Resize

/-! ## The whole heap -/

section Whole

variable {h : Heap} {b : HeapBlock} {bs : List HeapBlock} {p q q' fuel : ℕ}

/-- `memcheck` finds nothing wrong. -/
theorem memcheck_spec (hs : Seg h q p bs q') (hq : q ≤ p) (hend : p + Blocks.total bs = h.heap_end)
    (hfuel : bs.length < fuel) : h.memcheck fuel p = some true := by
  induction bs generalizing p q fuel with
  | nil =>
    obtain ⟨fuel, rfl⟩ := Nat.exists_eq_succ_of_ne_zero (by omega : fuel ≠ 0)
    rw [memcheck, if_neg fun hne => hne hend]
  | cons b bs ih =>
    obtain ⟨fuel, rfl⟩ := Nat.exists_eq_succ_of_ne_zero (by omega : fuel ≠ 0)
    have hroom := b.room
    have hsize : SIZEOF_STRUCT_MEM = 16 := rfl
    rw [total_cons] at hend
    rw [List.length_cons] at hfuel
    have hused : b.used.toNat = 0 ∨ b.used.toNat = 1 := by cases b.used <;> simp
    have hintact : h.intact (h.mem p) := by
      rw [intact, hs.1.magic, hs.1.used, hs.1.next, hs.1.prev]
      exact ⟨rfl, hused, ⟨by omega, by omega⟩, by omega, by omega⟩
    rw [memcheck, if_pos (by omega), header_eq (by omega), Option.bind_eq_bind, Option.bind_some,
      if_pos hintact, hs.1.next]
    exact ih hs.2 (by omega) (by omega) (Nat.lt_of_succ_lt_succ hfuel)

/-- The headers determine the blocks. -/
theorem Seg.unique {bs' : List HeapBlock} {q1 q2 : ℕ} (hs : Seg h q p bs q1)
    (hs' : Seg h q p bs' q2) (ht : Blocks.total bs = Blocks.total bs') : bs = bs' := by
  have hsize : SIZEOF_STRUCT_MEM = 16 := rfl
  induction bs generalizing q p bs' with
  | nil =>
    cases bs' with
    | nil => rfl
    | cons c cs =>
      have hroom := c.room
      rw [total_nil, total_cons] at ht
      omega
  | cons b bs ih =>
    cases bs' with
    | nil =>
      have hroom := b.room
      rw [total_nil, total_cons] at ht
      omega
    | cons c cs =>
      have hlen : b.len = c.len := by
        have hnext := hs.1.next.symm.trans hs'.1.next
        omega
      have hused : b.used = c.used := by
        have hused := hs.1.used.symm.trans hs'.1.used
        revert hused
        cases b.used <;> cases c.used <;> decide
      rw [total_cons, total_cons] at ht
      have hrest := hs'.2
      rw [← hlen] at hrest
      rw [Block.ext hlen hused, ih hs.2 hrest (by omega)]

theorem Chain.unique {bs' : List HeapBlock} (hc : Chain h bs) (hc' : Chain h bs') : bs = bs' := by
  obtain ⟨q1, hs⟩ := hc.seg
  obtain ⟨q2, hs'⟩ := hc'.seg
  exact hs.unique hs' (hc.total.trans hc'.total.symm)

/-- A heap that is one free block. -/
def Fresh (h : Heap) (bs : List HeapBlock) : Prop :=
  ∃ b : HeapBlock, bs = [b] ∧ b.used = false ∧ h.lfree = 0

theorem format_eq : h.format = some
    ((((((((h.put heap_mem.magicField 0 HEAP_MAGIC).put heap_mem.nextField 0 h.heap_end).put
      heap_mem.prevField 0 0).put heap_mem.usedField 0 0).put heap_mem.magicField h.heap_end
        HEAP_MAGIC).put heap_mem.usedField h.heap_end 1).put heap_mem.nextField h.heap_end
          h.heap_end).put heap_mem.prevField h.heap_end h.heap_end) := by
  have h0 : 0 ≤ h.heap_end := Nat.zero_le _
  have hn : h.heap_end ≤ h.heap_end := le_rfl
  rw [format, write_eq h0, Option.bind_eq_bind, Option.bind_some]
  rw [write_eq (by exact h0), Option.bind_some, write_eq (by exact h0), Option.bind_some,
    write_eq (by exact h0), Option.bind_some, write_eq (by exact hn), Option.bind_some,
    write_eq (by exact hn), Option.bind_some, write_eq (by exact hn), Option.bind_some,
    write_eq (by exact hn)]
  rfl

/-- The two headers make up one free block. -/
theorem format_spec (hdvd : 4 ∣ h.heap_end) (hroom : MIN_SIZE_ALIGNED ≤ h.mem_size_aligned)
    (hsmall : h.heap_end + SIZEOF_STRUCT_MEM ≤ 2 ^ 32) (hlfree : h.lfree = 0)
    (hused : h.used_mem = 0) : ∃ h', h.format = some h' ∧
      h'.mem_size_aligned = h.mem_size_aligned ∧ ∃ bs, Layout h' bs ∧ Fresh h' bs := by
  have hsize : SIZEOF_STRUCT_MEM = 16 := rfl
  have hmagic : HEAP_MAGIC < 2 ^ 16 := by decide
  have hend : h.heap_end = h.mem_size_aligned + SIZEOF_STRUCT_MEM := rfl
  obtain ⟨g, hg⟩ : ∃ g, h.format = some g := ⟨_, format_eq⟩
  have hg' := hg
  rw [format_eq, Option.some.injEq] at hg'
  have hmem0 : g.mem 0 =
      { h.mem 0 with magic := HEAP_MAGIC, next := h.heap_end, prev := 0, used := 0 } := by
    have hfar : ∀ (f : Field) (e : Heap) (v : ℕ), Field.Within SIZEOF_STRUCT_MEM f →
        (e.put f h.heap_end v).mem 0 = e.mem 0 :=
      fun f e v hf => mem_put_of_apart hf (.inl (by omega))
    rw [← hg', hfar _ _ _ (by decide), hfar _ _ _ (by decide), hfar _ _ _ (by decide),
      hfar _ _ _ (by decide), mem_put_used (by decide), mem_put_prev (by decide),
      mem_put_next (by omega), mem_put_magic hmagic]
  have hmemn : g.mem h.heap_end = { h.mem h.heap_end with
      magic := HEAP_MAGIC, used := 1, next := h.heap_end, prev := h.heap_end } := by
    have hfar : ∀ (f : Field) (e : Heap) (v : ℕ), Field.Within SIZEOF_STRUCT_MEM f →
        (e.put f 0 v).mem h.heap_end = e.mem h.heap_end :=
      fun f e v hf => mem_put_of_apart hf (.inr (by omega))
    rw [← hg', mem_put_prev (by omega), mem_put_next (by omega), mem_put_used (by decide),
      mem_put_magic hmagic, hfar _ _ _ (by decide), hfar _ _ _ (by decide),
      hfar _ _ _ (by decide), hfar _ _ _ (by decide)]
  have hgsize : g.mem_size_aligned = h.mem_size_aligned := by
    rw [← hg']
    rfl
  have hgend : g.heap_end = h.heap_end := by rw [heap_end, hgsize, heap_end]
  have hglfree : g.lfree = 0 := by
    rw [← hg']
    exact hlfree
  have hgused : g.used_mem = 0 := by
    rw [← hg']
    exact hused
  have hgmax : g.used_mem ≤ g.max_mem := by omega
  let b : HeapBlock := ⟨h.heap_end, false, by omega, hdvd⟩
  have hb : b.used = false := rfl
  have hlen : b.len = h.heap_end := rfl
  refine ⟨g, hg, hgsize, [b],
    ⟨⟨⟨0, ⟨?_, ?_, ?_, ?_⟩, rfl⟩, ?_, ?_, ?_, ?_⟩, List.isChain_singleton b,
    .inr ⟨b.len, ?_⟩, fun s l hsl => ?_, ?_, hgmax, ?_⟩, b, rfl, hb, hglfree⟩
  · rw [hmem0]
  · rw [hmem0]
    rfl
  · rw [hmem0, hlen, Nat.zero_add]
  · rw [hmem0]
  · rw [total_cons, total_nil, Nat.add_zero, hgend]
  · rw [hgend, hmemn]
  · rw [hgend, hmemn]
  · rw [hgend]
    exact hsmall
  · rw [hglfree, blocksAt_cons_self hb]
    exact List.mem_cons_self
  · rw [blocksAt_cons_free hb] at hsl
    cases hsl
  · rw [hgused, inUse_cons, if_neg (by rw [hb]; exact Bool.false_ne_true), inUse_nil]
  · rw [hgsize]
    exact hroom

/-- `rt_system_heap_init`. -/
theorem rt_system_heap_init_spec {memory : Mem} {begin_addr end_addr : ℕ}
    (hend : end_addr < 2 ^ 32) (hinit : rt_system_heap_init memory begin_addr end_addr = some h)
    (hroom : MIN_SIZE_ALIGNED ≤ h.mem_size_aligned) : ∃ bs, Layout h bs ∧ Fresh h bs := by
  rw [rt_system_heap_init] at hinit
  split at hinit
  case isFalse => cases hinit
  case isTrue hok =>
    have hsize : SIZEOF_STRUCT_MEM = 16 := rfl
    have halign : RT_ALIGN begin_addr % 4 = 0 := by
      rw [RT_ALIGN]
      omega
    have hsize' : h.mem_size_aligned =
        end_addr / 4 * 4 - RT_ALIGN begin_addr - 2 * SIZEOF_STRUCT_MEM := by
      rw [format_eq] at hinit
      cases hinit
      rfl
    generalize hg : Heap.mk _ _ _ _ _ = g at hinit
    have hgsize : g.mem_size_aligned = h.mem_size_aligned := by rw [hsize', ← hg]
    have hgend : g.heap_end = h.mem_size_aligned + SIZEOF_STRUCT_MEM := by rw [heap_end, hgsize]
    obtain ⟨h', hrun, -, hspec⟩ := format_spec (h := g) (by omega) (by omega) (by omega)
      (by rw [← hg]) (by rw [← hg])
    rw [hrun] at hinit
    cases hinit
    exact hspec

/-- Nothing is counted yet. -/
theorem used_mem_of_rt_system_heap_init {memory : Mem} {begin_addr end_addr : ℕ}
    (hinit : rt_system_heap_init memory begin_addr end_addr = some h) :
    h.used_mem = 0 ∧ h.max_mem = 0 := by
  rw [rt_system_heap_init] at hinit
  split at hinit
  case isFalse => cases hinit
  case isTrue =>
    rw [format_eq] at hinit
    cases hinit
    exact ⟨rfl, rfl⟩

end Whole

end Heap

end Kernel
