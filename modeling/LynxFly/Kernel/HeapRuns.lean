-- SUMMARY: Clients of the heap: what holds of their memory in every run of allocations, releases and writes.
import LynxFly.Kernel.HeapBlocks

/-!
# Clients of the heap

Threads allocate, resize and release blocks, and write into those they hold. The semaphore of
the heap makes each section of the allocator one step, and a thread may do anything to its own
blocks in between.
-/

namespace Kernel

open Bytes Blocks
open Heap (HeapBlock)

/-- One step of a client. `rt_realloc` is several: `resize` is its section on the block it has. -/
inductive HeapAct where
  | malloc (rt_current_thread size : ℕ)
  | free (rmem : ℕ)
  | resize (rmem newsize : ℕ)
  | write (addr : ℕ) (v : BitVec 8)

/-- The heap, and the sizes the clients hold, by pointer. -/
structure Clients where
  heap : Heap
  held : ℕ → Option ℕ

namespace Clients

/-- A step, if the allocator gets through it. -/
def step (fuel : ℕ) (s : Clients) : HeapAct → Option Clients
  | .malloc rt_current_thread size => do
    match ← s.heap.rt_malloc fuel rt_current_thread size with
    | (h, none) => some { s with heap := h }
    | (h, some p) => some ⟨h, Function.update s.held p (some (RT_ALIGN size))⟩
  | .free rmem => do
    some ⟨← s.heap.rt_free (some rmem), Function.update s.held rmem none⟩
  | .resize rmem newsize =>
    if s.heap.mem_size_aligned < RT_ALIGN newsize then
      some s
    else do
      match ← s.heap.resize rmem (RT_ALIGN newsize) with
      | (h, none) => some ⟨h, Function.update s.held rmem (some (RT_ALIGN newsize))⟩
      | (h, some _) => some { s with heap := h }
  | .write addr v =>
    some { s with heap := { s.heap with heap_ptr := Function.update s.heap.heap_ptr addr v } }

def run (fuel : ℕ) (s : Clients) (acts : List HeapAct) : Option Clients := acts.foldlM (step fuel) s

/-- Clients release and resize what they hold, and write only there. -/
def Legal (s : Clients) : HeapAct → Prop
  | .malloc _ _ => True
  | .free rmem => (s.held rmem).isSome
  | .resize rmem _ => (s.held rmem).isSome
  | .write addr _ => ∃ p n, s.held p = some n ∧ p ≤ addr ∧ addr < p + n

/-- Every step of the run is as it should be where it is taken. -/
def Along (P : Clients → HeapAct → Prop) (fuel : ℕ) : Clients → List HeapAct → Prop
  | _, [] => True
  | s, a :: as => P s a ∧ ∀ s', s.step fuel a = some s' → Along P fuel s' as

/-- The pointer a step gives back or resizes. -/
def target : HeapAct → Option ℕ
  | .malloc _ _ => none
  | .free rmem => some rmem
  | .resize rmem _ => some rmem
  | .write _ _ => none

/-- The clients hold the used blocks, each with room for what it was asked for. -/
structure Owns (held : ℕ → Option ℕ) (bs : List HeapBlock) : Prop where
  held_used : ∀ p n, held p = some n → ∃ s l, (s, l) ∈ blocksAt true 0 bs ∧
    p = s + SIZEOF_STRUCT_MEM ∧ n + SIZEOF_STRUCT_MEM ≤ l
  used_held : ∀ s l, (s, l) ∈ blocksAt true 0 bs → (held (s + SIZEOF_STRUCT_MEM)).isSome

/-- What holds between steps; a heap with nothing in use is searched from its start. -/
structure Inv (s : Clients) (bs : List HeapBlock) : Prop where
  layout : s.heap.Layout bs
  owns : Owns s.held bs
  cleared : blocksAt true 0 bs = [] → s.heap.lfree = 0

/-- What a step does to the blocks it is not about. -/
structure Stepped (s s' : Clients) (bs bs' : List HeapBlock) (a : HeapAct) : Prop where
  inv : s'.Inv bs'
  size : s'.heap.mem_size_aligned = s.heap.mem_size_aligned
  max_mem : s'.heap.max_mem = max s.heap.max_mem s'.heap.used_mem
  kept : ∀ t l, (t, l) ∈ blocksAt true 0 bs → target a ≠ some (t + SIZEOF_STRUCT_MEM) →
    (t, l) ∈ blocksAt true 0 bs' ∧
      s'.held (t + SIZEOF_STRUCT_MEM) = s.held (t + SIZEOF_STRUCT_MEM) ∧
      ∀ i, t + SIZEOF_STRUCT_MEM ≤ i → i < t + l → (∀ v, a ≠ .write i v) →
        s'.heap.heap_ptr i = s.heap.heap_ptr i

section Steps

variable {s : Clients} {bs : List HeapBlock} {fuel : ℕ}

/-- There are never too many blocks for a search. -/
theorem length_lt (hl : s.heap.Layout bs) (hfuel : s.heap.mem_size_aligned ≤ fuel) :
    bs.length + 1 < fuel := by
  have hlen : ∀ bs : List HeapBlock, SIZEOF_STRUCT_MEM * bs.length ≤ Blocks.total bs := by
    intro bs
    induction bs with
    | nil => exact le_rfl
    | cons b bs ih =>
      have hroom := b.room
      rw [List.length_cons, total_cons, Nat.mul_succ]
      omega
  have hlen : 16 * bs.length ≤ Blocks.total bs := hlen bs
  have htotal := hl.total
  have hroom := hl.room
  have hend : s.heap.heap_end = s.heap.mem_size_aligned + SIZEOF_STRUCT_MEM := rfl
  have hsize : SIZEOF_STRUCT_MEM = 16 := rfl
  have hmin : MIN_SIZE_ALIGNED = 12 := rfl
  omega

theorem align_le_request (size : ℕ) : RT_ALIGN size ≤ Heap.request size := by
  unfold Heap.request
  split <;> omega

/-- One block is held with another size, or newly. -/
theorem Owns.update {held : ℕ → Option ℕ} {bs' : List HeapBlock} {t k n : ℕ} (ho : Owns held bs)
    (hused : ∀ s l, (s, l) ∈ blocksAt true 0 bs' ↔
      (s, l) = (t, k) ∨ (s, l) ∈ blocksAt true 0 bs ∧ s ≠ t)
    (hn : n + SIZEOF_STRUCT_MEM ≤ k) :
    Owns (Function.update held (t + SIZEOF_STRUCT_MEM) (some n)) bs' where
  held_used p m hp := by
    by_cases hpt : p = t + SIZEOF_STRUCT_MEM
    · subst hpt
      rw [Function.update_self] at hp
      cases hp
      exact ⟨t, k, (hused _ _).mpr (.inl rfl), rfl, hn⟩
    · rw [Function.update_of_ne hpt] at hp
      obtain ⟨s, l, hsl, h1, h2⟩ := ho.held_used p m hp
      exact ⟨s, l, (hused _ _).mpr (.inr ⟨hsl, fun heq => hpt (by rw [h1, heq])⟩), h1, h2⟩
  used_held s l hsl := by
    rcases (hused _ _).mp hsl with heq | ⟨hsl, hne⟩
    · cases heq
      rw [Function.update_self]
      rfl
    · rw [Function.update_of_ne fun heq => hne (Nat.add_right_cancel heq)]
      exact ho.used_held s l hsl

/-- One block is given back. -/
theorem Owns.remove {held : ℕ → Option ℕ} {bs' : List HeapBlock} {t : ℕ} (ho : Owns held bs)
    (hused : ∀ s l, (s, l) ∈ blocksAt true 0 bs' ↔ (s, l) ∈ blocksAt true 0 bs ∧ s ≠ t) :
    Owns (Function.update held (t + SIZEOF_STRUCT_MEM) none) bs' where
  held_used p m hp := by
    by_cases hpt : p = t + SIZEOF_STRUCT_MEM
    · subst hpt
      rw [Function.update_self] at hp
      cases hp
    · rw [Function.update_of_ne hpt] at hp
      obtain ⟨s, l, hsl, h1, h2⟩ := ho.held_used p m hp
      exact ⟨s, l, (hused _ _).mpr ⟨hsl, fun heq => hpt (by rw [h1, heq])⟩, h1, h2⟩
  used_held s l hsl := by
    obtain ⟨hsl, hne⟩ := (hused _ _).mp hsl
    rw [Function.update_of_ne fun heq => hne (Nat.add_right_cancel heq)]
    exact ho.used_held s l hsl

/-- A step that changes nothing. -/
theorem Stepped.idle (hi : s.Inv bs) (a : HeapAct) : Stepped s s bs bs a :=
  ⟨hi, rfl, (max_eq_left hi.layout.max_mem).symm, fun _ _ htl _ => ⟨htl, rfl, fun _ _ _ _ => rfl⟩⟩

theorem size_pos : 0 < SIZEOF_STRUCT_MEM := by decide

/-- A free block is not where a used one is. -/
theorem ne_of_free {b : HeapBlock} {xs ys : List HeapBlock} {t l : ℕ} (hb : b.used = false)
    (h : (t, l) ∈ blocksAt true 0 (xs ++ b :: ys)) : t ≠ Blocks.total xs := by
  have hroom := b.room
  have hpos := size_pos
  rcases mem_blocksAt_around.mp h with h1 | ⟨h1, -⟩ | h1
  · have hb := mem_blocksAt_bounds h1
    omega
  · rw [hb] at h1
    cases h1
  · have hb := mem_blocksAt_bounds h1
    omega

/-- `rt_malloc`. -/
theorem step_malloc (hi : s.Inv bs) (hfuel : s.heap.mem_size_aligned ≤ fuel) (th size : ℕ) :
    ∃ s' bs', s.step fuel (.malloc th size) = some s' ∧ Stepped s s' bs bs' (.malloc th size) ∧
      (s.heap.Lowest bs → s'.heap.Lowest bs') := by
  obtain ⟨hl, ho, hcl⟩ := hi
  rcases Heap.rt_malloc_spec th size hl (length_lt hl hfuel) with
    ⟨hrun, -⟩ | ⟨xs, b, ys, h', rfl, -, -, hrun, ht⟩
  · refine ⟨s, bs, ?_, Stepped.idle ⟨hl, ho, hcl⟩ _, id⟩
    rw [step, hrun]
    rfl
  · obtain ⟨k, hk, -, huse⟩ := Heap.used_carve (p := Blocks.total xs) Heap.dvd_request ht.fits
    have hused : ∀ t l,
        (t, l) ∈ blocksAt true 0 (xs ++ (Heap.carve b (Heap.request size) Heap.dvd_request ++ ys)) ↔
          (t, l) = (Blocks.total xs, k) ∨
            (t, l) ∈ blocksAt true 0 (xs ++ b :: ys) ∧ t ≠ Blocks.total xs := by
      intro t l
      rw [Heap.mem_carve_around, huse, List.mem_singleton, ← mem_blocksAt_ne size_pos, or_left_comm]
    have hne : ∀ t l, (t, l) ∈ blocksAt true 0 (xs ++ b :: ys) → t ≠ Blocks.total xs :=
      fun t l htl => ne_of_free ht.free htl
    have hle := align_le_request size
    refine ⟨⟨h', Function.update s.held (Blocks.total xs + SIZEOF_STRUCT_MEM)
        (some (RT_ALIGN size))⟩,
      _, ?_, ⟨⟨ht.layout, ho.update hused (by omega),
        fun hnil => absurd hnil (List.ne_nil_of_mem ((hused _ _).mpr (.inl rfl)))⟩,
        ht.size, ht.max_mem,
        fun t l htl _ =>
      ⟨(hused _ _).mpr (.inr ⟨htl, hne t l htl⟩), Function.update_of_ne
        (fun heq => hne t l htl (Nat.add_right_cancel heq)) _ _, fun i h1 h2 _ =>
          ht.data t l htl i h1 h2⟩⟩, ht.lowest⟩
    rw [step, hrun]
    rfl

/-- Whoever holds a pointer has a used block. -/
theorem Inv.exists_block {p n : ℕ} (hi : s.Inv bs) (hp : s.held p = some n) :
    ∃ xs b ys, bs = xs ++ b :: ys ∧ b.used = true ∧ p = Blocks.total xs + SIZEOF_STRUCT_MEM ∧
      n + SIZEOF_STRUCT_MEM ≤ b.len := by
  obtain ⟨t, l, htl, rfl, hn⟩ := hi.owns.held_used p n hp
  obtain ⟨xs, b, ys, rfl, hb, rfl, rfl⟩ := exists_of_mem_blocksAt htl
  exact ⟨xs, b, ys, rfl, hb, by rw [Nat.zero_add], hn⟩

/-- `rt_free`. -/
theorem step_free {p n : ℕ} (fuel : ℕ) (hi : s.Inv bs) (hp : s.held p = some n) :
    ∃ s' bs', s.step fuel (.free p) = some s' ∧ Stepped s s' bs bs' (.free p) ∧
      (s.heap.Lowest bs → s'.heap.Lowest bs') := by
  obtain ⟨xs, b, ys, rfl, hb, rfl, -⟩ := hi.exists_block hp
  obtain ⟨hl, ho, hcl⟩ := hi
  obtain ⟨h', hrun, hl', hdata, hlow, hsize, hmax, hle⟩ := Heap.rt_free_spec hl hb
  have hused : ∀ t l, (t, l) ∈ blocksAt true 0 (mergeFree (xs ++ b.drop :: ys)) ↔
      (t, l) ∈ blocksAt true 0 (xs ++ b :: ys) ∧ t ≠ Blocks.total xs := by
    intro t l
    rw [blocksAt_mergeFree, blocksAt_append, List.mem_append, Nat.zero_add, blocksAt_cons_free rfl,
      Block.len_drop, mem_blocksAt_ne size_pos]
  refine ⟨⟨h', Function.update s.held (Blocks.total xs + SIZEOF_STRUCT_MEM) none⟩, _, ?_,
    ⟨⟨hl', ho.remove hused, fun hnil => ?_⟩, hsize, ?_, fun t l htl hne => ?_⟩, hlow⟩
  · rw [step, hrun]
    rfl
  · -- All is one free block, and the search was not left at the end.
    have hin := hl.inside _ _ (mem_blocksAt_around.mpr (.inr (.inl ⟨hb, rfl⟩)))
    have hend : h'.heap_end = s.heap.heap_end := by rw [Heap.heap_end, hsize, Heap.heap_end]
    have hne : mergeFree (xs ++ b.drop :: ys) ≠ [] := by
      intro hnil
      have htotal := hl'.total
      rw [hnil, total_nil] at htotal
      omega
    obtain ⟨d, hd, hdfree⟩ := eq_singleton_of_unused hl'.coalesced hnil hne
    have hstarts := hl'.starts
    rw [hd] at hstarts
    rcases hstarts with h1 | ⟨l, h1⟩
    · omega
    · rw [blocksAt_cons_self hdfree, blocksAt_nil, List.mem_singleton] at h1
      exact (Prod.mk.inj h1).1
  · show h'.max_mem = max s.heap.max_mem h'.used_mem
    rw [← hmax, max_eq_left hl'.max_mem]
  · have hne : t ≠ Blocks.total xs := fun heq => hne (by rw [heq]; rfl)
    have htl' := (hused t l).mpr ⟨htl, hne⟩
    refine ⟨htl', Function.update_of_ne (fun heq => hne (Nat.add_right_cancel heq)) _ _,
      fun i h1 h2 _ => hdata t l ?_ i h1 h2⟩
    rwa [blocksAt_mergeFree] at htl'

/-- Where a section of `rt_realloc` that cuts a block keeps the search at the lowest free block. -/
def Sees (s : Clients) : HeapAct → Prop
  | .resize rmem newsize =>
    RT_ALIGN newsize + SIZEOF_STRUCT_MEM + MIN_SIZE + rmem <
        (s.heap.mem (rmem - SIZEOF_STRUCT_MEM)).next →
      s.heap.lfree < rmem - SIZEOF_STRUCT_MEM ∨
        s.heap.lfree = (s.heap.mem (rmem - SIZEOF_STRUCT_MEM)).next ∧ s.heap.lfree ≠ s.heap.heap_end
  | _ => True

/-- `resize`. -/
theorem step_resize {p n : ℕ} (fuel : ℕ) (hi : s.Inv bs) (hp : s.held p = some n) (newsize : ℕ) :
    ∃ s' bs', s.step fuel (.resize p newsize) = some s' ∧ Stepped s s' bs bs' (.resize p newsize) ∧
      (s.heap.Lowest bs → (s'.heap.Lowest bs' ↔ s.Sees (.resize p newsize))) ∧
      ∀ i, p ≤ i → i < p + n → i < p + RT_ALIGN newsize →
        s'.heap.heap_ptr i = s.heap.heap_ptr i := by
  obtain ⟨xs, b, ys, rfl, hb, rfl, hn⟩ := hi.exists_block hp
  obtain ⟨hl, ho, hcl⟩ := hi
  obtain ⟨q, hh⟩ := hl.header
  have hsees : s.Sees (.resize (Blocks.total xs + SIZEOF_STRUCT_MEM) newsize) ↔
      (RT_ALIGN newsize + SIZEOF_STRUCT_MEM + MIN_SIZE + SIZEOF_STRUCT_MEM < b.len →
        s.heap.lfree < Blocks.total xs ∨
          s.heap.lfree = Blocks.total xs + b.len ∧ s.heap.lfree ≠ s.heap.heap_end) := by
    rw [Sees, Nat.add_sub_cancel, hh.next]
    refine imp_congr_left ?_
    omega
  have hend := hl.bounds.2
  have hstop : s.heap.heap_end = s.heap.mem_size_aligned + SIZEOF_STRUCT_MEM := rfl
  have hothers : ∀ u t l,
      (t, l) ∈ blocksAt u 0 xs ∨ (t, l) ∈ blocksAt u (Blocks.total xs + b.len) ys ↔
        (t, l) ∈ blocksAt u 0 (xs ++ b :: ys) ∧ t ≠ Blocks.total xs :=
    fun u t l => mem_blocksAt_ne size_pos
  -- The blocks stay as they are: nothing was to be cut.
  have hstay : ¬RT_ALIGN newsize + SIZEOF_STRUCT_MEM + MIN_SIZE + SIZEOF_STRUCT_MEM < b.len →
      (s.heap.Lowest (xs ++ b :: ys) → (s.heap.Lowest (xs ++ b :: ys) ↔
        s.Sees (.resize (Blocks.total xs + SIZEOF_STRUCT_MEM) newsize))) := by
    intro hcut hlow
    rw [hsees]
    exact ⟨fun _ h1 => absurd h1 hcut, fun _ => hlow⟩
  have hidle : Stepped s s (xs ++ b :: ys) (xs ++ b :: ys)
      (.resize (Blocks.total xs + SIZEOF_STRUCT_MEM) newsize) := Stepped.idle ⟨hl, ho, hcl⟩ _
  by_cases hbig : s.heap.mem_size_aligned < RT_ALIGN newsize
  · exact ⟨s, _, if_pos hbig, hidle, hstay (by omega), fun _ _ _ _ => rfl⟩
  have hne : ∀ t, target (.resize (Blocks.total xs + SIZEOF_STRUCT_MEM) newsize) ≠
      some (t + SIZEOF_STRUCT_MEM) → t ≠ Blocks.total xs := by
    rintro t hne rfl
    exact hne rfl
  rcases Heap.resize_spec hl hb (Nat.dvd_mul_left 4 (uadd newsize 3 / 4)) (not_lt.mp hbig) with
    ⟨hrun, hlen⟩ | ⟨h', c, d, hrun, hc, hs⟩ | ⟨hrun, -, hle⟩
  · have hused : ∀ t l, (t, l) ∈ blocksAt true 0 (xs ++ b :: ys) ↔
        (t, l) = (Blocks.total xs, b.len) ∨
          (t, l) ∈ blocksAt true 0 (xs ++ b :: ys) ∧ t ≠ Blocks.total xs := by
      intro t l
      rw [← hothers, mem_blocksAt_around, Nat.zero_add, and_iff_right hb, or_left_comm]
    refine ⟨⟨s.heap, Function.update s.held (Blocks.total xs + SIZEOF_STRUCT_MEM)
      (some (RT_ALIGN newsize))⟩, _, ?_, ⟨⟨hl, ho.update hused hlen.ge, hcl⟩, rfl,
        (max_eq_left hl.max_mem).symm, fun t l htl hne' =>
        ⟨htl, Function.update_of_ne (fun heq => hne t hne' (Nat.add_right_cancel heq)) _ _,
          fun _ _ _ _ => rfl⟩⟩, hstay (by rw [RT_ALIGN]; omega), fun _ _ _ _ => rfl⟩
    rw [step, if_neg hbig]
    show (s.heap.resize _ (uadd newsize 3 / 4 * 4)).bind _ = _
    rw [hrun]
    rfl
  · have hbdy : Blocks.total xs + c.len + d.len = Blocks.total xs + b.len := by
      rw [Nat.add_assoc, hs.len]
    have hroom := hs.room
    have hlenb := hs.len
    have hused : ∀ t l, (t, l) ∈ blocksAt true 0 (mergeFree (xs ++ c :: d :: ys)) ↔
        (t, l) = (Blocks.total xs, c.len) ∨
          (t, l) ∈ blocksAt true 0 (xs ++ b :: ys) ∧ t ≠ Blocks.total xs := by
      intro t l
      rw [← hothers, blocksAt_mergeFree, mem_blocksAt_around, Nat.zero_add, and_iff_right hs.kept,
        blocksAt_cons_free hs.rest, hbdy, or_left_comm]
    refine ⟨⟨h', Function.update s.held (Blocks.total xs + SIZEOF_STRUCT_MEM)
      (some (RT_ALIGN newsize))⟩, _, ?_, ⟨⟨hs.layout, ho.update hused hc.ge,
        fun hnil => absurd hnil (List.ne_nil_of_mem ((hused _ _).mpr (.inl rfl)))⟩, hs.size, ?_,
        fun t l htl hne' => ?_⟩, fun hlow => ?_, fun i h1 h2 h3 => ?_⟩
    · rw [step, if_neg hbig]
      show (s.heap.resize _ (uadd newsize 3 / 4 * 4)).bind _ = _
      rw [hrun]
      rfl
    · show h'.max_mem = max s.heap.max_mem h'.used_mem
      rw [← hs.max_mem, max_eq_left hs.layout.max_mem]
    · have hne' := hne t hne'
      have htl' := (hused t l).mpr (.inr ⟨htl, hne'⟩)
      refine ⟨htl', Function.update_of_ne (fun heq => hne' (Nat.add_right_cancel heq)) _ _,
        fun i h1 h2 _ => hs.data t l ?_ i h1 h2⟩
      rwa [blocksAt_mergeFree] at htl'
    · rw [hsees]
      refine (hs.lowest hlow).trans ⟨fun h1 _ => h1, fun h1 => h1 ?_⟩
      rw [RT_ALIGN]
      omega
    · have htl' := (hused _ _).mpr (.inl rfl)
      rw [blocksAt_mergeFree] at htl'
      refine hs.data _ _ htl' i h1 ?_
      rw [RT_ALIGN] at h3
      omega
  · refine ⟨s, _, ?_, hidle, hstay (by rw [RT_ALIGN]; omega), fun _ _ _ _ => rfl⟩
    rw [step, if_neg hbig]
    show (s.heap.resize _ (uadd newsize 3 / 4 * 4)).bind _ = _
    rw [hrun]
    rfl

/-- A write into a held block. -/
theorem step_write {p n addr : ℕ} {v : BitVec 8} (fuel : ℕ) (hi : s.Inv bs) (hp : s.held p = some n)
    (hlo : p ≤ addr) (hhi : addr < p + n) :
    ∃ s', s.step fuel (.write addr v) = some s' ∧ Stepped s s' bs bs (.write addr v) ∧
      (s.heap.Lowest bs → s'.heap.Lowest bs) := by
  obtain ⟨xs, b, ys, rfl, hb, rfl, hn⟩ := hi.exists_block hp
  obtain ⟨hl, ho, hcl⟩ := hi
  refine ⟨{ s with heap := { s.heap with heap_ptr := Function.update s.heap.heap_ptr addr v } },
    rfl,
    ⟨⟨?_, ho, hcl⟩, rfl, (max_eq_left hl.max_mem).symm, fun t l htl _ =>
      ⟨htl, rfl, fun i _ _ hw => Function.update_of_ne ?_ _ _⟩⟩, id⟩
  · exact ⟨hl.toChain.scribble hlo (by omega), hl.coalesced, hl.starts, hl.inside, hl.used_mem,
      hl.max_mem, hl.room⟩
  · rintro rfl
    exact hw v rfl

/-- Every legal step goes through, and keeps what it is not about. -/
theorem exists_stepped {a : HeapAct} (fuel : ℕ) (hi : s.Inv bs)
    (hfuel : s.heap.mem_size_aligned ≤ fuel) (ha : s.Legal a) :
    ∃ s' bs', s.step fuel a = some s' ∧ Stepped s s' bs bs' a ∧
      (s.heap.Lowest bs → s.Sees a → s'.heap.Lowest bs') := by
  cases a with
  | malloc th size =>
    obtain ⟨s', bs', hrun, hs, hlow⟩ := step_malloc hi hfuel th size
    exact ⟨s', bs', hrun, hs, fun h1 _ => hlow h1⟩
  | free p =>
    obtain ⟨n, hp⟩ := Option.isSome_iff_exists.mp ha
    obtain ⟨s', bs', hrun, hs, hlow⟩ := step_free fuel hi hp
    exact ⟨s', bs', hrun, hs, fun h1 _ => hlow h1⟩
  | resize p newsize =>
    obtain ⟨n, hp⟩ := Option.isSome_iff_exists.mp ha
    obtain ⟨s', bs', hrun, hs, hlow, -⟩ := step_resize fuel hi hp newsize
    exact ⟨s', bs', hrun, hs, fun h1 h2 => (hlow h1).mpr h2⟩
  | write addr v =>
    obtain ⟨p, n, hp, hlo, hhi⟩ := ha
    obtain ⟨s', hrun, hs, hlow⟩ := step_write (v := v) fuel hi hp hlo hhi
    exact ⟨s', bs, hrun, hs, fun h1 _ => hlow h1⟩

end Steps

/-! ## Runs -/

/-- What a run does to the blocks it is not about. -/
structure Ran (s s' : Clients) (bs bs' : List HeapBlock) (acts : List HeapAct) : Prop where
  inv : s'.Inv bs'
  size : s'.heap.mem_size_aligned = s.heap.mem_size_aligned
  kept : ∀ t l, (t, l) ∈ blocksAt true 0 bs →
    (∀ a ∈ acts, target a ≠ some (t + SIZEOF_STRUCT_MEM)) → (t, l) ∈ blocksAt true 0 bs' ∧
      s'.held (t + SIZEOF_STRUCT_MEM) = s.held (t + SIZEOF_STRUCT_MEM) ∧
      ∀ i, t + SIZEOF_STRUCT_MEM ≤ i → i < t + l → (∀ a ∈ acts, ∀ v, a ≠ .write i v) →
        s'.heap.heap_ptr i = s.heap.heap_ptr i

section Runs

variable {s s' : Clients} {bs bs' : List HeapBlock} {fuel : ℕ} {acts : List HeapAct}
  {P Q : Clients → HeapAct → Prop}

theorem run_cons (a : HeapAct) (as : List HeapAct) :
    run fuel s (a :: as) = (s.step fuel a).bind fun s' => run fuel s' as := rfl

theorem run_append (as as' : List HeapAct) :
    run fuel s (as ++ as') = (run fuel s as).bind fun s' => run fuel s' as' :=
  List.foldlM_append

theorem Along.mono (hPQ : ∀ s a, P s a → Q s a) (h : Along P fuel s acts) :
    Along Q fuel s acts := by
  induction acts generalizing s with
  | nil => trivial
  | cons a as ih => exact ⟨hPQ s a h.1, fun s' hs' => ih (h.2 s' hs')⟩

/-- Every legal run goes through. -/
theorem exists_ran (hi : s.Inv bs) (hfuel : s.heap.mem_size_aligned ≤ fuel)
    (hlegal : Along Legal fuel s acts) : ∃ s' bs', run fuel s acts = some s' ∧
      Ran s s' bs bs' acts ∧ (s.heap.Lowest bs → Along Sees fuel s acts → s'.heap.Lowest bs') := by
  induction acts generalizing s bs with
  | nil =>
    exact ⟨s, bs, rfl, ⟨hi, rfl, fun t l htl _ => ⟨htl, rfl, fun _ _ _ _ => rfl⟩⟩, fun h1 _ => h1⟩
  | cons a as ih =>
    obtain ⟨s1, bs1, hrun1, hs1, hlow1⟩ := exists_stepped fuel hi hfuel hlegal.1
    obtain ⟨s2, bs2, hrun2, hs2, hlow2⟩ := ih hs1.inv (by rw [hs1.size]; exact hfuel)
      (hlegal.2 s1 hrun1)
    refine ⟨s2, bs2, ?_, ⟨hs2.inv, hs2.size.trans hs1.size, fun t l htl hne => ?_⟩,
      fun h1 h2 => hlow2 (hlow1 h1 h2.1) (h2.2 s1 hrun1)⟩
    · rw [run_cons, hrun1, Option.bind_some, hrun2]
    · obtain ⟨h1, h2, h3⟩ := hs1.kept t l htl (hne a List.mem_cons_self)
      obtain ⟨h4, h5, h6⟩ := hs2.kept t l h1 fun a' ha' => hne a' (List.mem_cons_of_mem a ha')
      refine ⟨h4, h5.trans h2, fun i hlo hhi hw => ?_⟩
      rw [h6 i hlo hhi fun a' ha' => hw a' (List.mem_cons_of_mem a ha'),
        h3 i hlo hhi (hw a List.mem_cons_self)]

theorem Along.append {as as' : List HeapAct} (hrun : run fuel s as = some s') :
    Along P fuel s (as ++ as') ↔ Along P fuel s as ∧ Along P fuel s' as' := by
  induction as generalizing s with
  | nil =>
    cases hrun
    exact ⟨fun h => ⟨trivial, h⟩, fun h => h.2⟩
  | cons a as ih =>
    rw [run_cons] at hrun
    obtain ⟨s1, h1, h2⟩ := Option.bind_eq_some_iff.mp hrun
    constructor
    · intro h
      refine ⟨⟨h.1, fun s2 hs2 => ?_⟩, ((ih h2).mp (h.2 s1 h1)).2⟩
      rw [h1] at hs2
      cases hs2
      exact ((ih h2).mp (h.2 s1 h1)).1
    · rintro ⟨⟨h3, h4⟩, h5⟩
      refine ⟨h3, fun s2 hs2 => ?_⟩
      rw [h1] at hs2
      cases hs2
      exact (ih h2).mpr ⟨h4 s1 h1, h5⟩

/-- A run that is given step by step. -/
theorem Along.cons {a : HeapAct} {as : List HeapAct} {s1 : Clients} (hs : s.step fuel a = some s1)
    (ha : P s a) (h : Along P fuel s1 as) : Along P fuel s (a :: as) := by
  refine ⟨ha, fun s2 hs2 => ?_⟩
  rw [hs] at hs2
  cases hs2
  exact h

end Runs

/-! ## From the start on -/

/-- A heap nobody has taken anything from. -/
def boot (h : Heap) : Clients := ⟨h, fun _ => none⟩

section Start

variable {memory : Mem} {begin_addr end_addr fuel : ℕ} {h : Heap} {s s' : Clients}
  {bs bs' : List HeapBlock} {acts acts' : List HeapAct}

theorem inv_boot (hend : end_addr < 2 ^ 32)
    (hinit : Heap.rt_system_heap_init memory begin_addr end_addr = some h)
    (hroom : MIN_SIZE_ALIGNED ≤ h.mem_size_aligned) :
    ∃ bs, (boot h).Inv bs ∧ h.Lowest bs := by
  obtain ⟨bs, hl, b, rfl, hb, hlfree⟩ := Heap.rt_system_heap_init_spec hend hinit hroom
  have hnone : blocksAt true 0 [b] = [] := blocksAt_cons_free hb
  refine ⟨[b], ⟨hl, ⟨fun p n hp => ?_, fun t l htl => ?_⟩, fun _ => hlfree⟩, fun t l _ => ?_⟩
  · cases hp
  · rw [hnone] at htl
    cases htl
  · rw [hlfree]
    exact Nat.zero_le t

/-- Two pointers that are held lie apart, a header between them. -/
theorem Inv.apart {p q n m : ℕ} (hi : s.Inv bs) (hp : s.held p = some n) (hq : s.held q = some m)
    (hpq : p < q) : p + n + SIZEOF_STRUCT_MEM ≤ q := by
  obtain ⟨t, l, htl, rfl, hn⟩ := hi.owns.held_used p n hp
  obtain ⟨t', l', htl', rfl, hm⟩ := hi.owns.held_used q m hq
  have hle := le_of_mem_blocksAt htl htl' (Nat.lt_of_add_lt_add_right hpq)
  omega

/-- A pointer that is held is aligned, and its data lies in the heap. -/
theorem Inv.bounds {p n : ℕ} (hi : s.Inv bs) (hp : s.held p = some n) :
    4 ∣ p ∧ SIZEOF_STRUCT_MEM ≤ p ∧ p + n ≤ s.heap.heap_end := by
  obtain ⟨xs, b, ys, rfl, -, rfl, hn⟩ := hi.exists_block hp
  have hend := hi.layout.bounds.2
  exact ⟨Nat.dvd_add dvd_total (by decide), Nat.le_add_left _ _, by omega⟩

theorem Inv.memcheck (hi : s.Inv bs) (hfuel : s.heap.mem_size_aligned ≤ fuel) :
    s.heap.memcheck fuel 0 = some true := by
  obtain ⟨q, hs⟩ := hi.layout.seg
  have hlen := length_lt hi.layout hfuel
  exact Heap.memcheck_spec hs le_rfl (by rw [Nat.zero_add, hi.layout.total]) (by omega)

/-- A block that `rt_malloc` gives is none of those held. -/
theorem Inv.malloc {th size q : ℕ} (hi : s.Inv bs) (hfuel : s.heap.mem_size_aligned ≤ fuel)
    (hrun : s.heap.rt_malloc fuel th size = some (h, some q)) :
    s.step fuel (.malloc th size) = some ⟨h, Function.update s.held q (some (RT_ALIGN size))⟩ ∧
      s.held q = none := by
  have hstep : s.step fuel (.malloc th size) =
      some ⟨h, Function.update s.held q (some (RT_ALIGN size))⟩ := by
    rw [step, hrun]
    rfl
  refine ⟨hstep, ?_⟩
  rcases Heap.rt_malloc_spec th size hi.layout (length_lt hi.layout hfuel) with
    ⟨hrun', -⟩ | ⟨xs, b, ys, h', rfl, -, -, hrun', ht⟩
  · rw [hrun'] at hrun
    cases hrun
  · rw [hrun'] at hrun
    cases hrun
    by_contra hheld
    obtain ⟨m, hm⟩ := Option.ne_none_iff_exists'.mp hheld
    obtain ⟨t, l, htl, heq, -⟩ := hi.owns.held_used _ m hm
    exact ne_of_free ht.free htl (Nat.add_right_cancel heq).symm

/-- A heap of 224 bytes. -/
def small : Heap := (Heap.rt_system_heap_init (fun _ => 0) 0 256).get (by decide +kernel)

theorem small_init : Heap.rt_system_heap_init (fun _ => 0) 0 256 = some small :=
  (Option.some_get _).symm

/-- Its state with one block of 60 bytes taken. -/
def tenant : Clients := ((boot small).step 224 (.malloc 0 60)).get (by decide +kernel)

theorem small_malloc : (boot small).step 224 (.malloc 0 60) = some tenant :=
  (Option.some_get _).symm

theorem tenant_held : tenant.held 16 = some 60 := by decide +kernel

/-- The block is written and given back. -/
theorem tenant_legal : Along Legal 224 tenant [.write 16 7, .free 16] := by
  refine ⟨⟨16, 60, tenant_held, by decide, by decide⟩, fun s1 hs1 => ?_⟩
  cases hs1
  exact ⟨Option.isSome_iff_exists.mpr ⟨60, tenant_held⟩, fun _ _ => trivial⟩

theorem tenant_held_of_ne {p : ℕ} (hp : p ≠ 16) : tenant.held p = none := by
  obtain ⟨⟨h1, r⟩, hm⟩ := Option.isSome_iff_exists.mp
    (by decide +kernel : (small.rt_malloc 224 0 60).isSome)
  have hr : (small.rt_malloc 224 0 60).map Prod.snd = some (some 16) := by decide +kernel
  rw [hm] at hr
  obtain rfl := Option.some.inj hr
  have htenant : some ⟨h1, Function.update (boot small).held 16 (some (RT_ALIGN 60))⟩ =
      some tenant := by
    rw [← small_malloc, step, boot, hm]
    rfl
  rw [← Option.some.inj htenant]
  show Function.update (boot small).held 16 _ p = none
  rw [Function.update_of_ne hp]
  rfl

/-- The state after that. -/
def emptied : Clients := (run 224 tenant [.write 16 7, .free 16]).get (by decide +kernel)

theorem tenant_emptied : run 224 tenant [.write 16 7, .free 16] = some emptied :=
  (Option.some_get _).symm

theorem emptied_held (p : ℕ) : emptied.held p = none := by
  have hrun := tenant_emptied
  rw [run_cons] at hrun
  obtain ⟨s1, hwrite, hrun⟩ := Option.bind_eq_some_iff.mp hrun
  cases hwrite
  rw [run_cons] at hrun
  obtain ⟨s2, hfree, hrun⟩ := Option.bind_eq_some_iff.mp hrun
  rw [← (Option.some.inj hrun : s2 = emptied)]
  obtain ⟨h2, -, heq⟩ := Option.bind_eq_some_iff.mp hfree
  rw [← Option.some.inj heq]
  show Function.update tenant.held 16 none p = none
  by_cases hp : p = 16
  · rw [hp, Function.update_self]
  · rw [Function.update_of_ne hp, tenant_held_of_ne hp]

/-- Whatever the clients do with what they hold, the allocator never gets stuck, its own check
    of the headers passes, and what they hold is aligned, inside the heap, and apart. -/
theorem run_safe (hend : end_addr < 2 ^ 32)
    (hinit : Heap.rt_system_heap_init memory begin_addr end_addr = some h)
    (hroom : MIN_SIZE_ALIGNED ≤ h.mem_size_aligned) (hfuel : h.mem_size_aligned ≤ fuel)
    (hlegal : Along Legal fuel (boot h) acts) :
    ∃ s, run fuel (boot h) acts = some s ∧ s.heap.memcheck fuel 0 = some true ∧
      (∀ p n, s.held p = some n → 4 ∣ p ∧ SIZEOF_STRUCT_MEM ≤ p ∧ p + n ≤ h.heap_end) ∧
      ∀ p q n m, s.held p = some n → s.held q = some m → p < q → p + n + SIZEOF_STRUCT_MEM ≤ q := by
  obtain ⟨bs, hi, -⟩ := inv_boot hend hinit hroom
  obtain ⟨s, bs', hrun, hr, -⟩ := exists_ran hi hfuel hlegal
  have hsize : s.heap.heap_end = h.heap_end := by
    rw [Heap.heap_end, hr.size]
    rfl
  refine ⟨s, hrun, hr.inv.memcheck (by rw [hr.size]; exact hfuel), fun p n hp => ?_,
    fun p q n m hp hq hpq => hr.inv.apart hp hq hpq⟩
  rw [← hsize]
  exact hr.inv.bounds hp

theorem run_safe_small :
    ∃ s, run 224 (boot small) [.malloc 0 60, .write 16 7, .free 16] = some s ∧
      s.heap.memcheck 224 0 = some true ∧
      (∀ p n, s.held p = some n → 4 ∣ p ∧ SIZEOF_STRUCT_MEM ≤ p ∧ p + n ≤ small.heap_end) ∧
      ∀ p q n m, s.held p = some n → s.held q = some m → p < q → p + n + SIZEOF_STRUCT_MEM ≤ q :=
  run_safe (by decide) small_init (by decide +kernel) (by decide +kernel)
    (Along.cons small_malloc trivial tenant_legal)

/-- What the kernel reports: `used_mem` is the size of the blocks in use, headers included, and
    `max_mem` is the most it has been. -/
theorem run_stats (hend : end_addr < 2 ^ 32)
    (hinit : Heap.rt_system_heap_init memory begin_addr end_addr = some h)
    (hroom : MIN_SIZE_ALIGNED ≤ h.mem_size_aligned) (hfuel : h.mem_size_aligned ≤ fuel)
    (hlegal : Along Legal fuel (boot h) acts) (hrun : run fuel (boot h) acts = some s) :
    (∃ bs, s.heap.Layout bs ∧ s.heap.used_mem = ((blocksAt true 0 bs).map Prod.snd).sum) ∧
      (∀ as as' s1, acts = as ++ as' → run fuel (boot h) as = some s1 →
        s1.heap.used_mem ≤ s.heap.max_mem) ∧
      ∃ as as' s1, acts = as ++ as' ∧ run fuel (boot h) as = some s1 ∧
        s1.heap.used_mem = s.heap.max_mem := by
  obtain ⟨bs0, hi0, -⟩ := inv_boot hend hinit hroom
  have hbs : ∃ bs, s.Inv bs := by
    obtain ⟨s', bs, hrun', hran, -⟩ := exists_ran hi0 hfuel hlegal
    rw [hrun] at hrun'
    cases hrun'
    exact ⟨bs, hran.inv⟩
  refine ⟨?_, ?_⟩
  · obtain ⟨bs, hi⟩ := hbs
    exact ⟨bs, hi.layout, hi.layout.used_mem⟩
  clear hbs
  induction acts using List.reverseRecOn generalizing s with
  | nil =>
    cases hrun
    have hzero := Heap.used_mem_of_rt_system_heap_init hinit
    refine ⟨fun as as' s1 hsplit hrun1 => ?_, [], [], boot h, rfl, rfl, hzero.1.trans hzero.2.symm⟩
    obtain ⟨rfl, -⟩ := List.append_eq_nil_iff.mp hsplit.symm
    cases hrun1
    exact (hzero.1.trans hzero.2.symm).le
  | append_singleton as a ih =>
    rw [run_append] at hrun
    obtain ⟨s1, hrun1, hlast⟩ := Option.bind_eq_some_iff.mp hrun
    obtain ⟨hlegal1, ha, -⟩ := (Along.append hrun1).mp hlegal
    obtain ⟨hle, as1, as2, sm, hsplit, hrunm, hmax⟩ := ih hlegal1 hrun1
    obtain ⟨s1', bs1, hrun1', hran, -⟩ := exists_ran hi0 hfuel hlegal1
    rw [hrun1] at hrun1'
    cases hrun1'
    obtain ⟨s', bs', hstep, hs, -⟩ := exists_stepped fuel hran.inv
      (by rw [hran.size]; exact hfuel) ha
    rw [run_cons, hstep] at hlast
    obtain rfl : s' = s := Option.some.inj hlast
    have hcount := hs.max_mem
    refine ⟨fun bs bs' sp hsp hrunp => ?_, ?_⟩
    · -- A proper beginning is one of the run before the last step.
      rcases List.eq_nil_or_concat' bs' with rfl | ⟨cs, x, rfl⟩
      · rw [List.append_nil] at hsp
        subst hsp
        rw [run_append, hrun1, Option.bind_some, run_cons, hstep] at hrunp
        cases hrunp
        omega
      · rw [← List.append_assoc] at hsp
        have hle := hle bs cs sp (List.append_inj_left' hsp rfl) hrunp
        omega
    · rcases le_total s'.heap.used_mem s1.heap.max_mem with hu | hu
      · refine ⟨as1, as2 ++ [a], sm, ?_, hrunm, by omega⟩
        rw [hsplit, List.append_assoc]
      · refine ⟨as ++ [a], [], s', (List.append_nil _).symm, ?_, by omega⟩
        rw [run_append, hrun1, Option.bind_some, run_cons, hstep]
        rfl

theorem run_stats_small :
    (∃ bs, tenant.heap.Layout bs ∧
      tenant.heap.used_mem = ((blocksAt true 0 bs).map Prod.snd).sum) ∧
    (∀ as as' s1, [.malloc 0 60] = as ++ as' → run 224 (boot small) as = some s1 →
      s1.heap.used_mem ≤ tenant.heap.max_mem) ∧
    ∃ as as' s1, [.malloc 0 60] = as ++ as' ∧ run 224 (boot small) as = some s1 ∧
      s1.heap.used_mem = tenant.heap.max_mem :=
  run_stats (by decide) small_init (by decide +kernel) (by decide +kernel)
    (Along.cons small_malloc trivial trivial) (by rw [run_cons, small_malloc]; rfl)

/-- A state that a run of such steps leads to. -/
def Reached (P : Clients → HeapAct → Prop) (fuel : ℕ) (s : Clients) : Prop :=
  ∃ memory begin_addr end_addr h acts, end_addr < 2 ^ 32 ∧
    Heap.rt_system_heap_init memory begin_addr end_addr = some h ∧
      MIN_SIZE_ALIGNED ≤ h.mem_size_aligned ∧ h.mem_size_aligned ≤ fuel ∧
        Along P fuel (boot h) acts ∧ run fuel (boot h) acts = some s

theorem Reached.exists_inv {P : Clients → HeapAct → Prop} (hr : Reached P fuel s)
    (hP : ∀ s a, P s a → s.Legal a) : ∃ bs, s.Inv bs ∧ s.heap.mem_size_aligned ≤ fuel ∧
      ((∀ s a, P s a → s.Sees a) → s.heap.Lowest bs) := by
  obtain ⟨memory, begin_addr, end_addr, h, acts, hend, hinit, hroom, hfuel, hal, hrun⟩ := hr
  obtain ⟨bs, hi, hlow⟩ := inv_boot hend hinit hroom
  obtain ⟨s', bs', hrun', hran, hlow'⟩ := exists_ran hi hfuel (hal.mono hP)
  rw [hrun] at hrun'
  cases hrun'
  exact ⟨bs', hran.inv, by rw [hran.size]; exact hfuel, fun hS => hlow' hlow (hal.mono hS)⟩

theorem Reached.mono {P Q : Clients → HeapAct → Prop} (hPQ : ∀ s a, P s a → Q s a)
    (hr : Reached P fuel s) : Reached Q fuel s := by
  obtain ⟨memory, begin_addr, end_addr, h, acts, hend, hinit, hroom, hfuel, hal, hrun⟩ := hr
  exact ⟨memory, begin_addr, end_addr, h, acts, hend, hinit, hroom, hfuel, hal.mono hPQ, hrun⟩

theorem reached_tenant : Reached (fun s a => s.Legal a ∧ s.Sees a) 224 tenant :=
  ⟨_, _, _, small, [.malloc 0 60], by decide, small_init, by decide +kernel, by decide +kernel,
    Along.cons small_malloc ⟨trivial, trivial⟩ trivial, by rw [run_cons, small_malloc]; rfl⟩

theorem tenant_reached : Reached Legal 224 tenant := reached_tenant.mono fun _ _ h => h.1

/-- Nobody else's steps change what a client holds, or what it has written there. -/
theorem run_isolated {p n : ℕ} (hr : Reached Legal fuel s) (hlegal : Along Legal fuel s acts)
    (hp : s.held p = some n) (hquiet : ∀ a ∈ acts, target a ≠ some p ∧
      ∀ i v, p ≤ i → i < p + n → a ≠ .write i v) :
    ∃ s', run fuel s acts = some s' ∧ s'.held p = some n ∧
      ∀ i, p ≤ i → i < p + n → s'.heap.heap_ptr i = s.heap.heap_ptr i := by
  obtain ⟨bs, hi, hfuel, -⟩ := hr.exists_inv fun _ _ h => h
  obtain ⟨s', bs', hrun, hran, -⟩ := exists_ran hi hfuel hlegal
  obtain ⟨t, l, htl, rfl, hn⟩ := hi.owns.held_used p n hp
  obtain ⟨-, hheld, hdata⟩ := hran.kept t l htl fun a ha => (hquiet a ha).1
  refine ⟨s', hrun, hheld.trans hp, fun i hlo hhi => hdata i hlo (by omega) fun a ha v => ?_⟩
  exact (hquiet a ha).2 i v hlo hhi

theorem run_isolated_tenant : ∃ s', run 224 tenant [.malloc 1 8] = some s' ∧ s'.held 16 = some 60 ∧
    ∀ i, 16 ≤ i → i < 16 + 60 → s'.heap.heap_ptr i = tenant.heap.heap_ptr i :=
  run_isolated tenant_reached ⟨trivial, fun _ _ => trivial⟩ tenant_held (by
    intro a ha
    obtain rfl := List.mem_singleton.mp ha
    exact ⟨by rintro ⟨⟩, by rintro i v - - ⟨⟩⟩)

/-- `rt_malloc` fails only where no free block is large enough, or the one that is would be
    filled to the end of the heap, as long as no search was made to start too far on. -/
theorem rt_malloc_none_iff {th size : ℕ}
    (hr : Reached (fun s a => s.Legal a ∧ s.Sees a) fuel s) (hbs : s.heap.Layout bs) :
    (∃ h', s.heap.rt_malloc fuel th size = some (h', none)) ↔
      size = 0 ∨ s.heap.mem_size_aligned < RT_ALIGN size ∨
        ∀ t l, (t, l) ∈ blocksAt false 0 bs → l < Heap.request size + SIZEOF_STRUCT_MEM ∨
          l = Heap.request size + SIZEOF_STRUCT_MEM ∧ t + l = s.heap.heap_end := by
  obtain ⟨bs', hi, hfuel, hlow⟩ := hr.exists_inv fun _ _ h => h.1
  have hlow := hlow fun _ _ h => h.2
  obtain rfl := hbs.toChain.unique hi.layout.toChain
  have hend : s.heap.heap_end = s.heap.mem_size_aligned + SIZEOF_STRUCT_MEM := rfl
  have htotal := hbs.total
  rcases Heap.rt_malloc_spec th size hbs (length_lt hbs hfuel) with
    ⟨hrun, hwhy⟩ | ⟨xs, b, ys, h', rfl, hzero, hbig, hrun, ht⟩
  · refine ⟨fun _ => ?_, fun _ => ⟨_, hrun⟩⟩
    refine hwhy.imp id (.imp id fun hnone t l htl => ?_)
    have hb := mem_blocksAt_bounds htl
    have hfit := hnone t l htl (hlow t l htl)
    omega
  · constructor
    · rintro ⟨h'', hrun'⟩
      rw [hrun] at hrun'
      cases hrun'
    · intro hwhy
      have hnone := (hwhy.resolve_left hzero).resolve_left (not_lt.mpr hbig)
      have hfits := ht.fits
      have hshort := ht.short
      rcases hnone (0 + Blocks.total xs) b.len
        (mem_blocksAt_around.mpr (.inr (.inl ⟨ht.free, rfl⟩))) with h1 | ⟨h1, h2⟩
      · omega
      · omega

/-- A request that would fill the last block to the end of the heap. -/
theorem rt_malloc_none_tenant : ∃ bs, tenant.heap.Layout bs ∧
    ((∃ h', tenant.heap.rt_malloc 224 1 148 = some (h', none)) ↔
      148 = 0 ∨ tenant.heap.mem_size_aligned < RT_ALIGN 148 ∨
        ∀ t l, (t, l) ∈ blocksAt false 0 bs → l < Heap.request 148 + SIZEOF_STRUCT_MEM ∨
          l = Heap.request 148 + SIZEOF_STRUCT_MEM ∧ t + l = tenant.heap.heap_end) := by
  obtain ⟨bs, hi, -⟩ := reached_tenant.exists_inv fun _ _ h => h.1
  exact ⟨bs, hi.layout, rt_malloc_none_iff reached_tenant hi.layout⟩

/-- Where a shrinking `rt_realloc` leaves the memory it gives back in sight of the next search. -/
theorem lowest_resize_iff {p n newsize : ℕ} (hr : Reached (fun s a => s.Legal a ∧ s.Sees a) fuel s)
    (hp : s.held p = some n) (hstep : s.step fuel (.resize p newsize) = some s')
    (hbs : s'.heap.Layout bs) : s'.heap.Lowest bs ↔ s.Sees (.resize p newsize) := by
  obtain ⟨bs0, hi, -, hlow⟩ := hr.exists_inv fun _ _ h => h.1
  obtain ⟨s1, bs1, hstep1, hs, hiff, -⟩ := step_resize fuel hi hp newsize
  rw [hstep] at hstep1
  cases hstep1
  obtain rfl := hbs.toChain.unique hs.inv.layout.toChain
  exact hiff (hlow fun _ _ h => h.2)

/-- The state with the block cut to 20 bytes. -/
def trimmed : Clients := (tenant.step 224 (.resize 16 20)).get (by decide +kernel)

theorem tenant_resize : tenant.step 224 (.resize 16 20) = some trimmed :=
  (Option.some_get _).symm

theorem lowest_resize_tenant : ∃ bs, trimmed.heap.Layout bs ∧
    (trimmed.heap.Lowest bs ↔ tenant.Sees (.resize 16 20)) := by
  obtain ⟨bs, hi, -⟩ := reached_tenant.exists_inv fun _ _ h => h.1
  obtain ⟨s1, bs1, hstep, hs, -⟩ := step_resize 224 hi tenant_held 20
  rw [tenant_resize] at hstep
  cases hstep
  exact ⟨bs1, hs.inv.layout,
    lowest_resize_iff reached_tenant tenant_held tenant_resize hs.inv.layout⟩

/-- What is allocated and given back in between leaves no trace in how the heap is divided. -/
theorem run_restores (hr : Reached Legal fuel s) (hbs : s.heap.Layout bs)
    (hlegal : Along Legal fuel s acts)
    (hnew : ∀ a ∈ acts, ∀ p, target a = some p → s.held p = none)
    (hrun : run fuel s acts = some s') (hheld : s'.held = s.held) :
    s'.heap.Layout bs ∧ s'.heap.used_mem = s.heap.used_mem := by
  obtain ⟨bs0, hi, hfuel, -⟩ := hr.exists_inv fun _ _ h => h
  obtain rfl := hbs.toChain.unique hi.layout.toChain
  obtain ⟨s1, bs', hrun1, hran, -⟩ := exists_ran hi hfuel hlegal
  rw [hrun] at hrun1
  cases hrun1
  have hkept : ∀ t l, (t, l) ∈ blocksAt true 0 bs → (t, l) ∈ blocksAt true 0 bs' := by
    intro t l htl
    refine (hran.kept t l htl fun a ha heq => ?_).1
    have hsome := hi.owns.used_held t l htl
    rw [hnew a ha _ heq] at hsome
    cases hsome
  have hused : blocksAt true 0 bs' = blocksAt true 0 bs := by
    refine blocksAt_ext size_pos fun t l => ⟨fun htl => ?_, hkept t l⟩
    have hsome := hran.inv.owns.used_held t l htl
    rw [hheld] at hsome
    obtain ⟨n, hn⟩ := Option.isSome_iff_exists.mp hsome
    obtain ⟨t', l', htl', heq, -⟩ := hi.owns.held_used _ n hn
    obtain rfl := Nat.add_right_cancel heq
    rwa [len_unique size_pos htl (hkept t l' htl')]
  have htotal : Blocks.total bs' = Blocks.total bs := by
    rw [hran.inv.layout.total, hbs.total, Heap.heap_end, hran.size, Heap.heap_end]
  have heq : bs' = bs :=
    eq_of_blocksAt_eq size_pos hran.inv.layout.coalesced hbs.coalesced htotal hused
  subst heq
  exact ⟨hran.inv.layout, by rw [hran.inv.layout.used_mem, hbs.used_mem]⟩

theorem tenant_malloc : ∃ s' s'', tenant.step 224 (.malloc 1 8) = some s' ∧
    s'.step 224 (.free 92) = some s'' ∧ s''.held = tenant.held ∧
      s'.held 92 = some (RT_ALIGN 8) := by
  obtain ⟨⟨h1, r⟩, hm⟩ := Option.isSome_iff_exists.mp
    (by decide +kernel : (tenant.heap.rt_malloc 224 1 8).isSome)
  have hr : (tenant.heap.rt_malloc 224 1 8).map Prod.snd = some (some 92) := by decide +kernel
  rw [hm] at hr
  obtain rfl := Option.some.inj hr
  obtain ⟨bs, hi, hfuel, -⟩ := reached_tenant.exists_inv fun _ _ h => h.1
  obtain ⟨hstep, hnone⟩ := hi.malloc hfuel hm
  obtain ⟨s1, bs1, hstep1, hs1, -⟩ := step_malloc hi hfuel 1 8
  rw [hstep] at hstep1
  obtain rfl := Option.some.inj hstep1
  have h8 : (⟨h1, Function.update tenant.held 92 (some (RT_ALIGN 8))⟩ : Clients).held 92 =
      some (RT_ALIGN 8) := by
    simp
  obtain ⟨s2, bs2, hstep2, -⟩ := step_free 224 hs1.inv h8
  refine ⟨_, s2, hstep, hstep2, ?_, h8⟩
  rw [step] at hstep2
  obtain ⟨h2, -, heq⟩ := Option.bind_eq_some_iff.mp hstep2
  cases heq
  rw [Function.update_idem]
  exact (Function.update_eq_self_iff.mpr hnone.symm)

theorem run_restores_tenant : ∃ bs s', tenant.heap.Layout bs ∧
    run 224 tenant [.malloc 1 8, .free 92] = some s' ∧
    s'.heap.Layout bs ∧ s'.heap.used_mem = tenant.heap.used_mem := by
  obtain ⟨bs, hi, -⟩ := reached_tenant.exists_inv fun _ _ h => h.1
  obtain ⟨s1, s2, hstep1, hstep2, hheld, h8⟩ := tenant_malloc
  have hrun : run 224 tenant [.malloc 1 8, .free 92] = some s2 := by
    rw [run_cons, hstep1, Option.bind_some, run_cons, hstep2]
    rfl
  refine ⟨bs, s2, hi.layout, hrun, run_restores tenant_reached hi.layout
    (Along.cons hstep1 trivial (Along.cons hstep2 (Option.isSome_iff_exists.mpr ⟨RT_ALIGN 8, h8⟩)
      (by trivial)))
    ?_ hrun hheld⟩
  have hfree : tenant.held 92 = none := by decide +kernel
  rintro a ha p hp
  rcases List.mem_pair.mp ha with rfl | rfl
  · cases hp
  · cases hp
    exact hfree

/-- When everything has been given back, the heap is whole again, and gives the first client
    whatever is smaller than all of it. -/
theorem malloc_of_all_freed {th size : ℕ} (hr : Reached Legal fuel s) (hnone : ∀ p, s.held p = none)
    (hsize : size ≠ 0) (hreq : Heap.request size < s.heap.mem_size_aligned) :
    s.heap.used_mem = 0 ∧ ∃ s', s.step fuel (.malloc th size) = some s' ∧
      s'.held SIZEOF_STRUCT_MEM = some (RT_ALIGN size) := by
  obtain ⟨bs, hi, hfuel, -⟩ := hr.exists_inv fun _ _ h => h
  have hunused : blocksAt true 0 bs = [] := by
    refine List.eq_nil_iff_forall_not_mem.mpr fun ⟨t, l⟩ htl => ?_
    have hsome := hi.owns.used_held t l htl
    rw [hnone] at hsome
    cases hsome
  have hlfree := hi.cleared hunused
  have htotal := hi.layout.total
  have hend : s.heap.heap_end = s.heap.mem_size_aligned + SIZEOF_STRUCT_MEM := rfl
  have hne : bs ≠ [] := by
    rintro rfl
    rw [total_nil] at htotal
    omega
  obtain ⟨b, rfl, hb⟩ := eq_singleton_of_unused hi.layout.coalesced hunused hne
  rw [total_cons, total_nil, Nat.add_zero] at htotal
  refine ⟨by rw [hi.layout.used_mem, inUse, hunused]; rfl, ?_⟩
  rcases Heap.rt_malloc_spec th size hi.layout (length_lt hi.layout hfuel) with
    ⟨-, hwhy⟩ | ⟨xs, b', ys, h', hbs, -, -, hrun, ht⟩
  · have hle := align_le_request size
    have hfit := (hwhy.resolve_left hsize).resolve_left (by omega) 0 b.len
      (by rw [blocksAt_cons_self hb]; exact List.mem_cons_self) (by omega) (by omega)
    omega
  · obtain rfl : xs = [] := by
      rcases xs with _ | ⟨x, xs⟩
      · rfl
      · have hlen := congrArg List.length hbs
        simp at hlen
    refine ⟨⟨h', Function.update s.held SIZEOF_STRUCT_MEM (some (RT_ALIGN size))⟩, ?_, ?_⟩
    · rw [step, hrun]
      rfl
    · simp

theorem malloc_of_all_freed_emptied : emptied.heap.used_mem = 0 ∧
    ∃ s', emptied.step 224 (.malloc 1 200) = some s' ∧
      s'.held SIZEOF_STRUCT_MEM = some (RT_ALIGN 200) := by
  have hrun : run 224 (boot small) [.malloc 0 60, .write 16 7, .free 16] = some emptied := by
    rw [run_cons, small_malloc, Option.bind_some, tenant_emptied]
  exact malloc_of_all_freed
    ⟨_, _, _, small, _, by decide, small_init, by decide +kernel, by decide +kernel,
      Along.cons small_malloc trivial tenant_legal, hrun⟩
    emptied_held (by decide) (by decide +kernel)

end Start

/-! ## `rt_realloc` -/

section Realloc

variable {s s1 s2 s3 : Clients} {bs : List HeapBlock} {acts : List HeapAct}
  {fuel p q n m k newsize size th : ℕ}

theorem align_align : RT_ALIGN (RT_ALIGN size) = RT_ALIGN size := by
  simp only [RT_ALIGN, uadd]
  omega

theorem le_align (hsize : size + 3 < 2 ^ 32) : size ≤ RT_ALIGN size := by
  rw [RT_ALIGN, uadd_of_lt hsize]
  omega

/-- Others do not touch what is held at `p`. -/
def Away (p n : ℕ) (acts : List HeapAct) : Prop :=
  ∀ a ∈ acts, target a ≠ some p ∧ ∀ i v, p ≤ i → i < p + n → a ≠ .write i v

/-- The copy of `rt_realloc`, byte by byte, with steps of others in between. -/
inductive Copying (fuel p n q m : ℕ) (s : Clients) : ℕ → Clients → Prop
  | start : Copying fuel p n q m s 0 s
  | next {s1 s2 s3 : Clients} {k : ℕ} {acts : List HeapAct} :
    Copying fuel p n q m s k s1 → Along Legal fuel s1 acts → Away p n acts → Away q m acts →
      run fuel s1 acts = some s2 →
        s2.step fuel (.write (q + k) (s2.heap.heap_ptr (p + k))) = some s3 →
          Copying fuel p n q m s (k + 1) s3

/-- Steps of others, seen from a block. -/
theorem Inv.away (hi : s.Inv bs) (hfuel : s.heap.mem_size_aligned ≤ fuel)
    (hlegal : Along Legal fuel s acts) (hrun : run fuel s acts = some s1) :
    ∃ bs1, s1.Inv bs1 ∧ s1.heap.mem_size_aligned ≤ fuel ∧ ∀ p n, s.held p = some n →
      Away p n acts → s1.held p = some n ∧
        ∀ i, p ≤ i → i < p + n → s1.heap.heap_ptr i = s.heap.heap_ptr i := by
  obtain ⟨s', bs1, hrun', hran, -⟩ := exists_ran hi hfuel hlegal
  rw [hrun] at hrun'
  cases hrun'
  refine ⟨bs1, hran.inv, by rw [hran.size]; exact hfuel, fun p n hp haway => ?_⟩
  obtain ⟨t, l, htl, rfl, hn⟩ := hi.owns.held_used p n hp
  obtain ⟨-, hheld, hdata⟩ := hran.kept t l htl fun a ha => (haway a ha).1
  exact ⟨hheld.trans hp, fun i hlo hhi =>
    hdata i hlo (by omega) fun a ha v => (haway a ha).2 i v hlo hhi⟩

/-- What is copied so far is there, and the source is as it was. -/
theorem Copying.spec (hc : Copying fuel p n q m s k s1) (hi : s.Inv bs)
    (hfuel : s.heap.mem_size_aligned ≤ fuel) (hp : s.held p = some n) (hq : s.held q = some m)
    (hpq : p ≠ q) (hk : k ≤ m) : ∃ bs1, s1.Inv bs1 ∧ s1.heap.mem_size_aligned ≤ fuel ∧
      s1.held p = some n ∧ s1.held q = some m ∧
      (∀ i, p ≤ i → i < p + n → s1.heap.heap_ptr i = s.heap.heap_ptr i) ∧
      ∀ i < min k n, s1.heap.heap_ptr (q + i) = s.heap.heap_ptr (p + i) := by
  induction hc with
  | start => exact ⟨bs, hi, hfuel, hp, hq, fun _ _ _ => rfl, fun i hi => by omega⟩
  | @next s1 s2 s3 k acts _ hlegal hawayp hawayq hrun hwrite ih =>
    obtain ⟨bs1, hi1, hfuel1, hp1, hq1, hsrc1, hdst1⟩ := ih (by omega)
    obtain ⟨bs2, hi2, hfuel2, haway⟩ := hi1.away hfuel1 hlegal hrun
    obtain ⟨hp2, hsrc2⟩ := haway p n hp1 hawayp
    obtain ⟨hq2, hdst2⟩ := haway q m hq1 hawayq
    obtain ⟨s3', hwrite', hs3, -⟩ := step_write fuel
      (v := s2.heap.heap_ptr (p + k)) hi2 hq2 (Nat.le_add_right q k) (by omega)
    rw [hwrite] at hwrite'
    cases hwrite'
    have hs3eq : s3 = { s2 with heap := { s2.heap with
        heap_ptr := Function.update s2.heap.heap_ptr (q + k) (s2.heap.heap_ptr (p + k)) } } := by
      cases hwrite
      rfl
    have hbytes : ∀ i, i ≠ q + k → s3.heap.heap_ptr i = s2.heap.heap_ptr i := by
      intro i hne
      rw [hs3eq]
      exact Function.update_of_ne hne _ _
    have hheld : s3.held = s2.held := by rw [hs3eq]
    -- The two blocks do not meet.
    have hapart : ∀ i, p ≤ i → i < p + n → i ≠ q + k := by
      intro i hlo hhi heq
      rcases Nat.lt_or_gt_of_ne hpq with hlt | hlt
      · have hap := hi2.apart hp2 hq2 hlt
        omega
      · have hap := hi2.apart hq2 hp2 hlt
        omega
    refine ⟨bs2, hs3.inv, by rw [hs3.size]; exact hfuel2, by rw [hheld, hp2], by rw [hheld, hq2],
      fun i hlo hhi => ?_, fun i hik => ?_⟩
    · rw [hbytes i (hapart i hlo hhi), hsrc2 i hlo hhi, hsrc1 i hlo hhi]
    · by_cases hlast : i = k
      · subst hlast
        have hnew : s3.heap.heap_ptr (q + i) = s2.heap.heap_ptr (p + i) := by
          rw [hs3eq]
          exact Function.update_self _ _ _
        rw [hnew, hsrc2 _ (by omega) (by omega), hsrc1 _ (by omega) (by omega)]
      · rw [hbytes _ (by omega), hdst2 _ (by omega) (by omega), hdst1 i (by omega)]

/-- The size of a block, where `rt_realloc` finds it too small. -/
theorem Inv.le_of_resize (hi : s.Inv bs) (hp : s.held p = some n)
    (hbig : ¬s.heap.mem_size_aligned < RT_ALIGN newsize) {h : Heap}
    (hrun : s.heap.resize p (RT_ALIGN newsize) = some (h, some size)) :
    h = s.heap ∧ n ≤ size ∧ ∃ t, (t, size + SIZEOF_STRUCT_MEM) ∈ blocksAt true 0 bs ∧
      p = t + SIZEOF_STRUCT_MEM := by
  obtain ⟨xs, b, ys, rfl, hb, rfl, hn⟩ := hi.exists_block hp
  have hroom := b.room
  rcases Heap.resize_spec hi.layout hb (Nat.dvd_mul_left 4 (uadd newsize 3 / 4))
    (not_lt.mp hbig) with ⟨hrun', -⟩ | ⟨h', c, d, hrun', -⟩ | ⟨hrun', -⟩
  · rw [RT_ALIGN, hrun'] at hrun
    cases hrun
  · rw [RT_ALIGN, hrun'] at hrun
    cases hrun
  · rw [RT_ALIGN, hrun'] at hrun
    cases hrun
    refine ⟨rfl, by omega, _, mem_blocksAt_around.mpr (.inr (.inl ⟨hb, ?_⟩)), rfl⟩
    rw [Nat.zero_add, Nat.sub_add_cancel hroom]

/-- `rt_realloc` to another block, with steps of others between its sections: the new block has
    what the old one had, as far as it goes, and the old one is given back. -/
theorem rt_realloc_interleaved {acts1 acts2 : List HeapAct} {s4 : Clients} {h2 : Heap}
    (hr : Reached Legal fuel s) (hp : s.held p = some n)
    (hbig : ¬s.heap.mem_size_aligned < RT_ALIGN newsize)
    (hresize : s.heap.resize p (RT_ALIGN newsize) = some (s.heap, some size))
    (hlegal1 : Along Legal fuel s acts1) (haway1 : Away p n acts1)
    (hrun1 : run fuel s acts1 = some s1)
    (hmalloc : s1.heap.rt_malloc fuel th (RT_ALIGN newsize) = some (h2, some q))
    (hcopy : Copying fuel p n q (RT_ALIGN newsize)
      ⟨h2, Function.update s1.held q (some (RT_ALIGN newsize))⟩
      (if size < RT_ALIGN newsize then size else RT_ALIGN newsize) s3)
    (hlegal2 : Along Legal fuel s3 acts2) (haway2 : Away p n acts2)
    (haway2' : Away q (RT_ALIGN newsize) acts2) (hrun2 : run fuel s3 acts2 = some s4) :
    ∃ s5, s4.step fuel (.free p) = some s5 ∧ s5.held p = none ∧
      s5.held q = some (RT_ALIGN newsize) ∧
        ∀ i < min n (RT_ALIGN newsize), s5.heap.heap_ptr (q + i) = s.heap.heap_ptr (p + i) := by
  obtain ⟨bs, hi, hfuel, -⟩ := hr.exists_inv fun _ _ h => h
  obtain ⟨-, hn, -⟩ := hi.le_of_resize hp hbig hresize
  obtain ⟨bs1, hi1, hfuel1, haway⟩ := hi.away hfuel hlegal1 hrun1
  obtain ⟨hp1, hsrc1⟩ := haway p n hp haway1
  obtain ⟨hstep2, hq1⟩ := hi1.malloc hfuel1 hmalloc
  have hpq : p ≠ q := by
    rintro rfl
    rw [hp1] at hq1
    cases hq1
  rw [align_align] at hstep2
  obtain ⟨s2, bs2, hstep2', hs2, -⟩ := step_malloc hi1 hfuel1 th (RT_ALIGN newsize)
  rw [hstep2] at hstep2'
  obtain rfl := Option.some.inj hstep2'
  -- The old block is as it was when the copy starts.
  obtain ⟨t, l, htl, rfl, hnl⟩ := hi1.owns.held_used p n hp1
  obtain ⟨-, hheld2, hdata2⟩ := hs2.kept t l htl (by rintro ⟨⟩)
  obtain ⟨bs3, hi3, hfuel3, hp3, hq3, hsrc3, hdst3⟩ := hcopy.spec hs2.inv
    (by rw [hs2.size]; exact hfuel1) (hheld2.trans hp1) (Function.update_self _ _ _) hpq
    (by split <;> omega)
  obtain ⟨bs4, hi4, hfuel4, haway⟩ := hi3.away hfuel3 hlegal2 hrun2
  obtain ⟨hp4, -⟩ := haway _ n hp3 haway2
  obtain ⟨hq4, hdst4⟩ := haway q _ hq3 haway2'
  obtain ⟨s5, bs5, hstep5, hs5, -⟩ := step_free fuel hi4 hp4
  obtain ⟨tq, lq, htq, rfl, hmq⟩ := hi4.owns.held_used q _ hq4
  obtain ⟨-, hheld5, hdata5⟩ := hs5.kept tq lq htq fun heq => hpq (Option.some.inj heq)
  refine ⟨s5, hstep5, ?_, hheld5.trans hq4, fun i hi => ?_⟩
  · rw [step] at hstep5
    obtain ⟨h5, -, heq⟩ := Option.bind_eq_some_iff.mp hstep5
    cases heq
    exact Function.update_self _ _ _
  · have hik : i < min (if size < RT_ALIGN newsize then size else RT_ALIGN newsize) n := by
      split <;> omega
    rw [hdata5 _ (by omega) (by omega) (by rintro v ⟨⟩), hdst4 _ (by omega) (by omega), hdst3 i hik,
      ← hsrc1 _ (by omega) (by omega)]
    exact hdata2 _ (by omega) (by omega) (by rintro v ⟨⟩)

/-- The copy, while another thread writes its own block at `r` before every byte. -/
theorem Copying.amid {r l : ℕ} (hr : s.held r = some l) (hl : 0 < l)
    (hrp : r < p ∨ p + n ≤ r) (hrq : r < q ∨ q + m ≤ r) (k : ℕ) :
    ∃ s', Copying fuel p n q m s k s' ∧ s'.held = s.held := by
  induction k with
  | zero => exact ⟨s, .start, rfl⟩
  | succ k ih =>
    obtain ⟨s1, h1, hheld⟩ := ih
    have haway : ∀ t w, r < t ∨ t + w ≤ r → Away t w [.write r (BitVec.ofNat 8 k)] := by
      intro t w hrt a ha
      obtain rfl := List.mem_singleton.mp ha
      refine ⟨by rintro ⟨⟩, fun i v hlo hhi heq => ?_⟩
      cases heq
      omega
    have hlegal : Along Legal fuel s1 [.write r (BitVec.ofNat 8 k)] :=
      ⟨⟨r, l, hheld ▸ hr, le_rfl, by omega⟩, fun _ _ => trivial⟩
    exact ⟨_, .next h1 hlegal (haway p n hrp) (haway q m hrq) rfl rfl, hheld⟩

/-- The state of `tenant` with a byte of the block written. -/
def written : Clients := (tenant.step 224 (.write 16 7)).get (by decide +kernel)

theorem tenant_write : tenant.step 224 (.write 16 7) = some written :=
  (Option.some_get _).symm

theorem written_held : written.held 16 = some 60 := tenant_held

theorem reached_written : Reached Legal 224 written :=
  ⟨_, _, _, small, [.malloc 0 60, .write 16 7], by decide, small_init, by decide +kernel,
    by decide +kernel, Along.cons small_malloc trivial
      (Along.cons tenant_write ⟨16, 60, tenant_held, by decide, by decide⟩ trivial),
    by rw [run_cons, small_malloc, Option.bind_some, run_cons, tenant_write]; rfl⟩

/-- The state after another thread has taken a block of its own. -/
def crowded : Clients := (written.step 224 (.malloc 1 8)).get (by decide +kernel)

theorem written_malloc : written.step 224 (.malloc 1 8) = some crowded :=
  (Option.some_get _).symm

theorem written_resize : written.heap.resize 16 (RT_ALIGN 80) = some (written.heap, some 60) := by
  obtain ⟨⟨g, o⟩, hg⟩ := Option.isSome_iff_exists.mp
    (by decide +kernel : (written.heap.resize 16 (RT_ALIGN 80)).isSome)
  have ho : (written.heap.resize 16 (RT_ALIGN 80)).map Prod.snd = some (some 60) := by
    decide +kernel
  rw [hg] at ho
  obtain rfl := Option.some.inj ho
  obtain ⟨bs, hi, -⟩ := reached_written.exists_inv fun _ _ h => h
  obtain ⟨rfl, -⟩ := hi.le_of_resize written_held (by decide +kernel) hg
  exact hg

/-- Another thread takes a block before the new one is found, writes it before every byte that
    is copied, and gives it back before the old one is released. -/
theorem rt_realloc_interleaved_crowded : ∃ h2 s3 s4 s5,
    crowded.heap.rt_malloc 224 0 (RT_ALIGN 80) = some (h2, some 120) ∧
      Copying 224 16 60 120 (RT_ALIGN 80)
        ⟨h2, Function.update crowded.held 120 (some (RT_ALIGN 80))⟩ 60 s3 ∧
      run 224 s3 [.write 92 1, .free 92] = some s4 ∧ s4.step 224 (.free 16) = some s5 ∧
      s5.held 16 = none ∧ s5.held 120 = some (RT_ALIGN 80) ∧
      ∀ i < min 60 (RT_ALIGN 80), s5.heap.heap_ptr (120 + i) = written.heap.heap_ptr (16 + i) := by
  obtain ⟨⟨h2, r⟩, hm⟩ := Option.isSome_iff_exists.mp
    (by decide +kernel : (crowded.heap.rt_malloc 224 0 (RT_ALIGN 80)).isSome)
  have hr : (crowded.heap.rt_malloc 224 0 (RT_ALIGN 80)).map Prod.snd = some (some 120) := by
    decide +kernel
  rw [hm] at hr
  obtain rfl := Option.some.inj hr
  have h16 : crowded.held 16 = some 60 := by decide +kernel
  have h92 : crowded.held 92 = some 8 := by decide +kernel
  -- The state in which the copy starts.
  obtain ⟨bs, hi, hfuel, -⟩ := reached_written.exists_inv fun _ _ h => h
  have hlegal1 : Along Legal 224 written [.malloc 1 8] := ⟨trivial, fun _ _ => trivial⟩
  have hrun1 : run 224 written [.malloc 1 8] = some crowded := by
    rw [run_cons, written_malloc]
    rfl
  obtain ⟨bs1, hi1, hfuel1, -⟩ := hi.away hfuel hlegal1 hrun1
  obtain ⟨hstep2, -⟩ := hi1.malloc hfuel1 hm
  obtain ⟨s2, bs2, hstep2', hs2, -⟩ := step_malloc hi1 hfuel1 0 (RT_ALIGN 80)
  rw [hstep2, align_align] at hstep2'
  obtain rfl := Option.some.inj hstep2'
  have hheld : ∀ t ≠ 120, Function.update crowded.held 120 (some (RT_ALIGN 80)) t =
      crowded.held t := fun t ht => Function.update_of_ne ht _ _
  let s2 : Clients := ⟨h2, Function.update crowded.held 120 (some (RT_ALIGN 80))⟩
  have h92' : s2.held 92 = some 8 := (hheld 92 (by decide)).trans h92
  obtain ⟨s3, hcopy, hheld3⟩ : ∃ s3, Copying 224 16 60 120 (RT_ALIGN 80) s2 60 s3 ∧
      s3.held = s2.held :=
    Copying.amid (s := s2) h92' (by decide) (by decide) (by decide) 60
  have h120 : s2.held 120 = some (RT_ALIGN 80) := Function.update_self 120 _ crowded.held
  obtain ⟨bs3, hi3, hfuel3, -⟩ := hcopy.spec hs2.inv (by rw [hs2.size]; exact hfuel1)
    ((hheld 16 (by decide)).trans h16) h120 (by decide) (by decide +kernel)
  have h92' : s3.held 92 = some 8 := hheld3 ▸ h92'
  have hlegal2 : Along Legal 224 s3 [.write 92 1, .free 92] := by
    refine ⟨⟨92, 8, h92', le_rfl, by decide⟩, fun s hs => ?_⟩
    cases hs
    exact ⟨Option.isSome_iff_exists.mpr ⟨8, h92'⟩, fun _ _ => trivial⟩
  obtain ⟨s4, bs4, hrun4, -⟩ := exists_ran hi3 hfuel3 hlegal2
  have haway : ∀ a ∈ [HeapAct.write 92 1, .free 92], ∀ t w, 92 < t ∨ t + w ≤ 92 → t ≠ 92 →
      target a ≠ some t ∧ ∀ i v, t ≤ i → i < t + w → a ≠ .write i v := by
    intro a ha t w hapart hne
    rcases List.mem_pair.mp ha with rfl | rfl
    · refine ⟨by rintro ⟨⟩, fun i v hlo hhi heq => ?_⟩
      cases heq
      omega
    · exact ⟨fun heq => hne (Option.some.inj heq).symm, by rintro i v - - ⟨⟩⟩
  have hnil : Away 16 60 [.malloc 1 8] := by
    intro a ha
    obtain rfl := List.mem_singleton.mp ha
    exact ⟨by rintro ⟨⟩, by rintro i v - - ⟨⟩⟩
  have hsmaller : Copying 224 16 60 120 (RT_ALIGN 80) s2
      (if 60 < RT_ALIGN 80 then 60 else RT_ALIGN 80) s3 := by
    rw [if_pos (by decide +kernel)]
    exact hcopy
  obtain ⟨s5, hend⟩ := rt_realloc_interleaved reached_written written_held (by decide +kernel)
    written_resize hlegal1 hnil hrun1 hm hsmaller hlegal2
    (fun a ha => haway a ha 16 60 (by decide) (by decide))
    (fun a ha => haway a ha 120 (RT_ALIGN 80) (by decide) (by decide)) hrun4
  exact ⟨h2, s3, s4, s5, hm, hcopy, hrun4, hend⟩

/-- Bytes written into a held block one after the other, as a run. -/
theorem run_writes {v : ℕ → BitVec 8} {g : ℕ → Mem} (fuel : ℕ) (hq : s.held q = some m)
    (hk : k ≤ m)
    (hstart : g 0 = s.heap.heap_ptr)
    (hnext : ∀ j < k, g (j + 1) = Function.update (g j) (q + j) (v j)) :
    Along Legal fuel s ((List.range k).map fun i => .write (q + i) (v i)) ∧
      run fuel s ((List.range k).map fun i => .write (q + i) (v i)) =
        some { s with heap := { s.heap with heap_ptr := g k } } := by
  induction k with
  | zero =>
    rw [hstart]
    exact ⟨trivial, rfl⟩
  | succ k ih =>
    obtain ⟨hlegal, hrun⟩ := ih (by omega) fun j hj => hnext j (by omega)
    rw [List.range_succ, List.map_append]
    refine ⟨(Along.append hrun).mpr ⟨hlegal, ?_, fun _ _ => trivial⟩, ?_⟩
    · exact ⟨q, m, hq, Nat.le_add_right q k, by omega⟩
    · rw [run_append, hrun, Option.bind_some, hnext k (by omega)]
      rfl

/-- The bytes `rt_memcpy` writes. -/
def copied (s : Clients) (q p k : ℕ) : List HeapAct :=
  (List.range k).map fun i => .write (q + i) (s.heap.heap_ptr (p + i))

/-- `rt_memcpy` into a held block, as a run. -/
theorem run_copied (fuel : ℕ) (hq : s.held q = some m) (hk : k ≤ m)
    (hpq : q + k ≤ p ∨ p + k ≤ q) :
    Along Legal fuel s (copied s q p k) ∧
      run fuel s (copied s q p k) = some { s with heap := s.heap.rt_memcpy q p k } := by
  refine run_writes (g := copy s.heap.heap_ptr q p) fuel hq hk rfl fun j hj => ?_
  have hsrc : copy s.heap.heap_ptr q p j (p + j) = s.heap.heap_ptr (p + j) :=
    copy_of_apart (by omega)
  rw [copy, hsrc]

/-- What a step leaves of a block it is not about. -/
theorem Stepped.others {s' : Clients} {bs' : List HeapBlock} {a : HeapAct} {t : ℕ}
    (hs : Stepped s s' bs bs' a) (hi : s.Inv bs) (ht : s.held t = some m) (hne : target a ≠ some t)
    (hw : ∀ i v, a ≠ .write i v) : s'.held t = some m ∧
      ∀ i, t ≤ i → i < t + m → s'.heap.heap_ptr i = s.heap.heap_ptr i := by
  obtain ⟨u, l, hul, rfl, hm⟩ := hi.owns.held_used t m ht
  obtain ⟨-, hheld, hdata⟩ := hs.kept u l hul hne
  exact ⟨hheld.trans ht, fun i hlo hhi => hdata i hlo (by omega) fun v => hw i v⟩

/-- The end of `rt_realloc`, where a larger block was found: a run that moves what the old one
    holds. -/
theorem move_run {t0 : ℕ} {h2 : Heap} (hi : s.Inv bs) (hfuel : s.heap.mem_size_aligned ≤ fuel)
    (hp : s.held (t0 + SIZEOF_STRUCT_MEM) = some n)
    (ht0 : (t0, size + SIZEOF_STRUCT_MEM) ∈ blocksAt true 0 bs) (hn : n ≤ size)
    (hm : s.heap.rt_malloc fuel th (RT_ALIGN newsize) = some (h2, some q))
    (hk : k = if size < RT_ALIGN newsize then size else RT_ALIGN newsize) :
    ∃ acts s', (h2.rt_memcpy q (t0 + SIZEOF_STRUCT_MEM) k).rt_free
        (some (t0 + SIZEOF_STRUCT_MEM)) = some s'.heap ∧
      Along Legal fuel s acts ∧ run fuel s acts = some s' ∧
      s'.held q = some (RT_ALIGN newsize) ∧ s'.held (t0 + SIZEOF_STRUCT_MEM) = none ∧
      (∀ i < min n (RT_ALIGN newsize),
        s'.heap.heap_ptr (q + i) = s.heap.heap_ptr (t0 + SIZEOF_STRUCT_MEM + i)) ∧
      ∀ t m, t ≠ t0 + SIZEOF_STRUCT_MEM → s.held t = some m → s'.held t = some m ∧
        ∀ i, t ≤ i → i < t + m → s'.heap.heap_ptr i = s.heap.heap_ptr i := by
  obtain ⟨s2, bs2, hstep2, hs2, -⟩ := step_malloc hi hfuel th (RT_ALIGN newsize)
  obtain ⟨hstep2', hqnone⟩ := hi.malloc hfuel hm
  rw [align_align] at hstep2'
  rw [hstep2'] at hstep2
  obtain rfl := Option.some.inj hstep2
  have hk1 : k ≤ RT_ALIGN newsize ∧ k ≤ size ∧ min n (RT_ALIGN newsize) ≤ k := by
    rw [hk]
    split <;> omega
  have hqheld := Function.update_self q (some (RT_ALIGN newsize)) s.held
  have hpq : t0 + SIZEOF_STRUCT_MEM ≠ q := by
    intro heq
    rw [heq, hqnone] at hp
    cases hp
  -- The two blocks do not meet.
  obtain ⟨ht2, hheld2, hsrc2⟩ := hs2.kept t0 _ ht0 (by rintro ⟨⟩)
  obtain ⟨tq, lq, htq, rfl, hnq⟩ := hs2.inv.owns.held_used q _ hqheld
  have hmeet : tq + SIZEOF_STRUCT_MEM + k ≤ t0 + SIZEOF_STRUCT_MEM ∨
      t0 + SIZEOF_STRUCT_MEM + k ≤ tq + SIZEOF_STRUCT_MEM := by
    rcases Nat.lt_or_gt_of_ne (fun heq => hpq (by rw [heq]) : t0 ≠ tq) with hlt | hlt
    · have hap := le_of_mem_blocksAt ht2 htq hlt
      omega
    · have hap := le_of_mem_blocksAt htq ht2 hlt
      omega
  obtain ⟨hlegal3, hrun3⟩ := run_copied (s := ⟨h2, Function.update s.held _ _⟩) fuel
    hqheld hk1.1 hmeet
  obtain ⟨s3, bs3, hrun3', hs3, -⟩ := exists_ran hs2.inv (by rw [hs2.size]; exact hfuel) hlegal3
  rw [hrun3] at hrun3'
  obtain rfl := Option.some.inj hrun3'
  obtain ⟨s4, bs4, hstep4, hs4, -⟩ := step_free fuel hs3.inv (hheld2.trans hp)
  have hs4eq : (h2.rt_memcpy (tq + SIZEOF_STRUCT_MEM) (t0 + SIZEOF_STRUCT_MEM) k).rt_free
        (some (t0 + SIZEOF_STRUCT_MEM)) = some s4.heap ∧
      s4.held (t0 + SIZEOF_STRUCT_MEM) = none := by
    rw [step] at hstep4
    obtain ⟨h4, hfree, heq⟩ := Option.bind_eq_some_iff.mp hstep4
    cases heq
    exact ⟨hfree, Function.update_self _ _ _⟩
  have hq4 := hs4.others hs3.inv hqheld (fun heq => hpq (Option.some.inj heq)) (by rintro i v ⟨⟩)
  refine ⟨[.malloc th (RT_ALIGN newsize)] ++
    (copied ⟨h2, Function.update s.held (tq + SIZEOF_STRUCT_MEM) (some (RT_ALIGN newsize))⟩
      (tq + SIZEOF_STRUCT_MEM) (t0 + SIZEOF_STRUCT_MEM) k ++ [.free (t0 + SIZEOF_STRUCT_MEM)]),
    s4, hs4eq.1, ?_, ?_, hq4.1, hs4eq.2, fun i hi => ?_, fun t m htp ht => ?_⟩
  · refine Along.cons hstep2' trivial ((Along.append hrun3).mpr
      ⟨hlegal3, Along.cons hstep4 ?_ trivial⟩)
    exact Option.isSome_iff_exists.mpr ⟨n, hheld2.trans hp⟩
  · rw [List.singleton_append, run_cons, hstep2', Option.bind_some, run_append, hrun3,
      Option.bind_some, run_cons, hstep4]
    rfl
  · rw [hq4.2 _ (by omega) (by omega)]
    have hcopy : copy h2.heap_ptr (tq + SIZEOF_STRUCT_MEM) (t0 + SIZEOF_STRUCT_MEM) k
        (tq + SIZEOF_STRUCT_MEM + i) = h2.heap_ptr (t0 + SIZEOF_STRUCT_MEM + i) :=
      copy_of_lt hmeet (by omega)
    exact hcopy.trans (hsrc2 _ (by omega) (by omega) (by rintro v ⟨⟩))
  · have htq' : t ≠ tq + SIZEOF_STRUCT_MEM := by
      rintro rfl
      rw [hqnone] at ht
      cases ht
    obtain ⟨ht2, hb2⟩ := hs2.others hi ht (by rintro ⟨⟩) (by rintro i v ⟨⟩)
    obtain ⟨ht4, hb4⟩ := hs4.others hs3.inv ht2
      (fun heq => htp (Option.some.inj heq).symm) (by rintro i v ⟨⟩)
    refine ⟨ht4, fun i hlo hhi => ?_⟩
    rw [hb4 i hlo hhi]
    refine Eq.trans (copy_of_apart ?_) (hb2 i hlo hhi)
    rcases Nat.lt_or_gt_of_ne htq' with hlt | hlt
    · have hap := hs2.inv.apart ht2 hqheld hlt
      omega
    · have hap := hs2.inv.apart hqheld ht2 hlt
      omega

/-- `rt_realloc`, by what its sections find. -/
theorem rt_realloc_eq {h h1 h2 : Heap} {o : Option ℕ}
    (hbig : ¬h.mem_size_aligned < RT_ALIGN newsize)
    (hres : h.resize p (RT_ALIGN newsize) = some (h1, some size))
    (hm : h1.rt_malloc fuel th (RT_ALIGN newsize) = some (h2, o)) :
    h.rt_realloc fuel th (some p) newsize = o.elim (some (h2, none)) fun q =>
      ((h2.rt_memcpy q p (if size < RT_ALIGN newsize then size else RT_ALIGN newsize)).rt_free
        (some p)).bind fun h3 => some (h3, some q) := by
  rw [Heap.rt_realloc, if_neg hbig]
  show (h.resize p (RT_ALIGN newsize)).bind _ = _
  rw [hres]
  show (h1.rt_malloc fuel th (RT_ALIGN newsize)).bind _ = _
  rw [hm]
  cases o <;> rfl

/-- `rt_realloc` of a held block is a run of the steps above. It fails and changes nothing, or
    keeps the block, or moves it; what it holds goes with it, and nothing else changes. -/
theorem rt_realloc_run (hr : Reached Legal fuel s) (hp : s.held p = some n) :
    ∃ r acts s', s.heap.rt_realloc fuel th (some p) newsize = some (s'.heap, r) ∧
      Along Legal fuel s acts ∧ run fuel s acts = some s' ∧ (r = none → s' = s) ∧
      ∀ q, r = some q → s'.held q = some (RT_ALIGN newsize) ∧ (q ≠ p → s'.held p = none) ∧
        (∀ i < min n (RT_ALIGN newsize), s'.heap.heap_ptr (q + i) = s.heap.heap_ptr (p + i)) ∧
        ∀ t m, t ≠ p → s.held t = some m → s'.held t = some m ∧
          ∀ i, t ≤ i → i < t + m → s'.heap.heap_ptr i = s.heap.heap_ptr i := by
  obtain ⟨bs, hi, hfuel, -⟩ := hr.exists_inv fun _ _ h => h
  by_cases hbig : s.heap.mem_size_aligned < RT_ALIGN newsize
  · refine ⟨none, [], s, ?_, trivial, rfl, fun _ => rfl, fun q hq => by cases hq⟩
    rw [Heap.rt_realloc, if_pos hbig]
  obtain ⟨s1, bs1, hstep1, hs1, -, hdata1⟩ := step_resize fuel hi hp newsize
  rw [step, if_neg hbig] at hstep1
  obtain ⟨⟨h1, o⟩, hres, hout⟩ := Option.bind_eq_some_iff.mp hstep1
  cases o with
  | none =>
    -- The block itself is the answer.
    obtain rfl := Option.some.inj hout
    have hstep : s.step fuel (.resize p newsize) =
        some ⟨h1, Function.update s.held p (some (RT_ALIGN newsize))⟩ := by
      rw [step, if_neg hbig]
      exact hstep1
    refine ⟨some p, [.resize p newsize],
      ⟨h1, Function.update s.held p (some (RT_ALIGN newsize))⟩, ?_, Along.cons hstep ?_ trivial, ?_,
      (by rintro ⟨⟩), ?_⟩
    · rw [Heap.rt_realloc, if_neg hbig]
      show (s.heap.resize p (RT_ALIGN newsize)).bind _ = _
      rw [hres]
      rfl
    · exact Option.isSome_iff_exists.mpr ⟨n, hp⟩
    · rw [run_cons, hstep]
      rfl
    · rintro q ⟨⟩
      exact ⟨Function.update_self _ _ _, fun hne => absurd rfl hne,
        fun i hi => hdata1 _ (Nat.le_add_right p i) (by omega) (by omega), fun t m htp ht =>
          hs1.others hi ht (fun heq => htp (Option.some.inj heq).symm) (by rintro i v ⟨⟩)⟩
  | some size =>
    obtain ⟨rfl, hn, t0, ht0, rfl⟩ := hi.le_of_resize hp hbig hres
    rcases Heap.rt_malloc_spec th (RT_ALIGN newsize) hi.layout
      (length_lt hi.layout hfuel) with ⟨hm, -⟩ | ⟨xs, b, ys, h2, rfl, -, -, hm, -⟩
    · exact ⟨none, [], s, rt_realloc_eq hbig hres hm, trivial, rfl, fun _ => rfl,
        fun q hq => by cases hq⟩
    · obtain ⟨acts, s', hfree, hlegal, hrun, hq, hp', hmoved, hothers⟩ :=
        move_run hi hfuel hp ht0 hn hm rfl
      refine ⟨some (total xs + SIZEOF_STRUCT_MEM), acts, s', ?_, hlegal, hrun, (by rintro ⟨⟩), ?_⟩
      · rw [rt_realloc_eq hbig hres hm, Option.elim_some, hfree, Option.bind_some]
      · rintro q ⟨⟩
        exact ⟨hq, fun _ => hp', hmoved, hothers⟩

theorem rt_realloc_tenant : ∃ r acts s',
    tenant.heap.rt_realloc 224 1 (some 16) 80 = some (s'.heap, r) ∧
      Along Legal 224 tenant acts ∧ run 224 tenant acts = some s' ∧ (r = none → s' = tenant) ∧
      ∀ q, r = some q → s'.held q = some (RT_ALIGN 80) ∧ (q ≠ 16 → s'.held 16 = none) ∧
        (∀ i < min 60 (RT_ALIGN 80), s'.heap.heap_ptr (q + i) = tenant.heap.heap_ptr (16 + i)) ∧
        ∀ t m, t ≠ 16 → tenant.held t = some m → s'.held t = some m ∧
          ∀ i, t ≤ i → i < t + m → s'.heap.heap_ptr i = tenant.heap.heap_ptr i :=
  rt_realloc_run tenant_reached tenant_held

/-- `rt_calloc` is a run of the steps above. The block it gives is zero as far as the product of
    32 bits goes, and nothing else changes. -/
theorem rt_calloc_run {count : ℕ} (hr : Reached Legal fuel s)
    (hsmall : umul count size + 3 < 2 ^ 32) :
    ∃ r acts s', s.heap.rt_calloc fuel th count size = some (s'.heap, r) ∧
      Along Legal fuel s acts ∧ run fuel s acts = some s' ∧ (r = none → s' = s) ∧
      ∀ q, r = some q → s.held q = none ∧ s'.held q = some (RT_ALIGN (umul count size)) ∧
        (∀ i < umul count size, s'.heap.heap_ptr (q + i) = 0) ∧
        ∀ t m, s.held t = some m → s'.held t = some m ∧
          ∀ i, t ≤ i → i < t + m → s'.heap.heap_ptr i = s.heap.heap_ptr i := by
  obtain ⟨bs, hi, hfuel, -⟩ := hr.exists_inv fun _ _ h => h
  rcases Heap.rt_malloc_spec th (umul count size) hi.layout
    (length_lt hi.layout hfuel) with ⟨hm, -⟩ | ⟨xs, b, ys, h1, rfl, -, -, hm, -⟩
  · refine ⟨none, [], s, ?_, trivial, rfl, fun _ => rfl, fun q hq => by cases hq⟩
    rw [Heap.rt_calloc, hm]
    rfl
  · obtain ⟨hstep, hqnone⟩ := hi.malloc hfuel hm
    generalize Blocks.total xs + SIZEOF_STRUCT_MEM = q at *
    obtain ⟨s1, bs1, hstep1, hs1, -⟩ := step_malloc hi hfuel th (umul count size)
    rw [hstep] at hstep1
    obtain rfl := Option.some.inj hstep1
    have hqheld := Function.update_self q (some (RT_ALIGN (umul count size))) s.held
    obtain ⟨hlegal, hrun⟩ := run_writes (v := fun _ => 0) (g := fill h1.heap_ptr q 0)
      (s := ⟨h1, Function.update s.held q (some (RT_ALIGN (umul count size)))⟩) fuel hqheld
      (le_align hsmall) rfl fun j _ => rfl
    refine ⟨some q, _, ⟨h1.rt_memset q 0 (umul count size),
      Function.update s.held q (some (RT_ALIGN (umul count size)))⟩, ?_,
      Along.cons hstep trivial hlegal, ?_, (by rintro ⟨⟩), ?_⟩
    · rw [Heap.rt_calloc, hm]
      rfl
    · rw [run_cons, hstep, Option.bind_some, hrun]
      rfl
    · rintro q ⟨⟩
      refine ⟨hqnone, hqheld, fun i hi => fill_of_lt hi, fun t m ht => ?_⟩
      have htq : t ≠ q := by
        rintro rfl
        rw [hqnone] at ht
        cases ht
      obtain ⟨ht1, hb1⟩ := hs1.others hi ht (by rintro ⟨⟩) (by rintro i v ⟨⟩)
      have hsize := le_align hsmall
      refine ⟨ht1, fun i hlo hhi => Eq.trans (fill_of_apart ?_) (hb1 i hlo hhi)⟩
      rcases Nat.lt_or_gt_of_ne htq with hlt | hlt
      · have hap := hs1.inv.apart ht1 hqheld hlt
        omega
      · have hap := hs1.inv.apart hqheld ht1 hlt
        omega

theorem rt_calloc_tenant : ∃ r acts s',
    tenant.heap.rt_calloc 224 1 2 10 = some (s'.heap, r) ∧
      Along Legal 224 tenant acts ∧ run 224 tenant acts = some s' ∧ (r = none → s' = tenant) ∧
      ∀ q, r = some q → tenant.held q = none ∧ s'.held q = some (RT_ALIGN (umul 2 10)) ∧
        (∀ i < umul 2 10, s'.heap.heap_ptr (q + i) = 0) ∧
        ∀ t m, tenant.held t = some m → s'.held t = some m ∧
          ∀ i, t ≤ i → i < t + m → s'.heap.heap_ptr i = tenant.heap.heap_ptr i :=
  rt_calloc_run tenant_reached (by decide +kernel)

end Realloc

end Clients

end Kernel
