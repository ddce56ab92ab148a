-- SUMMARY: The heap of the kernel: allocation, release and resizing of blocks over byte memory.
import LynxFly.Base.Blocks
import LynxFly.Base.ByteMemory
import LynxFly.Kernel.Config

/-!
# mem.c

The allocator every driver takes its buffers from. A block has a `heap_mem` header in front of
its data, the headers are linked by offsets from `heap_ptr`, and `lfree` is where a search
starts. Headers and data share one memory, so that what a client writes could spoil a header.
-/

namespace Kernel

open Bytes Blocks

/-! ## Headers -/

/-- `struct heap_mem`. -/
structure heap_mem where
  magic : ℕ
  used : ℕ
  next : ℕ
  prev : ℕ
  applicant : ℕ
  deriving DecidableEq

namespace heap_mem

def magicField : Field := ⟨0, 2⟩
def usedField : Field := ⟨2, 2⟩
def nextField : Field := ⟨4, 4⟩
def prevField : Field := ⟨8, 4⟩
def applicantField : Field := ⟨12, 4⟩

end heap_mem

def HEAP_MAGIC : ℕ := 0x1ea0

/-- The sizes of a header and of the smallest data, aligned. -/
def SIZEOF_STRUCT_MEM : ℕ := 16

def MIN_SIZE_ALIGNED : ℕ := 12

/-- `RT_ALIGN(size, RT_ALIGN_SIZE)`, for sizes of 32 bits. -/
def RT_ALIGN (size : ℕ) : ℕ := uadd size 3 / 4 * 4

/-- The static variables of the allocator. Blocks are given by their offsets from `heap_ptr`. -/
structure Heap where
  heap_ptr : Mem
  mem_size_aligned : ℕ
  lfree : ℕ
  used_mem : ℕ
  max_mem : ℕ

namespace Heap

/-- The offset of the header that ends the heap. -/
def heap_end (h : Heap) : ℕ := h.mem_size_aligned + SIZEOF_STRUCT_MEM

/-- The header at an offset. -/
def mem (h : Heap) (p : ℕ) : heap_mem where
  magic := heap_mem.magicField.get h.heap_ptr p
  used := heap_mem.usedField.get h.heap_ptr p
  next := heap_mem.nextField.get h.heap_ptr p
  prev := heap_mem.prevField.get h.heap_ptr p
  applicant := heap_mem.applicantField.get h.heap_ptr p

/-- A header at the offset lies in the memory of the heap. -/
def Valid (h : Heap) (p : ℕ) : Prop := p ≤ h.heap_end

instance (h : Heap) (p : ℕ) : Decidable (h.Valid p) := inferInstanceAs (Decidable (_ ≤ _))

/-- Reading a header; there is nothing to read outside the heap. -/
def header (h : Heap) (p : ℕ) : Option heap_mem := if h.Valid p then some (h.mem p) else none

/-- Writing a field of a header. -/
def put (h : Heap) (f : Field) (p v : ℕ) : Heap := { h with heap_ptr := f.set h.heap_ptr p v }

def write (h : Heap) (f : Field) (p v : ℕ) : Option Heap :=
  if h.Valid p then some (h.put f p v) else none

/-! ## The functions -/

/-- `plug_holes`, forward: the next block is taken in if it is free. -/
def plug_forward (h : Heap) (mem : ℕ) : Option Heap := do
  let nmem := (← h.header mem).next
  let next ← h.header nmem
  if mem ≠ nmem ∧ next.used = 0 ∧ nmem ≠ h.heap_end then
    let h := { h with lfree := if h.lfree = nmem then mem else h.lfree }
    let h ← h.write heap_mem.nextField mem next.next
    h.write heap_mem.prevField next.next mem
  else
    some h

/-- `plug_holes`, backward: the block before takes this one in if it is free. -/
def plug_backward (h : Heap) (mem : ℕ) : Option Heap := do
  let this ← h.header mem
  let pmem := this.prev
  let prev ← h.header pmem
  if pmem ≠ mem ∧ prev.used = 0 then
    let h := { h with lfree := if h.lfree = mem then pmem else h.lfree }
    let h ← h.write heap_mem.nextField pmem this.next
    h.write heap_mem.prevField this.next pmem
  else
    some h

def plug_holes (h : Heap) (mem : ℕ) : Option Heap := do
  RT_ASSERT (mem < h.heap_end)
  RT_ASSERT ((← h.header mem).used = 0)
  let h ← h.plug_forward mem
  h.plug_backward mem

/-- The search of `rt_malloc`, from the block at `ptr` on; `fuel` bounds its steps. -/
def search (h : Heap) (size : ℕ) : ℕ → ℕ → Option (Option ℕ)
  | 0, _ => none
  | fuel + 1, ptr =>
    if ptr < usub h.mem_size_aligned size then do
      let mem ← h.header ptr
      if mem.used = 0 ∧ size ≤ usub mem.next (uadd ptr SIZEOF_STRUCT_MEM) then
        some (some ptr)
      else
        h.search size fuel mem.next
    else
      some none

/-- Taking memory counts. -/
def count (h : Heap) (n : ℕ) : Heap :=
  let used_mem := uadd h.used_mem n
  { h with used_mem := used_mem, max_mem := if h.max_mem < used_mem then used_mem else h.max_mem }

/-- The writes that put the header of a free block at `ptr2`, behind the block at `ptr`;
    `rt_malloc` marks that block as used before the last of them. -/
def split (h : Heap) (ptr ptr2 next : ℕ) : Option Heap := do
  let h ← h.write heap_mem.magicField ptr2 HEAP_MAGIC
  let h ← h.write heap_mem.usedField ptr2 0
  let h ← h.write heap_mem.nextField ptr2 next
  let h ← h.write heap_mem.prevField ptr2 ptr
  let h ← h.write heap_mem.nextField ptr ptr2
  if next ≠ h.heap_end then h.write heap_mem.prevField next ptr2 else some h

/-- Where `rt_malloc` takes the block at `ptr`: the rest becomes a free block if one fits. -/
def occupy (h : Heap) (rt_current_thread size ptr : ℕ) : Option Heap := do
  let next := (← h.header ptr).next
  let h ←
    if uadd (uadd size SIZEOF_STRUCT_MEM) MIN_SIZE_ALIGNED ≤
        usub next (uadd ptr SIZEOF_STRUCT_MEM) then do
      let h ← h.split ptr (uadd (uadd ptr SIZEOF_STRUCT_MEM) size) next
      let h ← h.write heap_mem.usedField ptr 1
      let h ← h.write heap_mem.applicantField ptr rt_current_thread
      some (h.count (uadd size SIZEOF_STRUCT_MEM))
    else do
      let h ← h.write heap_mem.usedField ptr 1
      some (h.count (usub next ptr))
  h.write heap_mem.magicField ptr HEAP_MAGIC

/-- The loop of `rt_malloc` that moves `lfree` to the next free block. -/
def advance (h : Heap) : ℕ → ℕ → Option ℕ
  | 0, _ => none
  | fuel + 1, lfree => do
    let mem ← h.header lfree
    if mem.used ≠ 0 ∧ lfree ≠ h.heap_end then h.advance fuel mem.next else some lfree

/-- The size `rt_malloc` looks for. -/
def request (size : ℕ) : ℕ :=
  if RT_ALIGN size < MIN_SIZE_ALIGNED then MIN_SIZE_ALIGNED else RT_ALIGN size

/-- `rt_malloc`; the data is given by its offset. -/
def rt_malloc (h : Heap) (fuel rt_current_thread size : ℕ) : Option (Heap × Option ℕ) :=
  if size = 0 then
    some (h, none)
  else if h.mem_size_aligned < RT_ALIGN size then
    some (h, none)
  else do
    match ← h.search (request size) fuel h.lfree with
    | none => some (h, none)
    | some mem =>
      let h ← h.occupy rt_current_thread (request size) mem
      let h ←
        if mem = h.lfree then do
          let lfree ← h.advance fuel mem
          RT_ASSERT (lfree = h.heap_end ∨ (← h.header lfree).used = 0)
          some { h with lfree := lfree }
        else
          some h
      RT_ASSERT (mem + SIZEOF_STRUCT_MEM + request size ≤ h.heap_end)
      RT_ASSERT ((mem + SIZEOF_STRUCT_MEM) % 4 = 0)
      RT_ASSERT (mem % 4 = 0)
      some (h, some (mem + SIZEOF_STRUCT_MEM))

/-- `rt_free`; the pointer may be NULL. -/
def rt_free (h : Heap) : Option ℕ → Option Heap
  | none => some h
  | some rmem => do
    RT_ASSERT (rmem % 4 = 0)
    RT_ASSERT (rmem < h.heap_end)
    let mem := usub rmem SIZEOF_STRUCT_MEM
    let this ← h.header mem
    RT_ASSERT (this.used ≠ 0)
    RT_ASSERT (this.magic = HEAP_MAGIC)
    let h ← h.write heap_mem.usedField mem 0
    let h ← h.write heap_mem.magicField mem HEAP_MAGIC
    let h := { h with lfree := if mem < h.lfree then mem else h.lfree }
    let h := { h with used_mem := usub h.used_mem (usub this.next mem) }
    h.plug_holes mem

/-- The part of `rt_realloc` that holds the semaphore. Either the block itself is the answer,
    or it is too small, and its size is. -/
def resize (h : Heap) (rmem newsize : ℕ) : Option (Heap × Option ℕ) :=
  if h.heap_end ≤ rmem then
    some (h, none)
  else do
    let ptr := usub rmem SIZEOF_STRUCT_MEM
    let next := (← h.header ptr).next
    let size := usub (usub next ptr) SIZEOF_STRUCT_MEM
    if size = newsize then
      some (h, none)
    else if uadd (uadd newsize SIZEOF_STRUCT_MEM) MIN_SIZE < size then do
      let h := { h with used_mem := usub h.used_mem (usub size newsize) }
      let ptr2 := uadd (uadd ptr SIZEOF_STRUCT_MEM) newsize
      let h ← h.split ptr ptr2 next
      some (← h.plug_holes ptr2, none)
    else
      some (h, some size)

/-- `rt_memcpy` on the heap. -/
def rt_memcpy (h : Heap) (dst src n : ℕ) : Heap := { h with heap_ptr := copy h.heap_ptr dst src n }

def rt_memset (h : Heap) (a : ℕ) (v : BitVec 8) (n : ℕ) : Heap :=
  { h with heap_ptr := fill h.heap_ptr a v n }

/-- `rt_realloc`. -/
def rt_realloc (h : Heap) (fuel rt_current_thread : ℕ) (rmem : Option ℕ) (newsize : ℕ) :
    Option (Heap × Option ℕ) :=
  if h.mem_size_aligned < RT_ALIGN newsize then
    some (h, none)
  else
    match rmem with
    | none => h.rt_malloc fuel rt_current_thread (RT_ALIGN newsize)
    | some rmem => do
      match ← h.resize rmem (RT_ALIGN newsize) with
      | (h, none) => some (h, some rmem)
      | (h, some size) =>
        match ← h.rt_malloc fuel rt_current_thread (RT_ALIGN newsize) with
        | (h, none) => some (h, none)
        | (h, some nmem) =>
          let h := h.rt_memcpy nmem rmem
            (if size < RT_ALIGN newsize then size else RT_ALIGN newsize)
          some (← h.rt_free (some rmem), some nmem)

/-- `rt_calloc`. -/
def rt_calloc (h : Heap) (fuel rt_current_thread count size : ℕ) : Option (Heap × Option ℕ) := do
  match ← h.rt_malloc fuel rt_current_thread (umul count size) with
  | (h, none) => some (h, none)
  | (h, some p) => some (h.rt_memset p 0 (umul count size), some p)

/-- The headers `rt_system_heap_init` writes, at the two ends. -/
def format (h : Heap) : Option Heap := do
  let h ← h.write heap_mem.magicField 0 HEAP_MAGIC
  let h ← h.write heap_mem.nextField 0 h.heap_end
  let h ← h.write heap_mem.prevField 0 0
  let h ← h.write heap_mem.usedField 0 0
  let h ← h.write heap_mem.magicField h.heap_end HEAP_MAGIC
  let h ← h.write heap_mem.usedField h.heap_end 1
  let h ← h.write heap_mem.nextField h.heap_end h.heap_end
  h.write heap_mem.prevField h.heap_end h.heap_end

/-- `rt_system_heap_init`, the heap in the memory from `begin_addr` to `end_addr`; there is none
    when the memory is too small. -/
def rt_system_heap_init (memory : Mem) (begin_addr end_addr : ℕ) : Option Heap :=
  let begin_align := RT_ALIGN begin_addr
  let end_align := end_addr / 4 * 4
  if 2 * SIZEOF_STRUCT_MEM < end_align ∧ begin_align ≤ end_align - 2 * SIZEOF_STRUCT_MEM then
    format
      { heap_ptr := fun i => memory (begin_align + i)
        mem_size_aligned := end_align - begin_align - 2 * SIZEOF_STRUCT_MEM
        lfree := 0
        used_mem := 0
        max_mem := 0 }
  else
    none

/-- The test `memcheck` makes of a header. -/
def intact (h : Heap) (mem : heap_mem) : Prop :=
  mem.magic = HEAP_MAGIC ∧ (mem.used = 0 ∨ mem.used = 1) ∧
    (0 < mem.next ∧ mem.next ≤ h.heap_end) ∧ mem.prev < h.heap_end ∧ mem.prev < mem.next

instance (h : Heap) (mem : heap_mem) : Decidable (h.intact mem) :=
  inferInstanceAs (Decidable (_ ∧ _))

/-- `memcheck`, from the block at `index` on: whether every header passes. -/
def memcheck (h : Heap) : ℕ → ℕ → Option Bool
  | 0, _ => none
  | fuel + 1, index =>
    if index ≠ h.heap_end then do
      let mem ← h.header index
      if h.intact mem then h.memcheck fuel mem.next else some false
    else
      some true

/-! ## Reading what was written -/

section Fields

variable {h h' : Heap} {f : Field} {p r v i : ℕ}

theorem header_eq (hp : p ≤ h.heap_end) : h.header p = some (h.mem p) := if_pos hp

theorem write_eq (hp : p ≤ h.heap_end) : h.write f p v = some (h.put f p v) := if_pos hp

theorem rt_assert_of {c : Prop} [Decidable c] (hc : c) : RT_ASSERT c = some () := if_pos hc

@[simp] theorem heap_end_put : (h.put f p v).heap_end = h.heap_end := rfl
@[simp] theorem mem_size_aligned_put : (h.put f p v).mem_size_aligned = h.mem_size_aligned := rfl
@[simp] theorem lfree_put : (h.put f p v).lfree = h.lfree := rfl
@[simp] theorem used_mem_put : (h.put f p v).used_mem = h.used_mem := rfl
@[simp] theorem max_mem_put : (h.put f p v).max_mem = h.max_mem := rfl

/-- Only its own bytes matter to a header. -/
theorem mem_congr (hb : ∀ i, p ≤ i → i < p + SIZEOF_STRUCT_MEM → h'.heap_ptr i = h.heap_ptr i) :
    h'.mem p = h.mem p := by
  have hfield : ∀ f : Field, Field.Within SIZEOF_STRUCT_MEM f →
      f.get h'.heap_ptr p = f.get h.heap_ptr p := fun f hf => Field.get_congr hf hb
  rw [mem, mem, hfield _ (by decide), hfield _ (by decide), hfield _ (by decide),
    hfield _ (by decide), hfield _ (by decide)]

/-- A header's fields are written without touching what lies apart from it. -/
theorem put_of_apart (hf : Field.Within SIZEOF_STRUCT_MEM f)
    (hi : i < p ∨ p + SIZEOF_STRUCT_MEM ≤ i) : (h.put f p v).heap_ptr i = h.heap_ptr i :=
  Field.set_of_apart hf hi

theorem mem_put_of_apart (hf : Field.Within SIZEOF_STRUCT_MEM f)
    (hp : r + SIZEOF_STRUCT_MEM ≤ p ∨ p + SIZEOF_STRUCT_MEM ≤ r) :
    (h.put f p v).mem r = h.mem r :=
  mem_congr fun _ _ _ => put_of_apart hf (by omega)

theorem mem_put_magic (hv : v < 2 ^ 16) :
    (h.put heap_mem.magicField p v).mem p = { h.mem p with magic := v } := by
  rw [mem, put, Field.get_set_self (by exact hv), Field.get_set_of_apart (by decide),
    Field.get_set_of_apart (by decide), Field.get_set_of_apart (by decide),
    Field.get_set_of_apart (by decide)]
  rfl

theorem mem_put_used (hv : v < 2 ^ 16) :
    (h.put heap_mem.usedField p v).mem p = { h.mem p with used := v } := by
  rw [mem, put, Field.get_set_self (by exact hv), Field.get_set_of_apart (by decide),
    Field.get_set_of_apart (by decide), Field.get_set_of_apart (by decide),
    Field.get_set_of_apart (by decide)]
  rfl

theorem mem_put_next (hv : v < 2 ^ 32) :
    (h.put heap_mem.nextField p v).mem p = { h.mem p with next := v } := by
  rw [mem, put, Field.get_set_self (by exact hv), Field.get_set_of_apart (by decide),
    Field.get_set_of_apart (by decide), Field.get_set_of_apart (by decide),
    Field.get_set_of_apart (by decide)]
  rfl

theorem mem_put_prev (hv : v < 2 ^ 32) :
    (h.put heap_mem.prevField p v).mem p = { h.mem p with prev := v } := by
  rw [mem, put, Field.get_set_self (by exact hv), Field.get_set_of_apart (by decide),
    Field.get_set_of_apart (by decide), Field.get_set_of_apart (by decide),
    Field.get_set_of_apart (by decide)]
  rfl

/-- The applicant is only kept for the dump of a block. -/
theorem mem_put_applicant : ∃ a,
    (h.put heap_mem.applicantField p v).mem p = { h.mem p with applicant := a } := by
  refine ⟨heap_mem.applicantField.get (h.put heap_mem.applicantField p v).heap_ptr p, ?_⟩
  rw [mem, put, Field.get_set_of_apart (by decide), Field.get_set_of_apart (by decide),
    Field.get_set_of_apart (by decide), Field.get_set_of_apart (by decide)]
  rfl

end Fields

/-! ## The blocks of a heap -/

/-- A block, header and data. -/
abbrev HeapBlock := Block SIZEOF_STRUCT_MEM 4

/-- The header at `p` is that of the block `b`, which comes after the block at `q`. -/
structure Header (h : Heap) (q p : ℕ) (b : HeapBlock) : Prop where
  magic : (h.mem p).magic = HEAP_MAGIC
  used : (h.mem p).used = b.used.toNat
  next : (h.mem p).next = p + b.len
  prev : (h.mem p).prev = q

/-- The headers from `p` on are those of the blocks; `q` is the block before, `q'` the last. -/
def Seg (h : Heap) : ℕ → ℕ → List HeapBlock → ℕ → Prop
  | q, _, [], q' => q' = q
  | q, p, b :: bs, q' => Header h q p b ∧ Seg h p (p + b.len) bs q'

/-- The headers are those of the blocks, which fill the heap up to the header that ends it. -/
structure Chain (h : Heap) (bs : List HeapBlock) : Prop where
  seg : ∃ q, Seg h 0 0 bs q
  total : total bs = h.heap_end
  stop_used : (h.mem h.heap_end).used = 1
  stop_next : (h.mem h.heap_end).next = h.heap_end
  small : h.heap_end + SIZEOF_STRUCT_MEM ≤ 2 ^ 32

section Chains

variable {h h' : Heap} {b c : HeapBlock} {bs xs ys : List HeapBlock} {f : Field}
  {p q q' q'' r v : ℕ}

theorem Header.congr (hh : Header h q p b) (hm : h'.mem p = h.mem p) : Header h' q p b :=
  ⟨by rw [hm, hh.magic], by rw [hm, hh.used], by rw [hm, hh.next], by rw [hm, hh.prev]⟩

theorem seg_append : Seg h q p (xs ++ ys) q'' ↔
    ∃ q', Seg h q p xs q' ∧ Seg h q' (p + Blocks.total xs) ys q'' := by
  induction xs generalizing q p with
  | nil => simp [Seg]
  | cons x xs ih => simp [Seg, ih, and_assoc, Nat.add_assoc]

/-- Headers that do not change still are those of their blocks. -/
theorem Seg.congr (hs : Seg h q p bs q')
    (hm : ∀ r, p ≤ r → r + SIZEOF_STRUCT_MEM ≤ p + Blocks.total bs → h'.mem r = h.mem r) :
    Seg h' q p bs q' := by
  induction bs generalizing q p with
  | nil => exact hs
  | cons b bs ih =>
    rw [total_cons] at hm
    have hroom := b.room
    refine ⟨hs.1.congr (hm p le_rfl (by omega)), ih hs.2 fun r h1 h2 => hm r ?_ ?_⟩
    · omega
    · omega

/-- Blocks behind another one than before. -/
theorem Seg.relink (hs : Seg h q p bs q')
    (hfirst : bs ≠ [] → h'.mem p = { h.mem p with prev := q'' })
    (hm : ∀ r, p + SIZEOF_STRUCT_MEM ≤ r → r + SIZEOF_STRUCT_MEM ≤ p + Blocks.total bs →
      h'.mem r = h.mem r) : ∃ q, Seg h' q'' p bs q := by
  cases bs with
  | nil => exact ⟨_, rfl⟩
  | cons b bs =>
    rw [total_cons] at hm
    have hfirst := hfirst (List.cons_ne_nil b bs)
    have hroom := b.room
    refine ⟨q', ⟨?_, ?_, ?_, ?_⟩, hs.2.congr fun r h1 h2 => hm r (by omega) (by omega)⟩
    · rw [hfirst, hs.1.magic]
    · rw [hfirst, hs.1.used]
    · rw [hfirst, hs.1.next]
    · rw [hfirst]

/-- The headers before a block, its own, and those behind it. -/
theorem Chain.around (hc : Chain h (xs ++ b :: ys)) : ∃ q q', Seg h 0 0 xs q ∧
    Header h q (Blocks.total xs) b ∧
      Seg h (Blocks.total xs) (Blocks.total xs + b.len) ys q' := by
  obtain ⟨q', hs⟩ := hc.seg
  obtain ⟨q, h1, h2, h3⟩ := seg_append.mp hs
  rw [Nat.zero_add] at h2 h3
  exact ⟨q, q', h1, h2, h3⟩

theorem Chain.header (hc : Chain h (xs ++ b :: ys)) : ∃ q, Header h q (Blocks.total xs) b := by
  obtain ⟨q, -, -, hh, -⟩ := hc.around
  exact ⟨q, hh⟩

theorem Chain.bounds (hc : Chain h (xs ++ b :: ys)) : SIZEOF_STRUCT_MEM ≤ b.len ∧
    Blocks.total xs + b.len + Blocks.total ys = h.heap_end := by
  have htotal := hc.total
  rw [total_append, total_cons] at htotal
  exact ⟨b.room, by omega⟩

theorem Chain.used_of_mem {u : Bool} {s l : ℕ} (hc : Chain h bs) (hsl : (s, l) ∈ blocksAt u 0 bs) :
    (h.mem s).used = u.toNat := by
  obtain ⟨xs, b, ys, rfl, rfl, rfl, rfl⟩ := exists_of_mem_blocksAt hsl
  obtain ⟨q, hh⟩ := hc.header
  rw [Nat.zero_add, hh.used]

/-- Only the memory and its size matter. -/
theorem Chain.congr (hc : Chain h bs) (hptr : h'.heap_ptr = h.heap_ptr)
    (hsize : h'.mem_size_aligned = h.mem_size_aligned) : Chain h' bs := by
  have hmem : ∀ r, h'.mem r = h.mem r := fun r => mem_congr fun i _ _ => by rw [hptr]
  have hend : h'.heap_end = h.heap_end := by rw [heap_end, hsize, heap_end]
  obtain ⟨q, hs⟩ := hc.seg
  exact ⟨⟨q, hs.congr fun r _ _ => hmem r⟩, by rw [hend, hc.total],
    by rw [hend, hmem, hc.stop_used],
    by rw [hend, hmem, hc.stop_next], by rw [hend]; exact hc.small⟩

/-- Some blocks, from `p` to `n`, are replaced by others: the headers elsewhere are left alone,
    but for the `prev` of the one behind. -/
theorem Chain.replace (zs zs' : List HeapBlock) {n : ℕ} (hc : Chain h (xs ++ (zs ++ ys)))
    (hp : p = Blocks.total xs) (hn : n = p + Blocks.total zs)
    (htotal : Blocks.total zs' = Blocks.total zs) (hsize : h'.heap_end = h.heap_end)
    (hbefore : ∀ r, r + SIZEOF_STRUCT_MEM ≤ p → h'.mem r = h.mem r)
    (hbehind : ∀ r, n + SIZEOF_STRUCT_MEM ≤ r → h'.mem r = h.mem r)
    (hzs : ∀ q q', Seg h q p zs q' → ∃ v, Seg h' q p zs' v ∧
      (h'.mem n = { h.mem n with prev := v } ∨ h'.mem n = h.mem n ∧ (n = h.heap_end ∨ v = q'))) :
    Chain h' (xs ++ (zs' ++ ys)) := by
  subst hp hn
  obtain ⟨q3, hs⟩ := hc.seg
  obtain ⟨q1, hxs, hs⟩ := seg_append.mp hs
  rw [Nat.zero_add] at hs
  obtain ⟨q2, hmid, hys⟩ := seg_append.mp hs
  have hend := hc.total
  rw [total_append, total_append] at hend
  obtain ⟨v, hmid', hnext⟩ := hzs _ _ hmid
  have hprev : ∃ v', h'.mem (Blocks.total xs + Blocks.total zs) =
      { h.mem (Blocks.total xs + Blocks.total zs) with prev := v' } := by
    rcases hnext with hnext | ⟨hnext, -⟩
    · exact ⟨v, hnext⟩
    · exact ⟨_, hnext⟩
  have hys' : ∃ q, Seg h' v (Blocks.total xs + Blocks.total zs) ys q := by
    refine hys.relink (fun hne => ?_) fun r h1 _ => hbehind r h1
    rcases hnext with hnext | ⟨hnext, hstop | rfl⟩
    · exact hnext
    · obtain ⟨d, ds, rfl⟩ := List.exists_cons_of_ne_nil hne
      have hroom := d.room
      have hsize : SIZEOF_STRUCT_MEM = 16 := rfl
      rw [total_cons] at hend
      omega
    · rw [hnext]
      obtain ⟨d, ds, rfl⟩ := List.exists_cons_of_ne_nil hne
      rw [← hys.1.prev]
  have hstop : ∃ v', h'.mem h.heap_end = { h.mem h.heap_end with prev := v' } := by
    rcases ys with _ | ⟨d, ds⟩
    · rw [total_nil, Nat.add_zero] at hend
      rw [← hend]
      exact hprev
    · have hroom := d.room
      rw [total_cons] at hend
      exact ⟨_, hbehind _ (by omega)⟩
  obtain ⟨v', hstop⟩ := hstop
  obtain ⟨q4, hys'⟩ := hys'
  refine ⟨⟨q4, seg_append.mpr ⟨q1, hxs.congr fun r _ h2 => hbefore r (by omega), ?_⟩⟩,
    ?_, ?_, ?_, ?_⟩
  · rw [Nat.zero_add]
    exact seg_append.mpr ⟨v, hmid', by rw [htotal]; exact hys'⟩
  · rw [total_append, total_append, htotal, hsize, hend]
  · rw [hsize, hstop]
    exact hc.stop_used
  · rw [hsize, hstop]
    exact hc.stop_next
  · rw [hsize]
    exact hc.small

end Chains

/-! ## Putting blocks together -/

/-- The block at `mem` takes in the next one, at `nmem`, which ends at `next`. -/
def merge (h : Heap) (mem nmem next : ℕ) : Heap :=
  { (h.put heap_mem.nextField mem next).put heap_mem.prevField next mem with
    lfree := if h.lfree = nmem then mem else h.lfree }

section Merge

variable {h : Heap} {b c : HeapBlock} {xs ys : List HeapBlock}

theorem Chain.merge (hc : Chain h (xs ++ b :: c :: ys)) :
    Chain (h.merge (Blocks.total xs) (Blocks.total xs + b.len) (Blocks.total xs + b.len + c.len))
      (xs ++ b.join c :: ys) := by
  have hrb := b.room
  have hrc := c.room
  have hend := hc.bounds.2
  have hsmall := hc.small
  have hsize : SIZEOF_STRUCT_MEM = 16 := rfl
  rw [total_cons] at hend
  have hp : Field.Within SIZEOF_STRUCT_MEM heap_mem.prevField := by decide
  have hn : Field.Within SIZEOF_STRUCT_MEM heap_mem.nextField := by decide
  refine Chain.congr (h := (h.put heap_mem.nextField (Blocks.total xs)
    (Blocks.total xs + b.len + c.len)).put heap_mem.prevField (Blocks.total xs + b.len + c.len)
      (Blocks.total xs)) ?_ rfl rfl
  refine Chain.replace [b, c] [b.join c] hc rfl rfl ?_ rfl (fun r hr => ?_)
    (fun r hr => ?_) fun q q' ⟨hb, hc, _⟩ => ⟨Blocks.total xs, ⟨?_, rfl⟩, .inl ?_⟩
  all_goals
    simp only [total_cons, total_nil, Block.len_join, Nat.add_zero, ← Nat.add_assoc] at *
  · rw [mem_put_of_apart hp (by omega), mem_put_of_apart hn (by omega)]
  · rw [mem_put_of_apart hp (by omega), mem_put_of_apart hn (by omega)]
  · refine ⟨?_, ?_, ?_, ?_⟩
    all_goals rw [mem_put_of_apart hp (by omega), mem_put_next (by omega)]
    · exact hb.magic
    · exact hb.used
    · rw [Block.len_join, Nat.add_assoc]
    · exact hb.prev
  · rw [mem_put_prev (by omega), mem_put_of_apart hn (by omega)]

end Merge

/-- The data of the used blocks is the same. -/
def SameData (h h' : Heap) (bs : List HeapBlock) : Prop :=
  ∀ s l, (s, l) ∈ blocksAt true 0 bs →
    ∀ i, s + SIZEOF_STRUCT_MEM ≤ i → i < s + l → h'.heap_ptr i = h.heap_ptr i

/-- A search starts at a free block, if there is any to start at. -/
def StartsFree (h : Heap) (bs : List HeapBlock) : Prop :=
  h.lfree = h.heap_end ∨ ∃ l, (h.lfree, l) ∈ blocksAt false 0 bs

/-- No free block comes before the search. -/
def Lowest (h : Heap) (bs : List HeapBlock) : Prop :=
  ∀ s l, (s, l) ∈ blocksAt false 0 bs → h.lfree ≤ s

/-- What plugging holes does: the blocks change, the used ones and all else do not. -/
structure Plugged (h h' : Heap) (bs bs' : List HeapBlock) : Prop where
  chain : Chain h' bs'
  used : blocksAt true 0 bs' = blocksAt true 0 bs
  lfree : StartsFree h bs → StartsFree h' bs'
  lowest : StartsFree h bs → Lowest h bs → Lowest h' bs'
  sub : ∀ s l, (s, l) ∈ blocksAt false 0 bs' → ∃ l', (s, l') ∈ blocksAt false 0 bs
  le : h'.lfree ≤ h.lfree
  floor : ∀ s l, (s, l) ∈ blocksAt false 0 bs' → s ≤ h.lfree → s ≤ h'.lfree
  stop : h.lfree = h.heap_end → h'.lfree = h'.heap_end
  data : SameData h h' bs
  size : h'.mem_size_aligned = h.mem_size_aligned
  used_mem : h'.used_mem = h.used_mem
  max_mem : h'.max_mem = h.max_mem

section Plugging

variable {h h' h'' : Heap} {a b c : HeapBlock} {bs bs' bs'' xs ys : List HeapBlock} {f : Field}
  {p q q' r v : ℕ}

theorem Plugged.refl (hc : Chain h bs) : Plugged h h bs bs :=
  ⟨hc, rfl, id, fun _ => id, fun _ l hsl => ⟨l, hsl⟩, le_rfl, fun _ _ _ => id, id,
    fun _ _ _ _ _ _ => rfl, rfl, rfl, rfl⟩

theorem Plugged.trans (h1 : Plugged h h' bs bs') (h2 : Plugged h' h'' bs' bs'') :
    Plugged h h'' bs bs'' where
  chain := h2.chain
  used := h2.used.trans h1.used
  lfree hs := h2.lfree (h1.lfree hs)
  lowest hs hl := h2.lowest (h1.lfree hs) (h1.lowest hs hl)
  sub s l hsl := by
    obtain ⟨l', hsl'⟩ := h2.sub s l hsl
    exact h1.sub s l' hsl'
  le := h2.le.trans h1.le
  floor s l hsl hle := by
    obtain ⟨l', hsl'⟩ := h2.sub s l hsl
    exact h2.floor s l hsl (h1.floor s l' hsl' hle)
  stop hs := h2.stop (h1.stop hs)
  data s l hu i hlo hhi := (h2.data s l (h1.used ▸ hu) i hlo hhi).trans (h1.data s l hu i hlo hhi)
  size := h2.size.trans h1.size
  used_mem := h2.used_mem.trans h1.used_mem
  max_mem := h2.max_mem.trans h1.max_mem

/-- Where one block ends and another starts there is no data. -/
theorem apart_of_boundary {s l : ℕ} (hu : (s, l) ∈ blocksAt true 0 (xs ++ ys)) :
    Blocks.total xs ≤ s ∨ s + l ≤ Blocks.total xs := by
  rw [blocksAt_append, List.mem_append] at hu
  rcases hu with hu | hu
  · have hb := (mem_blocksAt_bounds hu).2.2.1
    exact .inr (by omega)
  · have hb := (mem_blocksAt_bounds hu).1
    exact .inl (by omega)

/-- A header written between blocks leaves the data alone. -/
theorem sameData_put (hf : Field.Within SIZEOF_STRUCT_MEM f) (hbs : bs = xs ++ ys)
    (hp : p = Blocks.total xs) : SameData h (h.put f p v) bs := by
  subst hbs hp
  intro s l hu i hlo hhi
  refine put_of_apart hf ?_
  rcases apart_of_boundary hu with h1 | h1
  · exact .inr (by omega)
  · exact .inl (by omega)

theorem SameData.trans (h1 : SameData h h' bs) (h2 : SameData h' h'' bs) : SameData h h'' bs :=
  fun s l hu i hlo hhi => (h2 s l hu i hlo hhi).trans (h1 s l hu i hlo hhi)

/-- Two free neighbours are put together. -/
theorem plugged_merge (hc : Chain h (xs ++ b :: c :: ys)) (hb : b.used = false)
    (hcu : c.used = false) : Plugged h
      (h.merge (Blocks.total xs) (Blocks.total xs + b.len) (Blocks.total xs + b.len + c.len))
      (xs ++ b :: c :: ys) (xs ++ b.join c :: ys) := by
  have hrb := b.room
  have hsize : SIZEOF_STRUCT_MEM = 16 := rfl
  have hcb : (b.join c).used = false := hb
  -- The free blocks are those before without the second of the two.
  have hfree : ∀ x, x ∈ blocksAt false 0 (xs ++ b :: c :: ys) ↔ x ∈ blocksAt false 0 xs ∨
      x = (Blocks.total xs, b.len) ∨ x = (Blocks.total xs + b.len, c.len) ∨
        x ∈ blocksAt false (Blocks.total xs + b.len + c.len) ys := by
    intro x
    rw [mem_blocksAt_around, blocksAt_cons_self hcu, List.mem_cons, and_iff_right hb, Nat.zero_add]
  have hfree' : ∀ x, x ∈ blocksAt false 0 (xs ++ b.join c :: ys) ↔ x ∈ blocksAt false 0 xs ∨
      x = (Blocks.total xs, b.len + c.len) ∨
        x ∈ blocksAt false (Blocks.total xs + b.len + c.len) ys := by
    intro x
    rw [mem_blocksAt_around, and_iff_right hcb, Nat.zero_add, Block.len_join, Nat.add_assoc]
  have hlf : (h.merge (Blocks.total xs) (Blocks.total xs + b.len)
      (Blocks.total xs + b.len + c.len)).lfree =
        if h.lfree = Blocks.total xs + b.len then Blocks.total xs else h.lfree := rfl
  refine ⟨hc.merge, ?_, ?_, ?_, fun s l hsl => ?_, ?_, fun s l hsl hle => ?_, fun hs => ?_, ?_, rfl,
    rfl, rfl⟩
  · rw [blocksAt_append, blocksAt_cons_free hcb, blocksAt_append, blocksAt_cons_free hb,
      blocksAt_cons_free hcu, Block.len_join, Nat.add_assoc _ b.len]
  · intro hs
    rw [StartsFree, hlf]
    by_cases hl : h.lfree = Blocks.total xs + b.len
    · rw [if_pos hl]
      exact .inr ⟨_, (hfree' _).mpr (.inr (.inl rfl))⟩
    · rw [if_neg hl]
      refine hs.imp id fun ⟨l, hl'⟩ => ?_
      rcases (hfree _).mp hl' with h1 | h1 | h1 | h1
      · exact ⟨l, (hfree' _).mpr (.inl h1)⟩
      · exact ⟨_, (hfree' _).mpr (.inr (.inl (by rw [(Prod.mk.inj h1).1])))⟩
      · exact absurd (Prod.mk.inj h1).1 hl
      · exact ⟨l, (hfree' _).mpr (.inr (.inr h1))⟩
  · intro _ hlow s l hsl
    rw [hlf]
    have hb0 := hlow _ _ ((hfree _).mpr (.inr (.inl rfl)))
    rw [if_neg (by omega)]
    rcases (hfree' _).mp hsl with h1 | h1 | h1
    · exact hlow _ _ ((hfree _).mpr (.inl h1))
    · exact (Prod.mk.inj h1).1 ▸ hb0
    · exact hlow _ _ ((hfree _).mpr (.inr (.inr (.inr h1))))
  · rcases (hfree' _).mp hsl with h1 | h1 | h1
    · exact ⟨l, (hfree _).mpr (.inl h1)⟩
    · exact ⟨_, (hfree _).mpr (.inr (.inl (by rw [(Prod.mk.inj h1).1])))⟩
    · exact ⟨l, (hfree _).mpr (.inr (.inr (.inr h1)))⟩
  · rw [hlf]
    split <;> omega
  · -- No free block starts inside the two.
    rw [hlf]
    split
    case isTrue hl =>
      rcases (hfree' _).mp hsl with h1 | h1 | h1
      · have hb := (mem_blocksAt_bounds h1).2.2.1
        omega
      · exact (Prod.mk.inj h1).1.le
      · have hb := (mem_blocksAt_bounds h1).1
        have hrc := c.room
        omega
    case isFalse => exact hle
  · have hend := hc.bounds.2
    have hrc := c.room
    rw [total_cons] at hend
    rw [hlf, if_neg (by omega)]
    exact hs
  · refine (sameData_put (f := heap_mem.nextField) (v := Blocks.total xs + b.len + c.len)
      (by decide) rfl rfl).trans (sameData_put (by decide)
        (show xs ++ b :: c :: ys = xs ++ [b, c] ++ ys by simp) ?_)
    rw [total_append, total_cons, total_cons, total_nil, Nat.add_zero, Nat.add_assoc]

theorem plug_forward_eq (hp : p ≤ h.heap_end) (hn : (h.mem p).next ≤ h.heap_end)
    (hnn : (h.mem (h.mem p).next).next ≤ h.heap_end) : h.plug_forward p = some
      (if p ≠ (h.mem p).next ∧ (h.mem (h.mem p).next).used = 0 ∧ (h.mem p).next ≠ h.heap_end then
        h.merge p (h.mem p).next (h.mem (h.mem p).next).next
      else h) := by
  simp only [plug_forward, header_eq hp, header_eq hn, Option.bind_eq_bind, Option.bind_some]
  split
  · rw [write_eq (by exact hp), Option.bind_some, write_eq (by exact hnn)]
    rfl
  · rfl

theorem plug_backward_eq (hp : p ≤ h.heap_end) (hn : (h.mem p).next ≤ h.heap_end)
    (hq : (h.mem p).prev ≤ h.heap_end) : h.plug_backward p = some
      (if (h.mem p).prev ≠ p ∧ (h.mem (h.mem p).prev).used = 0 then
        h.merge (h.mem p).prev p (h.mem p).next
      else h) := by
  simp only [plug_backward, header_eq hp, header_eq hq, Option.bind_eq_bind, Option.bind_some]
  split
  · rw [write_eq (by exact hq), Option.bind_some, write_eq (by exact hn)]
    rfl
  · rfl

/-- `plug_holes`, forward. -/
theorem plug_forward_spec (hc : Chain h (xs ++ b :: ys)) (hb : b.used = false) :
    ∃ h', h.plug_forward (Blocks.total xs) = some h' ∧
      Plugged h h' (xs ++ b :: ys) (xs ++ absorb b ys) := by
  obtain ⟨q, q', -, hh, hs⟩ := hc.around
  have hend := hc.bounds.2
  have hrb := b.room
  have hsize : SIZEOF_STRUCT_MEM = 16 := rfl
  cases ys with
  | nil =>
    rw [total_nil, Nat.add_zero] at hend
    refine ⟨h, ?_, Plugged.refl hc⟩
    rw [plug_forward_eq (by omega) (by rw [hh.next, hend])
      (by rw [hh.next, hend, hc.stop_next]), if_neg fun hn => hn.2.2 (by rw [hh.next, hend])]
  | cons c cs =>
    have hrc := c.room
    rw [total_cons] at hend
    refine ⟨_, plug_forward_eq (by omega) (by rw [hh.next]; omega)
      (by rw [hh.next, hs.1.next]; omega), ?_⟩
    rw [hh.next, hs.1.used, hs.1.next, absorb]
    cases hcu : c.used with
    | true =>
      rw [if_neg fun hn => Nat.one_ne_zero hn.2.1, if_pos rfl]
      exact Plugged.refl hc
    | false =>
      rw [if_pos ⟨by omega, rfl, by omega⟩, if_neg Bool.false_ne_true]
      exact plugged_merge hc hb hcu

theorem seg_concat : Seg h q p (xs ++ [b]) q' →
    q' = p + Blocks.total xs ∧ ∃ q'', Header h q'' (p + Blocks.total xs) b := by
  intro hs
  obtain ⟨q'', -, hh, hq⟩ := seg_append.mp hs
  exact ⟨hq, q'', hh⟩

/-- `plug_holes`, backward. -/
theorem plug_backward_spec (hc : Chain h (xs ++ b :: ys)) (hb : b.used = false) :
    ∃ h' bs', h.plug_backward (Blocks.total xs) = some h' ∧ Plugged h h' (xs ++ b :: ys) bs' ∧
      ((∀ a ∈ xs.getLast?, a.used = true) → bs' = xs ++ b :: ys) ∧
      ∀ xs' a, xs = xs' ++ [a] → a.used = false → bs' = xs' ++ a.join b :: ys := by
  obtain ⟨q, q', hxs, hh, hs⟩ := hc.around
  have hend := hc.bounds.2
  have hrb := b.room
  have hsize : SIZEOF_STRUCT_MEM = 16 := rfl
  rcases List.eq_nil_or_concat' xs with rfl | ⟨xs', a, rfl⟩
  · have hq : q = 0 := hxs
    subst hq
    refine ⟨h, _, ?_, Plugged.refl hc, fun _ => rfl, fun xs' a hx => ?_⟩
    · rw [plug_backward_eq (by omega) (by rw [hh.next]; omega) (by rw [hh.prev]; omega),
        if_neg fun hn => hn.1 hh.prev]
    · exact absurd hx.symm (List.append_ne_nil_of_right_ne_nil xs' (List.cons_ne_nil a []))
  · have hra := a.room
    obtain ⟨rfl, q'', ha⟩ := seg_concat hxs
    rw [Nat.zero_add] at ha hh
    rw [total_append, total_cons, total_nil, Nat.add_zero] at hend
    have hle : Blocks.total (xs' ++ [a]) = Blocks.total xs' + a.len := by
      rw [total_append, total_cons, total_nil, Nat.add_zero]
    have heq := plug_backward_eq (h := h) (p := Blocks.total (xs' ++ [a])) (by omega)
      (by rw [hh.next]; omega) (by rw [hh.prev]; omega)
    rw [hh.prev, hh.next, ha.used] at heq
    cases hau : a.used with
    | true =>
      rw [hau, if_neg fun hn => Nat.one_ne_zero hn.2] at heq
      refine ⟨h, _, heq, Plugged.refl hc, fun _ => rfl, fun xs'' a' hx ha' => ?_⟩
      obtain ⟨-, hx⟩ := List.append_inj' hx rfl
      cases hx
      rw [hau] at ha'
      cases ha'
    | false =>
      rw [hau, if_pos ⟨by omega, rfl⟩] at heq
      rw [List.append_assoc, List.singleton_append] at hc ⊢
      refine ⟨_, xs' ++ a.join b :: ys, heq, ?_, fun hlast => ?_, fun xs'' a' hx _ => ?_⟩
      · rw [hle]
        exact plugged_merge hc hau hb
      · have hlast := hlast a (by rw [List.getLast?_append_cons, List.getLast?_singleton]; rfl)
        rw [hau] at hlast
        cases hlast
      · obtain ⟨rfl, ha'⟩ := List.append_inj' hx rfl
        cases ha'
        rfl

/-- `plug_holes`, where one block has become free: no free neighbours are left. -/
theorem plug_holes_spec (hc : Chain h (xs ++ b :: ys)) (hb : b.used = false) (hxs : Coalesced xs)
    (hys : Coalesced ys) : ∃ h', h.plug_holes (Blocks.total xs) = some h' ∧
      Plugged h h' (xs ++ b :: ys) (mergeFree (xs ++ b :: ys)) := by
  obtain ⟨q, hh⟩ := hc.header
  have hend := hc.bounds.2
  have hrb := b.room
  have hsize : SIZEOF_STRUCT_MEM = 16 := rfl
  obtain ⟨h1, hrun1, hp1⟩ := plug_forward_spec hc hb
  obtain ⟨b1, ys1, habs, hb1⟩ := exists_absorb_eq b ys
  rw [habs] at hp1
  obtain ⟨h2, bs2, hrun2, hp2, hused, hfree⟩ := plug_backward_spec hp1.chain (hb1.trans hb)
  refine ⟨h2, ?_, ?_⟩
  · have hin : Blocks.total xs < h.heap_end := by omega
    have hunused : (h.mem (Blocks.total xs)).used = 0 := by rw [hh.used, hb, Bool.toNat_false]
    simp only [plug_holes, rt_assert_of hin, header_eq hin.le, rt_assert_of hunused, hrun1,
      Option.bind_eq_bind, Option.bind_some, hrun2]
  · have hbs : bs2 = mergeFree (xs ++ b :: ys) := by
      rcases List.eq_nil_or_concat' xs with rfl | ⟨xs', a, rfl⟩
      · rw [hused fun a ha => (by cases ha), List.nil_append, List.nil_append, mergeFree,
          mergeFree_of_coalesced hys, hb, if_neg Bool.false_ne_true, habs]
      · cases hau : a.used with
        | true =>
          have hlast : ∀ c ∈ (xs' ++ [a]).getLast?, c.used = true := by
            intro c hcl
            rw [List.getLast?_append_cons, List.getLast?_singleton] at hcl
            cases hcl
            exact hau
          rw [hused hlast, mergeFree_append hxs hlast, mergeFree, hb, if_neg Bool.false_ne_true,
            mergeFree_of_coalesced hys, habs]
        | false =>
          rw [hfree xs' a rfl hau, List.append_assoc, List.singleton_append,
            mergeFree_append_free hxs hau, mergeFree, hb, if_neg Bool.false_ne_true,
            mergeFree_of_coalesced hys, habs, absorb, hb1, hb, if_neg Bool.false_ne_true]
    rw [← hbs]
    exact hp1.trans hp2

end Plugging

/-! ## Splitting and marking -/

section Splitting

variable {h h' : Heap} {b c : HeapBlock} {bs xs ys : List HeapBlock} {n p : ℕ}

/-- One block is marked anew. -/
theorem Chain.mark (hc : Chain h (xs ++ b :: ys)) (hlen : c.len = b.len)
    (hsize : h'.heap_end = h.heap_end)
    (hhdr : ∀ q, Header h q (Blocks.total xs) b → Header h' q (Blocks.total xs) c)
    (hother : ∀ r, r + SIZEOF_STRUCT_MEM ≤ Blocks.total xs ∨
      Blocks.total xs + SIZEOF_STRUCT_MEM ≤ r → h'.mem r = h.mem r) :
    Chain h' (xs ++ c :: ys) := by
  have hroom := b.room
  refine Chain.replace [b] [c] hc rfl rfl ?_ hsize (fun r hr => hother r (.inl hr))
    (fun r hr => hother r (.inr (by omega))) fun q q' ⟨hb, hq⟩ =>
      ⟨q', ⟨hhdr q hb, hq⟩, .inr ⟨hother _ (.inr ?_), .inr rfl⟩⟩
  · simp [hlen]
  · rw [total_cons]
    omega

/-- The first writes of `split`, which make the new header. -/
def insert (h : Heap) (ptr ptr2 next : ℕ) : Heap :=
  ((((h.put heap_mem.magicField ptr2 HEAP_MAGIC).put heap_mem.usedField ptr2 0).put
    heap_mem.nextField ptr2 next).put heap_mem.prevField ptr2 ptr).put heap_mem.nextField ptr ptr2

theorem mem_insert_of_apart {ptr ptr2 next r : ℕ}
    (h1 : r + SIZEOF_STRUCT_MEM ≤ ptr ∨ ptr + SIZEOF_STRUCT_MEM ≤ r)
    (h2 : r + SIZEOF_STRUCT_MEM ≤ ptr2 ∨ ptr2 + SIZEOF_STRUCT_MEM ≤ r) :
    (h.insert ptr ptr2 next).mem r = h.mem r := by
  rw [insert, mem_put_of_apart (by decide) h1, mem_put_of_apart (by decide) h2,
    mem_put_of_apart (by decide) h2, mem_put_of_apart (by decide) h2,
    mem_put_of_apart (by decide) h2]

theorem mem_insert_old {ptr ptr2 next : ℕ} (h12 : ptr + SIZEOF_STRUCT_MEM ≤ ptr2)
    (h2 : ptr2 < 2 ^ 32) : (h.insert ptr ptr2 next).mem ptr = { h.mem ptr with next := ptr2 } := by
  rw [insert, mem_put_next h2, mem_put_of_apart (by decide) (.inl h12),
    mem_put_of_apart (by decide) (.inl h12), mem_put_of_apart (by decide) (.inl h12),
    mem_put_of_apart (by decide) (.inl h12)]

theorem mem_insert_new {ptr ptr2 next : ℕ} (h12 : ptr + SIZEOF_STRUCT_MEM ≤ ptr2)
    (h2 : ptr2 < 2 ^ 32) (hnext : next < 2 ^ 32) : (h.insert ptr ptr2 next).mem ptr2 =
      { h.mem ptr2 with magic := HEAP_MAGIC, used := 0, next := next, prev := ptr } := by
  have hmagic : HEAP_MAGIC < 2 ^ 16 := by decide
  rw [insert, mem_put_of_apart (by decide) (.inr h12), mem_put_prev (by omega), mem_put_next hnext,
    mem_put_used (by decide), mem_put_magic hmagic]

theorem split_eq {ptr ptr2 next : ℕ} (h1 : ptr ≤ h.heap_end) (h2 : ptr2 ≤ h.heap_end)
    (hnext : next ≤ h.heap_end) : h.split ptr ptr2 next = some
      (if next ≠ h.heap_end then (h.insert ptr ptr2 next).put heap_mem.prevField next ptr2
      else h.insert ptr ptr2 next) := by
  simp only [split, write_eq h2, Option.bind_eq_bind, Option.bind_some]
  rw [write_eq (by exact h2), Option.bind_some, write_eq (by exact h2), Option.bind_some,
    write_eq (by exact h2), Option.bind_some, write_eq (by exact h1), Option.bind_some,
    write_eq (by exact hnext)]
  exact (apply_ite some (next ≠ h.heap_end) _ _).symm

/-- A block is cut in two, the second of them free. -/
theorem split_spec (hc : Chain h (xs ++ b :: ys)) (hn : SIZEOF_STRUCT_MEM ≤ n ∧ 4 ∣ n)
    (hb : n + SIZEOF_STRUCT_MEM ≤ b.len) :
    ∃ h', h.split (Blocks.total xs) (Blocks.total xs + n) (Blocks.total xs + b.len) = some h' ∧
      Chain h' (xs ++ (b.cut n hn hb).1 :: (b.cut n hn hb).2 :: ys) ∧
      SameData h h' (xs ++ (b.cut n hn hb).1 :: (b.cut n hn hb).2 :: ys) ∧
      h'.mem_size_aligned = h.mem_size_aligned ∧ h'.lfree = h.lfree ∧ h'.used_mem = h.used_mem ∧
      h'.max_mem = h.max_mem := by
  have hend := hc.bounds.2
  have hsmall := hc.small
  have hsize : SIZEOF_STRUCT_MEM = 16 := rfl
  have hprev : Field.Within SIZEOF_STRUCT_MEM heap_mem.prevField := by decide
  have hlen1 : (b.cut n hn hb).1.len = n := rfl
  have hlen2 : (b.cut n hn hb).2.len = b.len - n := rfl
  generalize hc1 : (b.cut n hn hb).1 = c1 at *
  generalize hc2 : (b.cut n hn hb).2 = c2 at *
  -- What both outcomes share.
  have hinsert : SameData h (h.insert (Blocks.total xs) (Blocks.total xs + n)
      (Blocks.total xs + b.len)) (xs ++ c1 :: c2 :: ys) := by
    have h2 : Blocks.total xs + n = Blocks.total (xs ++ [c1]) := by simp [hlen1]
    have hnew : ∀ (g : Heap) (f : Field) (v : ℕ), Field.Within SIZEOF_STRUCT_MEM f →
        SameData g (g.put f (Blocks.total xs + n) v) (xs ++ c1 :: c2 :: ys) :=
      fun g f v hf => sameData_put hf
        (show xs ++ c1 :: c2 :: ys = xs ++ [c1] ++ c2 :: ys by simp) h2
    exact (hnew _ _ _ (by decide)).trans ((hnew _ _ _ (by decide)).trans
      ((hnew _ _ _ (by decide)).trans ((hnew _ _ _ (by decide)).trans
        (sameData_put (by decide) rfl rfl))))
  have hchain : ∀ g : Heap, g.heap_end = h.heap_end →
      (∀ r, r + SIZEOF_STRUCT_MEM ≤ Blocks.total xs + b.len ∨
        Blocks.total xs + b.len + SIZEOF_STRUCT_MEM ≤ r → g.mem r =
          (h.insert (Blocks.total xs) (Blocks.total xs + n) (Blocks.total xs + b.len)).mem r) →
      (g.mem (Blocks.total xs + b.len) =
          { h.mem (Blocks.total xs + b.len) with prev := Blocks.total xs + n } ∨
        g.mem (Blocks.total xs + b.len) = h.mem (Blocks.total xs + b.len) ∧
          Blocks.total xs + b.len = h.heap_end) →
      Chain g (xs ++ c1 :: c2 :: ys) := by
    intro g hgend hg hgnext
    refine Chain.replace [b] [c1, c2] hc rfl rfl ?_ hgend (fun r hr => ?_)
      (fun r hr => ?_) fun q q' ⟨hbh, hq⟩ =>
        ⟨Blocks.total xs + n, ⟨⟨?_, ?_, ?_, ?_⟩, ⟨?_, ?_, ?_, ?_⟩, ?_⟩, ?_⟩
    · simp only [total_cons, total_nil, hlen1, hlen2]
      omega
    · rw [hg r (.inl (by omega)), mem_insert_of_apart (by omega) (by omega)]
    · rw [total_cons] at hr
      rw [hg r (.inr (by omega)), mem_insert_of_apart (by omega) (by omega)]
    · rw [hg _ (.inl (by omega)), mem_insert_old (by omega) (by omega)]
      exact hbh.magic
    · rw [hg _ (.inl (by omega)), mem_insert_old (by omega) (by omega), ← hc1]
      exact hbh.used
    · rw [hg _ (.inl (by omega)), mem_insert_old (by omega) (by omega), hlen1]
    · rw [hg _ (.inl (by omega)), mem_insert_old (by omega) (by omega)]
      exact hbh.prev
    · rw [hlen1, hg _ (.inl (by omega)), mem_insert_new (by omega) (by omega) (by omega)]
    · rw [hlen1, hg _ (.inl (by omega)), mem_insert_new (by omega) (by omega) (by omega), ← hc2]
      rfl
    · rw [hlen1, hg _ (.inl (by omega)), mem_insert_new (by omega) (by omega) (by omega)]
      show Blocks.total xs + b.len = Blocks.total xs + n + c2.len
      omega
    · rw [hlen1, hg _ (.inl (by omega)), mem_insert_new (by omega) (by omega) (by omega)]
    · exact congrArg _ hlen1.symm
    · rw [total_cons, total_nil, Nat.add_zero]
      exact hgnext.imp id fun ⟨h1, h2⟩ => ⟨h1, .inl h2⟩
  refine ⟨_, split_eq (by omega) (by omega) (by omega), ?_⟩
  split
  case isTrue hne =>
    refine ⟨hchain _ rfl (fun r hr => mem_put_of_apart hprev (by omega)) (.inl ?_), ?_,
      rfl, rfl, rfl,
      rfl⟩
    · rw [mem_put_prev (by omega), mem_insert_of_apart (by omega) (by omega)]
    · refine hinsert.trans (sameData_put hprev
        (show xs ++ c1 :: c2 :: ys = xs ++ [c1, c2] ++ ys by simp) ?_)
      simp only [total_append, total_cons, total_nil, hlen1, hlen2]
      omega
  case isFalse heq =>
    refine ⟨hchain _ rfl (fun _ _ => rfl) (.inr ⟨?_, not_not.mp heq⟩), hinsert, rfl, rfl, rfl, rfl⟩
    rw [mem_insert_of_apart (by omega) (by omega)]

/-- Writing to the data of a block leaves every header alone. -/
theorem Chain.scribble {addr : ℕ} {v : BitVec 8} (hc : Chain h (xs ++ b :: ys))
    (hlo : Blocks.total xs + SIZEOF_STRUCT_MEM ≤ addr) (hhi : addr < Blocks.total xs + b.len) :
    Chain { h with heap_ptr := Function.update h.heap_ptr addr v } (xs ++ b :: ys) := by
  have hmem : ∀ r, r + SIZEOF_STRUCT_MEM ≤ addr ∨ addr < r →
      ({ h with heap_ptr := Function.update h.heap_ptr addr v } : Heap).mem r = h.mem r :=
    fun r hr => mem_congr fun i h1 h2 => Function.update_of_ne (by omega) _ _
  refine Chain.replace [b] [b] hc rfl rfl rfl rfl (fun r hr => hmem r (by omega))
    (fun r hr => hmem r ?_) fun q q' ⟨hb, hq⟩ =>
      ⟨q', ⟨hb.congr (hmem _ (.inl hlo)), hq⟩, .inr ⟨hmem _ ?_, .inr rfl⟩⟩
  all_goals
    rw [total_cons, total_nil] at *
    omega

end Splitting

end Heap

end Kernel
