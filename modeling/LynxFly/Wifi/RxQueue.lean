-- SUMMARY: The queue of received packets: ProcessRxedPacket and rt_wlan_dev_rx in any interleaving of threads.
import LynxFly.Base.Interleaving
import LynxFly.Base.Ring
import LynxFly.Kernel.Config
import Mathlib.Algebra.Group.Nat.Defs
import Mathlib.Data.List.Basic
import Mathlib.Data.Nat.Notation

/-!
# Received packets

`ProcessRxedPacket` (`wlan_rx.c`) hangs a node for each frame on the card's `RxList`,
and `rt_wlan_dev_rx` (`rt_wlan_dev.c`) takes the nodes off. Each runs in as many
threads as call it. A thread's step is one access to what it shares with the others:
a call of the heap, the stores to its node, or a section with interrupts disabled.

The heap is that of `mem.c`: what `rt_malloc` returns is a block that was free, of at
least the size it rounds the request up to.
-/

open Interleaving NodeLinks
open Kernel (MIN_SIZE RT_ALIGN_SIZE)

namespace RxQueue

/-! ## Frames -/

/-- The receive buffer from `data` on, and the length the card reported. -/
structure Frame where
  data : ℕ → UInt8
  len : ℕ

namespace Frame

/-- `PktOffset` of the `RxPD` at the start of the buffer. -/
def PktOffset (f : Frame) : ℕ :=
  (f.data 8).toNat + (f.data 9).toNat * 2 ^ 8 + (f.data 10).toNat * 2 ^ 16 +
    (f.data 11).toNat * 2 ^ 24

/-- `8 + 4 + PktOffset`, as the `u32` it is compared as. -/
def minlen (f : Frame) : ℕ := (8 + 4 + f.PktOffset) % 2 ^ 32

/-- Byte `i` of `pRxPkt`. -/
def pRxPkt (f : Frame) (i : ℕ) : UInt8 := f.data (f.PktOffset + i)

/-- Behind the 802.3 header come the first six bytes of an LLC/SNAP header. -/
def IsSnap (f : Frame) : Prop :=
  [f.pRxPkt 14, f.pRxPkt 15, f.pRxPkt 16, f.pRxPkt 17, f.pRxPkt 18, f.pRxPkt 19] =
    [0xaa, 0xaa, 0x03, 0x00, 0x00, 0x00]

instance (f : Frame) : Decidable f.IsSnap := inferInstanceAs (Decidable (_ = _))

/-- What is copied into the pbuf. Of a SNAP frame the 802.3 length and the LLC/SNAP
    header are cut out, and the addresses moved up to the ethertype. -/
def payload (f : Frame) (i : ℕ) : UInt8 :=
  if f.IsSnap then if i < 12 then f.pRxPkt i else f.pRxPkt (8 + i) else f.pRxPkt i

end Frame

/-- What `pbuf_alloc` returned, told apart by the call that returned it. -/
structure Pbuf where
  id : ℕ
  payload : ℕ → UInt8

def ETHYPT_EAP : ℕ := 0x888e

/-- `is_ieee802_11`: the ethertype is that of EAP. -/
def Pbuf.is_ieee802_11 (p : Pbuf) : Prop :=
  (p.payload 12).toNat * 2 ^ 8 + (p.payload 13).toNat = ETHYPT_EAP

instance (p : Pbuf) : Decidable p.is_ieee802_11 := inferInstanceAs (Decidable (_ = _))

/-! ## Memory -/

/-- Where a link of the list points. -/
inductive Ptr where
  | head
  | block (a : ℕ)
  deriving DecidableEq

/-- `RT_ALIGN`. -/
def rtAlign (size align : ℕ) : ℕ := (size + align - 1) / align * align

/-- The size `rt_malloc` rounds a request up to. -/
def rtMallocSize (size : ℕ) : ℕ :=
  let size := rtAlign size RT_ALIGN_SIZE
  if size < rtAlign MIN_SIZE RT_ALIGN_SIZE then rtAlign MIN_SIZE RT_ALIGN_SIZE else size

/-- `sizeof(RxNode)`, which is the size of the pointer. -/
def sizeofRxNode : ℕ := 4

/-- `sizeof(Rx_Pbuf_List)`: three pointers. -/
def sizeofRxPbufList : ℕ := 12

/-- Where a thread stands, with the locals it still needs. -/
inductive Pc where
  | idle
  -- `ProcessRxedPacket`
  | malloc (f : Frame)
  | check (f : Frame) (RxNode : ℕ)
  | pbufAlloc (f : Frame) (RxNode : ℕ)
  | store (RxNode : ℕ) (p : Pbuf)
  | insert (RxNode : ℕ) (p : Pbuf)
  -- `rt_wlan_dev_rx`
  | again
  | free (RxListHead : ℕ) (p : Option Pbuf)
  | filter (p : Option Pbuf)

/-- The shared memory, where each thread stands, and a record of what became of the
    nodes and packets. -/
structure State where
  heap : ℕ → Option ℕ
  links : NodeLinks Ptr
  p : ℕ → Option Pbuf
  RxQueueCount : ℕ
  pc : ℕ → Pc
  nextPbuf : ℕ
  mallocs : ℕ → ℕ
  frees : ℕ → ℕ
  put : List Pbuf
  taken : List Pbuf
  handed : List Pbuf

/-- `wlan_init_card` before any thread has called anything; the memory outside the
    list head holds anything. -/
def wlanInitCard (links : NodeLinks Ptr) (p : ℕ → Option Pbuf) : State where
  heap _ := none
  links := (links.setNext .head .head).setPrev .head .head
  p := p
  RxQueueCount := 0
  pc _ := .idle
  nextPbuf := 0
  mallocs _ := 0
  frees _ := 0
  put := []
  taken := []
  handed := []

namespace State

def setPc (s : State) (t : ℕ) (pc : Pc) : State := { s with pc := Function.update s.pc t pc }

/-- `rt_malloc` returning the block `a`. -/
def rtMalloc (s : State) (a size : ℕ) : State :=
  { s with
    heap := Function.update s.heap a (some size)
    mallocs := Function.update s.mallocs a (s.mallocs a + 1) }

def rtFree (s : State) (a : ℕ) : State :=
  { s with
    heap := Function.update s.heap a none
    frees := Function.update s.frees a (s.frees a + 1) }

end State

/-! ## The list code -/

/-- The insertion of `ProcessRxedPacket`. -/
def insertNode (l : NodeLinks Ptr) (RxNode : Ptr) : NodeLinks Ptr :=
  if l.next .head = .head then
    let l := l.setNext .head RxNode
    let l := l.setPrev .head RxNode
    let l := l.setNext RxNode .head
    l.setPrev RxNode .head
  else
    let l := l.setNext (l.prev .head) RxNode
    let l := l.setPrev RxNode (l.prev .head)
    let l := l.setPrev .head RxNode
    l.setNext RxNode .head

/-- The removal of `rt_wlan_dev_rx`. -/
def unlinkNode (l : NodeLinks Ptr) (RxListHead : Ptr) : NodeLinks Ptr :=
  let l := l.setNext .head (l.next RxListHead)
  l.setPrev (l.next RxListHead) (l.prev RxListHead)

/-! ## Actions -/

inductive Act where
  /-- Thread `t` calls `ProcessRxedPacket`. -/
  | processRxedPacket (t : ℕ) (f : Frame)
  /-- Thread `t` calls `rt_wlan_dev_rx`. -/
  | rtWlanDevRx (t : ℕ)
  /-- `rt_malloc` answers, with a block and what it has over the rounded request. -/
  | malloc (t : ℕ) (r : Option (ℕ × ℕ))
  /-- `pbuf_alloc` answers. -/
  | pbufAlloc (t : ℕ) (ok : Bool)
  /-- Thread `t` goes on. -/
  | run (t : ℕ)

/-- One step of a thread inside either function. -/
def runThread (s : State) (t : ℕ) : Option State :=
  match s.pc t with
  | .check f RxNode =>
    if f.len < f.minlen then
      some ((s.rtFree RxNode).setPc t .idle)
    else if f.IsSnap then
      some (s.setPc t (.pbufAlloc f RxNode))
    else
      -- the node is freed, and used all the same
      some ((s.rtFree RxNode).setPc t (.pbufAlloc f RxNode))
  | .store RxNode p =>
    some ({ s with p := Function.update s.p RxNode (some p) }.setPc t (.insert RxNode p))
  | .insert RxNode p =>
    some ({ s with
      links := insertNode s.links (.block RxNode)
      RxQueueCount := s.RxQueueCount + 1
      put := s.put ++ [p] }.setPc t .idle)
  | .again =>
    match s.links.next .head with
    | .head => some (s.setPc t (.filter none))
    | .block RxListHead =>
      some ({ s with
        links := unlinkNode s.links (.block RxListHead)
        RxQueueCount := s.RxQueueCount - 1
        taken := s.taken ++ (s.p RxListHead).toList }.setPc t (.free RxListHead (s.p RxListHead)))
  | .free RxListHead p => some ((s.rtFree RxListHead).setPc t (.filter p))
  | .filter none => some (s.setPc t .idle)
  | .filter (some p) =>
    if p.is_ieee802_11 then
      -- the packet is dropped without being released
      some (s.setPc t .again)
    else
      some ({ s with handed := s.handed ++ [p] }.setPc t .idle)
  | _ => none

def step (s : State) : Act → Option State
  | .processRxedPacket t f =>
    match s.pc t with
    | .idle => some (s.setPc t (.malloc f))
    | _ => none
  | .rtWlanDevRx t =>
    match s.pc t with
    | .idle => some (s.setPc t .again)
    | _ => none
  | .malloc t r =>
    match s.pc t, r with
    | .malloc _, none => some (s.setPc t .idle)
    | .malloc f, some (a, slack) =>
      if s.heap a = none then
        some ((s.rtMalloc a (rtMallocSize sizeofRxNode + slack)).setPc t (.check f a))
      else none
    | _, _ => none
  | .pbufAlloc t ok =>
    match s.pc t with
    | .pbufAlloc f RxNode =>
      if ok then
        some ({ s with nextPbuf := s.nextPbuf + 1 }.setPc t (.store RxNode ⟨s.nextPbuf, f.payload⟩))
      else
        some ((s.rtFree RxNode).setPc t .idle)
    | _ => none
  | .run t => runThread s t

/-! ## What a thread holds -/

namespace Pc

/-- The node that the thread has and that is not in the list. -/
def node : Pc → Option ℕ
  | check _ a | pbufAlloc _ a | store a _ | insert a _ | free a _ => some a
  | _ => none

/-- The packet that the thread is about to put in. -/
def making : Pc → Option Pbuf
  | store _ p | insert _ p => some p
  | _ => none

/-- The packet that the thread has taken out. -/
def carried : Pc → Option Pbuf
  | free _ p | filter p => p
  | _ => none

end Pc

/-- The block at `a` is allocated and has room for a node. -/
def HasNode (heap : ℕ → Option ℕ) (a : ℕ) : Prop :=
  ∃ size, heap a = some size ∧ sizeofRxPbufList ≤ size

/-- The queue and its nodes and packets are in order. -/
structure QueueOk (s : State) : Prop where
  /-- The list is a ring of allocated nodes, as long as the count, whose packets are
      those put in and not yet taken out, in that order. Other nodes are in the hands
      of a thread. -/
  list : ∃ xs : List ℕ, IsRing s.links .head (xs.map .block) ∧ (∀ a ∈ xs, HasNode s.heap a) ∧
    s.RxQueueCount = xs.length ∧ s.put.map some = s.taken.map some ++ xs.map s.p ∧
    ∀ a, s.heap a ≠ none → a ∈ xs ∨ ∃ t, (s.pc t).node = some a
  held : ∀ t a, (s.pc t).node = some a → HasNode s.heap a
  put_once : s.put.Nodup
  handed_once : s.handed.Nodup
  handed_taken : ∀ pb ∈ s.handed, pb ∈ s.taken
  none_lost : ∀ pb ∈ s.taken, pb ∈ s.handed ∨ ∃ t, (s.pc t).carried = some pb
  /-- Every block was freed as often as it was allocated, but for those allocated now. -/
  freed_once : ∀ a, s.mallocs a = s.frees a + if s.heap a = none then 0 else 1

/-! ## Nodes -/

section Nodes

/-- Allocated nodes are in the list `xs`, or owned by one thread. -/
structure NodeInv (heap : ℕ → Option ℕ) (mallocs frees : ℕ → ℕ) (xs : List ℕ)
    (own : ℕ → Option ℕ) : Prop where
  queued : ∀ a ∈ xs, HasNode heap a
  owned : ∀ t a, own t = some a → HasNode heap a ∧ a ∉ xs
  excl : Exclusive own
  live : ∀ a, heap a ≠ none → a ∈ xs ∨ ∃ t, own t = some a
  balance : ∀ a, mallocs a = frees a + if heap a = none then 0 else 1

variable {heap : ℕ → Option ℕ} {mallocs frees : ℕ → ℕ} {xs : List ℕ} {own : ℕ → Option ℕ}
variable {t a size : ℕ}

theorem NodeInv.malloc (h : NodeInv heap mallocs frees xs own) (ha : heap a = none)
    (hsize : sizeofRxPbufList ≤ size) (ht : own t = none) :
    NodeInv (Function.update heap a (some size)) (Function.update mallocs a (mallocs a + 1))
      frees xs (Function.update own t (some a)) := by
  have hkeep : ∀ b, HasNode heap b → HasNode (Function.update heap a (some size)) b := by
    rintro b ⟨n, hn, hle⟩
    have hba : b ≠ a := by
      rintro rfl
      rw [ha] at hn
      cases hn
    exact ⟨n, by rw [Function.update_of_ne hba, hn], hle⟩
  have hfresh : ∀ t', own t' ≠ some a := by
    intro t' ht'
    obtain ⟨⟨n, hn, _⟩, _⟩ := h.owned t' a ht'
    rw [ha] at hn
    cases hn
  refine ⟨fun b hb => hkeep b (h.queued b hb), fun t' b hb => ?_, h.excl.acquire hfresh,
    fun b hb => ?_, fun b => ?_⟩
  · rcases of_update_some hb with ⟨rfl, rfl⟩ | ⟨_, hb⟩
    · refine ⟨⟨size, Function.update_self _ _ _, hsize⟩, fun hmem => ?_⟩
      obtain ⟨n, hn, _⟩ := h.queued a hmem
      rw [ha] at hn
      cases hn
    · obtain ⟨hnode, hmem⟩ := h.owned t' b hb
      exact ⟨hkeep b hnode, hmem⟩
  · by_cases hba : b = a
    · subst hba
      exact .inr ⟨t, Function.update_self _ _ _⟩
    · rw [Function.update_of_ne hba] at hb
      rcases h.live b hb with hmem | ⟨t', ht'⟩
      · exact .inl hmem
      · exact .inr ⟨t', update_owner ht' (by simp [ht]) _⟩
  · have hb := h.balance b
    by_cases hba : b = a
    · subst hba
      rw [Function.update_self, Function.update_self, hb, ha]
      simp
    · rw [Function.update_of_ne hba, Function.update_of_ne hba, hb]

theorem NodeInv.free (h : NodeInv heap mallocs frees xs own) (ht : own t = some a) :
    NodeInv (Function.update heap a none) mallocs (Function.update frees a (frees a + 1)) xs
      (Function.update own t none) := by
  obtain ⟨⟨size, hsize, _⟩, hnot⟩ := h.owned t a ht
  have hkeep : ∀ b, b ≠ a → HasNode heap b → HasNode (Function.update heap a none) b := by
    rintro b hba ⟨n, hn, hle⟩
    exact ⟨n, by rw [Function.update_of_ne hba, hn], hle⟩
  refine ⟨fun b hb => hkeep b (fun heq => hnot (heq ▸ hb)) (h.queued b hb), fun t' b hb => ?_,
    h.excl.release, fun b hb => ?_, fun b => ?_⟩
  · obtain ⟨htt, hb⟩ := of_update_none hb
    obtain ⟨hnode, hmem⟩ := h.owned t' b hb
    have hba : b ≠ a := by
      rintro rfl
      exact htt (h.excl t' t b hb ht)
    exact ⟨hkeep b hba hnode, hmem⟩
  · have hba : b ≠ a := by
      rintro rfl
      exact hb (Function.update_self _ _ _)
    rw [Function.update_of_ne hba] at hb
    rcases h.live b hb with hmem | ⟨t', ht'⟩
    · exact .inl hmem
    · have htt : t' ≠ t := by
        rintro rfl
        rw [ht] at ht'
        cases ht'
        exact hba rfl
      exact .inr ⟨t', by rw [Function.update_of_ne htt, ht']⟩
  · have hb := h.balance b
    by_cases hba : b = a
    · subst hba
      rw [Function.update_self, Function.update_self, hb, hsize]
      simp
    · rw [Function.update_of_ne hba, Function.update_of_ne hba, hb]

theorem NodeInv.queue (h : NodeInv heap mallocs frees xs own) (ht : own t = some a) :
    NodeInv heap mallocs frees (xs ++ [a]) (Function.update own t none) := by
  refine ⟨fun b hb => ?_, fun t' b hb => ?_, h.excl.release, fun b hb => ?_, h.balance⟩
  · rcases List.mem_append.mp hb with hmem | hmem
    · exact h.queued b hmem
    · rw [List.mem_singleton] at hmem
      exact hmem ▸ (h.owned t a ht).1
  · obtain ⟨htt, hb⟩ := of_update_none hb
    refine ⟨(h.owned t' b hb).1, fun hmem => ?_⟩
    rcases List.mem_append.mp hmem with hmem | hmem
    · exact (h.owned t' b hb).2 hmem
    · rw [List.mem_singleton] at hmem
      subst hmem
      exact htt (h.excl t' t b hb ht)
  · rcases h.live b hb with hmem | ⟨t', ht'⟩
    · exact .inl (List.mem_append_left _ hmem)
    · by_cases htt : t' = t
      · subst htt
        rw [ht] at ht'
        cases ht'
        exact .inl (by simp)
      · exact .inr ⟨t', by rw [Function.update_of_ne htt, ht']⟩

theorem NodeInv.take (h : NodeInv heap mallocs frees (a :: xs) own) (ha : a ∉ xs)
    (ht : own t = none) :
    NodeInv heap mallocs frees xs (Function.update own t (some a)) := by
  have hfresh : ∀ t', own t' ≠ some a := fun t' ht' =>
    (h.owned t' a ht').2 List.mem_cons_self
  refine ⟨fun b hb => h.queued b (List.mem_cons_of_mem _ hb), fun t' b hb => ?_,
    h.excl.acquire hfresh, fun b hb => ?_, h.balance⟩
  · rcases of_update_some hb with ⟨rfl, rfl⟩ | ⟨_, hb⟩
    · exact ⟨h.queued a List.mem_cons_self, ha⟩
    · obtain ⟨hnode, hmem⟩ := h.owned t' b hb
      exact ⟨hnode, fun hin => hmem (List.mem_cons_of_mem _ hin)⟩
  · rcases h.live b hb with hmem | ⟨t', ht'⟩
    · rcases List.mem_cons.mp hmem with rfl | hmem
      · exact .inr ⟨t, Function.update_self _ _ _⟩
      · exact .inl hmem
    · exact .inr ⟨t', update_owner ht' (by simp [ht]) _⟩

end Nodes

/-! ## Packets -/

section Packets

/-- A packet is being made, queued, carried or handed over, one after the other. -/
structure PbufInv (nextPbuf : ℕ) (put taken handed queue : List Pbuf)
    (making carried : ℕ → Option Pbuf) : Prop where
  fifo : put = taken ++ queue
  put_once : put.Nodup
  put_lt : ∀ pb ∈ put, pb.id < nextPbuf
  making_new : ∀ t pb, making t = some pb → pb.id < nextPbuf ∧ pb ∉ put
  making_excl : Exclusive making
  carried_taken : ∀ t pb, carried t = some pb → pb ∈ taken ∧ pb ∉ handed
  carried_excl : Exclusive carried
  handed_once : handed.Nodup
  handed_taken : ∀ pb ∈ handed, pb ∈ taken
  none_lost : ∀ pb ∈ taken, pb ∈ handed ∨ ∃ t, carried t = some pb

variable {nextPbuf t : ℕ} {put taken handed queue : List Pbuf} {making carried : ℕ → Option Pbuf}
variable {pb : Pbuf}

theorem PbufInv.alloc (h : PbufInv nextPbuf put taken handed queue making carried)
    (payload : ℕ → UInt8) :
    PbufInv (nextPbuf + 1) put taken handed queue
      (Function.update making t (some ⟨nextPbuf, payload⟩)) carried := by
  have hfresh : ∀ t', making t' ≠ some ⟨nextPbuf, payload⟩ := fun t' ht' =>
    absurd (h.making_new t' _ ht').1 (Nat.lt_irrefl _)
  refine { h with
    put_lt := fun q hq => Nat.lt_succ_of_lt (h.put_lt q hq)
    making_new := fun t' q hq => ?_
    making_excl := h.making_excl.acquire hfresh }
  rcases of_update_some hq with ⟨rfl, rfl⟩ | ⟨_, hq⟩
  · exact ⟨Nat.lt_succ_self _, fun hmem => absurd (h.put_lt _ hmem) (Nat.lt_irrefl _)⟩
  · exact ⟨Nat.lt_succ_of_lt (h.making_new t' q hq).1, (h.making_new t' q hq).2⟩

theorem PbufInv.enqueue (h : PbufInv nextPbuf put taken handed queue making carried)
    (ht : making t = some pb) :
    PbufInv nextPbuf (put ++ [pb]) taken handed (queue ++ [pb])
      (Function.update making t none) carried := by
  obtain ⟨hlt, hnew⟩ := h.making_new t pb ht
  refine { h with
    fifo := by rw [h.fifo, List.append_assoc]
    put_once := ?_
    put_lt := fun q hq => ?_
    making_new := fun t' q hq => ?_
    making_excl := h.making_excl.release }
  · rw [List.nodup_append]
    refine ⟨h.put_once, List.nodup_singleton pb, fun x hx y hy => ?_⟩
    rw [List.mem_singleton] at hy
    subst y
    exact fun heq => hnew (heq ▸ hx)
  · rcases List.mem_append.mp hq with hmem | hmem
    · exact h.put_lt q hmem
    · rw [List.mem_singleton] at hmem
      exact hmem ▸ hlt
  · obtain ⟨htt, hq⟩ := of_update_none hq
    refine ⟨(h.making_new t' q hq).1, fun hmem => ?_⟩
    rcases List.mem_append.mp hmem with hmem | hmem
    · exact (h.making_new t' q hq).2 hmem
    · rw [List.mem_singleton] at hmem
      subst hmem
      exact htt (h.making_excl t' t q hq ht)

theorem PbufInv.take (h : PbufInv nextPbuf put taken handed (pb :: queue) making carried)
    (ht : carried t = none) :
    PbufInv nextPbuf put (taken ++ [pb]) handed queue making
      (Function.update carried t (some pb)) := by
  have hnot : pb ∉ taken := fun hmem => by
    have hnodup := h.put_once
    rw [h.fifo] at hnodup
    exact (List.nodup_append.mp hnodup).2.2 pb hmem pb List.mem_cons_self rfl
  have hfresh : ∀ t', carried t' ≠ some pb := fun t' ht' => hnot (h.carried_taken t' pb ht').1
  refine { h with
    fifo := by rw [h.fifo, List.append_assoc]; rfl
    carried_taken := fun t' q hq => ?_
    carried_excl := h.carried_excl.acquire hfresh
    handed_taken := fun q hq => List.mem_append_left _ (h.handed_taken q hq)
    none_lost := fun q hq => ?_ }
  · rcases of_update_some hq with ⟨rfl, rfl⟩ | ⟨_, hq⟩
    · exact ⟨by simp, fun hmem => hnot (h.handed_taken pb hmem)⟩
    · exact ⟨List.mem_append_left _ (h.carried_taken t' q hq).1, (h.carried_taken t' q hq).2⟩
  · rcases List.mem_append.mp hq with hmem | hmem
    · rcases h.none_lost q hmem with hin | ⟨t', ht'⟩
      · exact .inl hin
      · exact .inr ⟨t', update_owner ht' (by simp [ht]) _⟩
    · rw [List.mem_singleton] at hmem
      subst hmem
      exact .inr ⟨t, Function.update_self _ _ _⟩

theorem PbufInv.hand (h : PbufInv nextPbuf put taken handed queue making carried)
    (ht : carried t = some pb) :
    PbufInv nextPbuf put taken (handed ++ [pb]) queue making (Function.update carried t none) := by
  obtain ⟨htaken, hnot⟩ := h.carried_taken t pb ht
  refine { h with
    carried_taken := fun t' q hq => ?_
    carried_excl := h.carried_excl.release
    handed_once := ?_
    handed_taken := fun q hq => ?_
    none_lost := fun q hq => ?_ }
  · obtain ⟨htt, hq⟩ := of_update_none hq
    refine ⟨(h.carried_taken t' q hq).1, fun hmem => ?_⟩
    rcases List.mem_append.mp hmem with hmem | hmem
    · exact (h.carried_taken t' q hq).2 hmem
    · rw [List.mem_singleton] at hmem
      subst hmem
      exact htt (h.carried_excl t' t q hq ht)
  · rw [List.nodup_append]
    refine ⟨h.handed_once, List.nodup_singleton pb, fun x hx y hy => ?_⟩
    rw [List.mem_singleton] at hy
    subst y
    exact fun heq => hnot (heq ▸ hx)
  · rcases List.mem_append.mp hq with hmem | hmem
    · exact h.handed_taken q hmem
    · rw [List.mem_singleton] at hmem
      exact hmem ▸ htaken
  · rcases h.none_lost q hq with hin | ⟨t', ht'⟩
    · exact .inl (List.mem_append_left _ hin)
    · by_cases htt : t' = t
      · subst htt
        rw [ht] at ht'
        cases ht'
        exact .inl (by simp)
      · exact .inr ⟨t', by rw [Function.update_of_ne htt, ht']⟩

end Packets

/-! ## The invariant -/

section Own

variable {β : Type} {f : Pc → Option β} {pcs : ℕ → Pc} {t : ℕ} {pc : Pc}

/-- What the threads hold, of one kind. -/
def own (f : Pc → Option β) (pcs : ℕ → Pc) : ℕ → Option β := fun t => f (pcs t)

theorem own_update : own f (Function.update pcs t pc) = Function.update (own f pcs) t (f pc) := by
  funext t'
  exact Function.apply_update (fun _ => f) pcs t pc t'

/-- What a thread keeps, it still has. -/
theorem own_update_of_eq (h : f pc = f (pcs t)) : own f (Function.update pcs t pc) = own f pcs := by
  rw [own_update, h]
  exact Function.update_eq_self t _

end Own

/-- The list holds the nodes `xs` with the packets `queue`. -/
structure Inv (s : State) (xs : List ℕ) (queue : List Pbuf) : Prop where
  ring : IsRing s.links .head (xs.map .block)
  packets : xs.map s.p = queue.map some
  count : s.RxQueueCount = xs.length
  nodes : NodeInv s.heap s.mallocs s.frees xs (own Pc.node s.pc)
  pbufs : PbufInv s.nextPbuf s.put s.taken s.handed queue (own Pc.making s.pc)
    (own Pc.carried s.pc)
  stored : ∀ t a pb, s.pc t = .insert a pb → s.p a = some pb

theorem Inv.queueOk {s : State} {xs : List ℕ} {queue : List Pbuf} (h : Inv s xs queue) :
    QueueOk s where
  list := by
    refine ⟨xs, h.ring, h.nodes.queued, h.count, ?_, h.nodes.live⟩
    rw [h.packets, h.pbufs.fifo, List.map_append]
  held t a ht := (h.nodes.owned t a ht).1
  put_once := h.pbufs.put_once
  handed_once := h.pbufs.handed_once
  handed_taken := h.pbufs.handed_taken
  none_lost := h.pbufs.none_lost
  freed_once := h.nodes.balance

theorem inv_wlanInitCard (links : NodeLinks Ptr) (p : ℕ → Option Pbuf) :
    Inv (wlanInitCard links p) [] [] where
  ring := by
    refine IsRing.nil ?_ ?_
    · exact Function.update_self Ptr.head Ptr.head links.next
    · exact Function.update_self Ptr.head Ptr.head links.prev
  packets := rfl
  count := rfl
  nodes := by
    refine ⟨?_, ?_, exclusive_none, ?_, fun _ => rfl⟩
    · intro a ha
      cases ha
    · intro t a ht
      cases ht
    · intro a ha
      exact absurd rfl ha
  pbufs := by
    refine ⟨rfl, List.nodup_nil, ?_, ?_, exclusive_none, ?_, exclusive_none, List.nodup_nil,
      ?_, ?_⟩
    · intro pb hpb
      cases hpb
    · intro t pb ht
      cases ht
    · intro t pb ht
      cases ht
    · intro pb hpb
      cases hpb
    · intro pb hpb
      cases hpb
  stored := by
    intro t a pb ht
    cases ht

section Steps

variable {s s' : State} {xs : List ℕ} {queue : List Pbuf} {t a : ℕ} {pc pc₀ : Pc} {pb : Pbuf}

/-- Threads about to insert have stored their packet, also after `t` went elsewhere. -/
theorem stored_update {p : ℕ → Option Pbuf}
    (h : ∀ t' b q, t' ≠ t → s.pc t' = .insert b q → p b = some q)
    (ht : ∀ b q, pc = .insert b q → p b = some q) :
    ∀ t' b q, Function.update s.pc t pc t' = .insert b q → p b = some q := by
  intro t' b q hq
  by_cases htt : t' = t
  · subst htt
    rw [Function.update_self] at hq
    exact ht b q hq
  · rw [Function.update_of_ne htt] at hq
    exact h t' b q htt hq

/-- A step inside a thread: it holds what it held. -/
theorem Inv.move (h : Inv s xs queue) (ht : s.pc t = pc₀) (hnode : pc.node = pc₀.node)
    (hmaking : pc.making = pc₀.making) (hcarried : pc.carried = pc₀.carried)
    (hpc : ∀ b q, pc ≠ .insert b q) : Inv (s.setPc t pc) xs queue where
  ring := h.ring
  packets := h.packets
  count := h.count
  nodes := by
    change NodeInv _ _ _ _ (own Pc.node (Function.update s.pc t pc))
    rw [own_update_of_eq (hnode.trans (congrArg Pc.node ht.symm))]
    exact h.nodes
  pbufs := by
    change PbufInv _ _ _ _ _ (own _ (Function.update s.pc t pc)) (own _ (Function.update s.pc t pc))
    rw [own_update_of_eq (hmaking.trans (congrArg Pc.making ht.symm)),
      own_update_of_eq (hcarried.trans (congrArg Pc.carried ht.symm))]
    exact h.pbufs
  stored := stored_update (fun t' b q _ => h.stored t' b q) fun b q hq => absurd hq (hpc b q)

/-- `rt_malloc` gives the thread a node. -/
theorem Inv.malloc (h : Inv s xs queue) {size : ℕ} (ha : s.heap a = none)
    (hsize : sizeofRxPbufList ≤ size) (ht : s.pc t = pc₀) (hnode₀ : pc₀.node = none)
    (hnode : pc.node = some a) (hmaking : pc.making = pc₀.making)
    (hcarried : pc.carried = pc₀.carried)
    (hpc : ∀ b q, pc ≠ .insert b q) : Inv ((s.rtMalloc a size).setPc t pc) xs queue where
  ring := h.ring
  packets := h.packets
  count := h.count
  nodes := by
    change NodeInv _ _ _ _ (own Pc.node (Function.update s.pc t pc))
    rw [own_update, hnode]
    exact h.nodes.malloc ha hsize ((congrArg Pc.node ht).trans hnode₀)
  pbufs := by
    change PbufInv _ _ _ _ _ (own _ (Function.update s.pc t pc)) (own _ (Function.update s.pc t pc))
    rw [own_update_of_eq (hmaking.trans (congrArg Pc.making ht.symm)),
      own_update_of_eq (hcarried.trans (congrArg Pc.carried ht.symm))]
    exact h.pbufs
  stored := stored_update (fun t' b q _ => h.stored t' b q) fun b q hq => absurd hq (hpc b q)

/-- The thread gives its node back to the heap. -/
theorem Inv.free (h : Inv s xs queue) (ht : s.pc t = pc₀) (hnode₀ : pc₀.node = some a)
    (hnode : pc.node = none) (hmaking : pc.making = pc₀.making)
    (hcarried : pc.carried = pc₀.carried)
    (hpc : ∀ b q, pc ≠ .insert b q) : Inv ((s.rtFree a).setPc t pc) xs queue where
  ring := h.ring
  packets := h.packets
  count := h.count
  nodes := by
    change NodeInv _ _ _ _ (own Pc.node (Function.update s.pc t pc))
    rw [own_update, hnode]
    exact h.nodes.free ((congrArg Pc.node ht).trans hnode₀)
  pbufs := by
    change PbufInv _ _ _ _ _ (own _ (Function.update s.pc t pc)) (own _ (Function.update s.pc t pc))
    rw [own_update_of_eq (hmaking.trans (congrArg Pc.making ht.symm)),
      own_update_of_eq (hcarried.trans (congrArg Pc.carried ht.symm))]
    exact h.pbufs
  stored := stored_update (fun t' b q _ => h.stored t' b q) fun b q hq => absurd hq (hpc b q)

/-- `pbuf_alloc` gives the thread a packet, into which it copies the frame. -/
theorem Inv.pbufAlloc (h : Inv s xs queue) {f : Frame} (ht : s.pc t = .pbufAlloc f a) :
    Inv ({ s with nextPbuf := s.nextPbuf + 1 }.setPc t (.store a ⟨s.nextPbuf, f.payload⟩))
      xs queue where
  ring := h.ring
  packets := h.packets
  count := h.count
  nodes := by
    change NodeInv _ _ _ _ (own Pc.node (Function.update s.pc t _))
    rw [own_update_of_eq (by rw [ht]; rfl)]
    exact h.nodes
  pbufs := by
    change PbufInv _ _ _ _ _ (own _ (Function.update s.pc t _)) (own _ (Function.update s.pc t _))
    rw [own_update_of_eq (f := Pc.carried) (by rw [ht]; rfl), own_update]
    exact h.pbufs.alloc f.payload
  stored := by
    refine stored_update (fun t' b q _ => h.stored t' b q) fun b q hq => ?_
    cases hq

/-- The packet is stored in a node that nobody else has. -/
theorem Inv.store (h : Inv s xs queue) (ht : s.pc t = .store a pb) :
    Inv ({ s with p := Function.update s.p a (some pb) }.setPc t (.insert a pb)) xs queue where
  ring := h.ring
  packets := by
    have hown : own Pc.node s.pc t = some a := by
      unfold own
      rw [ht]
      rfl
    have hmem : a ∉ xs := (h.nodes.owned t a hown).2
    rw [← h.packets]
    refine List.map_congr_left fun b hb => ?_
    have hba : b ≠ a := by
      rintro rfl
      exact hmem hb
    exact Function.update_of_ne hba _ _
  count := h.count
  nodes := by
    change NodeInv _ _ _ _ (own Pc.node (Function.update s.pc t _))
    rw [own_update_of_eq (by rw [ht]; rfl)]
    exact h.nodes
  pbufs := by
    change PbufInv _ _ _ _ _ (own _ (Function.update s.pc t _)) (own _ (Function.update s.pc t _))
    rw [own_update_of_eq (f := Pc.making) (by rw [ht]; rfl),
      own_update_of_eq (f := Pc.carried) (by rw [ht]; rfl)]
    exact h.pbufs
  stored := by
    refine stored_update (fun t' b q htt hq => ?_) fun b q hq => ?_
    · have hba : b ≠ a := by
        rintro rfl
        refine htt (h.nodes.excl t' t b ?_ ?_)
        · unfold own
          rw [hq]
          rfl
        · unfold own
          rw [ht]
          rfl
      exact (Function.update_of_ne hba _ _).trans (h.stored t' b q hq)
    · cases hq
      exact Function.update_self _ _ _

/-- Both branches of the insertion hang the node before the head. -/
theorem insertNode_eq {l : NodeLinks Ptr} {x : Ptr} {ys : List Ptr} (h : IsRing l .head ys)
    (hx : x ≠ .head) : insertNode l x = l.insertBefore .head x := by
  unfold insertNode
  by_cases hempty : l.next .head = .head
  · rw [if_pos hempty]
    have hnil : ys = [] := h.next_eq_head_iff.mp hempty
    subst hnil
    have hpre : l.prev .head = .head := h.path.2
    -- the two stores to `pre` come in the other order
    have hcomm : Function.update (Function.update l.prev .head x) x .head =
        Function.update (Function.update l.prev x .head) .head x :=
      Function.update_comm hx.symm _ _ _
    unfold NodeLinks.insertBefore setPrev setNext
    simp only [hpre, hcomm]
  · rw [if_neg hempty]
    rfl

theorem unlinkNode_eq {l : NodeLinks Ptr} {b : Ptr} {ys : List Ptr} (h : IsRing l .head (b :: ys)) :
    unlinkNode l b = l.removeHead .head := by
  have hb : b ≠ .head := by
    rintro rfl
    exact (List.nodup_cons.mp h.nodup).1 List.mem_cons_self
  have hpre : l.prev b = .head := h.path.2.1
  have hnext : (l.setNext .head (l.next b)).next b = l.next b := Function.update_of_ne hb _ _
  unfold unlinkNode NodeLinks.removeHead
  rw [h.path.next_eq]
  simp only [hnext]
  congr 1

/-- The thread hangs its node in. -/
theorem Inv.insert (h : Inv s xs queue) (ht : s.pc t = .insert a pb) :
    Inv ({ s with
      links := insertNode s.links (.block a)
      RxQueueCount := s.RxQueueCount + 1
      put := s.put ++ [pb] }.setPc t .idle) (xs ++ [a]) (queue ++ [pb]) := by
  have hnode : own Pc.node s.pc t = some a := by
    unfold own
    rw [ht]
    rfl
  have hmaking : own Pc.making s.pc t = some pb := by
    unfold own
    rw [ht]
    rfl
  have hfresh : Ptr.block a ∉ Ptr.head :: xs.map Ptr.block := by
    intro hmem
    rcases List.mem_cons.mp hmem with heq | hmem
    · cases heq
    · obtain ⟨b, hb, heq⟩ := List.mem_map.mp hmem
      cases heq
      exact (h.nodes.owned t a hnode).2 hb
  constructor
  case ring =>
    change IsRing (insertNode s.links (.block a)) _ _
    have hne : Ptr.block a ≠ Ptr.head := fun heq => by cases heq
    rw [insertNode_eq h.ring hne, List.map_append]
    exact h.ring.insertBefore hfresh
  case packets =>
    have hstored : s.p a = some pb := h.stored t a pb ht
    rw [List.map_append, List.map_append, ← h.packets]
    exact congrArg (_ ++ [·]) hstored
  case count =>
    rw [List.length_append]
    exact congrArg (· + 1) h.count
  case nodes =>
    change NodeInv _ _ _ _ (own Pc.node (Function.update s.pc t _))
    rw [own_update]
    exact h.nodes.queue hnode
  case pbufs =>
    change PbufInv _ _ _ _ _ (own _ (Function.update s.pc t _)) (own _ (Function.update s.pc t _))
    rw [own_update_of_eq (f := Pc.carried) (by rw [ht]; rfl), own_update]
    exact h.pbufs.enqueue hmaking
  case stored =>
    refine stored_update (fun t' b q _ => h.stored t' b q) fun b q hq => ?_
    cases hq

/-- The thread takes the first node off, with its packet. -/
theorem Inv.take (h : Inv s (a :: xs) (pb :: queue)) (ht : s.pc t = .again) :
    s.p a = some pb ∧
    Inv ({ s with
      links := unlinkNode s.links (.block a)
      RxQueueCount := s.RxQueueCount - 1
      taken := s.taken ++ [pb] }.setPc t (.free a (some pb))) xs queue := by
  have hnode : own Pc.node s.pc t = none := by
    unfold own
    rw [ht]
    rfl
  have hcarried : own Pc.carried s.pc t = none := by
    unfold own
    rw [ht]
    rfl
  have ha : a ∉ xs := by
    intro hmem
    have hnodup := (List.nodup_cons.mp h.ring.nodup).2
    exact (List.nodup_cons.mp hnodup).1 (List.mem_map_of_mem hmem)
  have hpackets : s.p a = some pb ∧ xs.map s.p = queue.map some := List.cons_eq_cons.mp h.packets
  refine ⟨hpackets.1, ?_⟩
  constructor
  case ring =>
    change IsRing (unlinkNode s.links (.block a)) _ _
    have hring : IsRing s.links .head (.block a :: xs.map .block) := h.ring
    rw [unlinkNode_eq hring]
    exact hring.removeHead
  case packets => exact hpackets.2
  case count =>
    change s.RxQueueCount - 1 = _
    rw [h.count, List.length_cons, Nat.add_sub_cancel]
  case nodes =>
    change NodeInv _ _ _ _ (own Pc.node (Function.update s.pc t _))
    rw [own_update]
    exact h.nodes.take ha hnode
  case pbufs =>
    change PbufInv _ _ _ _ _ (own _ (Function.update s.pc t _)) (own _ (Function.update s.pc t _))
    rw [own_update_of_eq (f := Pc.making) (by rw [ht]; rfl), own_update]
    exact h.pbufs.take hcarried
  case stored =>
    refine stored_update (fun t' b q _ => h.stored t' b q) fun b q hq => ?_
    cases hq

/-- The thread hands its packet to its caller. -/
theorem Inv.hand (h : Inv s xs queue) (ht : s.pc t = .filter (some pb)) :
    Inv ({ s with handed := s.handed ++ [pb] }.setPc t .idle) xs queue where
  ring := h.ring
  packets := h.packets
  count := h.count
  nodes := by
    change NodeInv _ _ _ _ (own Pc.node (Function.update s.pc t _))
    rw [own_update_of_eq (by rw [ht]; rfl)]
    exact h.nodes
  pbufs := by
    have hcarried : own Pc.carried s.pc t = some pb := by
      unfold own
      rw [ht]
      rfl
    change PbufInv _ _ _ _ _ (own _ (Function.update s.pc t _)) (own _ (Function.update s.pc t _))
    rw [own_update_of_eq (f := Pc.making) (by rw [ht]; rfl), own_update]
    exact h.pbufs.hand hcarried
  stored := by
    refine stored_update (fun t' b q _ => h.stored t' b q) fun b q hq => ?_
    cases hq

/-! ## Frames that do no harm -/

/-- The step meets neither a frame without SNAP header that is long enough, nor an
    EAP packet. -/
def Benign (s : State) : Act → Prop
  | .run t =>
    match s.pc t with
    | .check f _ => f.len < f.minlen ∨ f.IsSnap
    | .filter (some p) => ¬ p.is_ieee802_11
    | _ => True
  | _ => True

theorem runThread_keep (h : Inv s xs queue) (hok : Benign s (.run t))
    (hs : runThread s t = some s') : ∃ xs queue, Inv s' xs queue := by
  unfold runThread at hs
  cases hpc : s.pc t with
  | check f a =>
    simp only [Benign, hpc] at hok hs
    by_cases hlen : f.len < f.minlen
    · rw [if_pos hlen] at hs
      cases hs
      exact ⟨xs, queue, h.free hpc rfl rfl rfl rfl nofun⟩
    · have hsnap : f.IsSnap := hok.resolve_left hlen
      rw [if_neg hlen, if_pos hsnap] at hs
      cases hs
      exact ⟨xs, queue, h.move hpc rfl rfl rfl nofun⟩
  | store a pb =>
    simp only [hpc] at hs
    cases hs
    exact ⟨xs, queue, h.store hpc⟩
  | insert a pb =>
    simp only [hpc] at hs
    cases hs
    exact ⟨xs ++ [a], queue ++ [pb], h.insert hpc⟩
  | again =>
    simp only [hpc] at hs
    cases xs with
    | nil =>
      have hhead : s.links.next .head = .head := h.ring.next_eq_head_iff.mpr rfl
      simp only [hhead] at hs
      cases hs
      exact ⟨[], queue, h.move hpc rfl rfl rfl nofun⟩
    | cons a xs =>
      cases queue with
      | nil =>
        have hlen := congrArg List.length h.packets
        cases hlen
      | cons pb queue =>
        obtain ⟨hp, htake⟩ := h.take hpc
        have hhead : s.links.next .head = .block a := h.ring.path.next_eq
        simp only [hhead, hp] at hs
        cases hs
        exact ⟨xs, queue, htake⟩
  | free a p =>
    simp only [hpc] at hs
    cases hs
    exact ⟨xs, queue, h.free hpc rfl rfl rfl rfl nofun⟩
  | filter p =>
    cases p with
    | none =>
      simp only [hpc] at hs
      cases hs
      exact ⟨xs, queue, h.move hpc rfl rfl rfl nofun⟩
    | some pb =>
      simp only [Benign, hpc] at hok hs
      rw [if_neg hok] at hs
      cases hs
      exact ⟨xs, queue, h.hand hpc⟩
  | idle => simp [hpc] at hs
  | malloc f => simp [hpc] at hs
  | pbufAlloc f a => simp [hpc] at hs

theorem rtMallocSize_sizeofRxNode (slack : ℕ) :
    sizeofRxPbufList ≤ rtMallocSize sizeofRxNode + slack := by
  -- four bytes are asked for; the heap gives out no block under twelve
  have hround : rtMallocSize sizeofRxNode = sizeofRxPbufList := by decide
  rw [hround]
  exact Nat.le_add_right _ _

/-- A step that is benign keeps the invariant. -/
theorem step_keep {act : Act} (h : Inv s xs queue) (hok : Benign s act)
    (hs : step s act = some s') : ∃ xs queue, Inv s' xs queue := by
  unfold step at hs
  cases act with
  | processRxedPacket t f =>
    cases hpc : s.pc t with
    | idle =>
      simp only [hpc] at hs
      cases hs
      exact ⟨xs, queue, h.move hpc rfl rfl rfl nofun⟩
    | _ => simp [hpc] at hs
  | rtWlanDevRx t =>
    cases hpc : s.pc t with
    | idle =>
      simp only [hpc] at hs
      cases hs
      exact ⟨xs, queue, h.move hpc rfl rfl rfl nofun⟩
    | _ => simp [hpc] at hs
  | malloc t r =>
    cases hpc : s.pc t with
    | malloc f =>
      cases r with
      | none =>
        simp only [hpc] at hs
        cases hs
        exact ⟨xs, queue, h.move hpc rfl rfl rfl nofun⟩
      | some r =>
        obtain ⟨a, slack⟩ := r
        simp only [hpc] at hs
        by_cases ha : s.heap a = none
        · rw [if_pos ha] at hs
          cases hs
          exact ⟨xs, queue, h.malloc ha (rtMallocSize_sizeofRxNode slack) hpc rfl rfl rfl rfl nofun⟩
        · rw [if_neg ha] at hs
          cases hs
    | _ => simp [hpc] at hs
  | pbufAlloc t ok =>
    cases hpc : s.pc t with
    | pbufAlloc f a =>
      simp only [hpc] at hs
      cases ok with
      | true =>
        cases hs
        exact ⟨xs, queue, h.pbufAlloc hpc⟩
      | false =>
        cases hs
        exact ⟨xs, queue, h.free hpc rfl rfl rfl rfl nofun⟩
    | _ => simp [hpc] at hs
  | run t => exact runThread_keep h hok hs

/-- A step that is not benign leaves a node freed under a thread that goes on using
    it, or a packet that nobody has. -/
theorem step_break {act : Act} (h : Inv s xs queue) (hbad : ¬ Benign s act)
    (hs : step s act = some s') : ¬ QueueOk s' := by
  cases act with
  | run t =>
    simp only [step, runThread] at hs
    cases hpc : s.pc t with
    | check f a =>
      simp only [Benign, hpc, not_or] at hbad hs
      rw [if_neg hbad.1, if_neg hbad.2] at hs
      cases hs
      intro hok
      have hnode : (Function.update s.pc t (.pbufAlloc f a) t).node = some a := by
        rw [Function.update_self]
        rfl
      obtain ⟨size, hsize, _⟩ := hok.held t a hnode
      have hfreed : Function.update s.heap a none a = some size := hsize
      rw [Function.update_self] at hfreed
      cases hfreed
    | filter p =>
      cases p with
      | none => simp [Benign, hpc] at hbad
      | some pb =>
        simp only [Benign, hpc, not_not] at hbad hs
        rw [if_pos hbad] at hs
        cases hs
        intro hok
        have hcarried : own Pc.carried s.pc t = some pb := by
          unfold own
          rw [hpc]
          rfl
        obtain ⟨htaken, hnot⟩ := h.pbufs.carried_taken t pb hcarried
        rcases hok.none_lost pb htaken with hin | ⟨t', ht'⟩
        · exact hnot hin
        · have hown : own Pc.carried (Function.update s.pc t .again) t' = some pb := ht'
          rw [own_update] at hown
          obtain ⟨htt, hother⟩ := of_update_none hown
          exact htt (h.pbufs.carried_excl t' t pb hother hcarried)
    | _ => simp [Benign, hpc] at hbad
  | _ => exact absurd trivial hbad

end Steps

/-- From the state that `wlan_init_card` leaves, the queue stays in order exactly as
    long as no harmful frame is met. -/
theorem queueOk_throughout_iff (links : NodeLinks Ptr) (p : ℕ → Option Pbuf) (acts : List Act) :
    Throughout step QueueOk (wlanInitCard links p) acts ↔
      Along step Benign (wlanInitCard links p) acts := by
  refine throughout_iff_along (I := fun s => ∃ xs queue, Inv s xs queue) ?_ ?_ ?_ ?_
  · rintro s ⟨xs, queue, h⟩
    exact h.queueOk
  · rintro s act s' ⟨xs, queue, h⟩ hok hs
    exact step_keep h hok hs
  · rintro s act s' ⟨xs, queue, h⟩ hbad hs
    exact step_break h hbad hs
  · exact ⟨[], [], inv_wlanInitCard links p⟩

/-- A frame of 80 bytes behind an `RxPD` of 20, all zeros: no LLC/SNAP header in it. -/
def frameNoSnap : Frame where
  data i := if i = 8 then 20 else 0
  len := 80

/-- One frame without SNAP header: its node is in the list, and in the heap. -/
theorem frameNoSnap_not_queueOk :
    ¬ Throughout step QueueOk (wlanInitCard ⟨fun _ => .head, fun _ => .head⟩ fun _ => none)
      [.processRxedPacket 0 frameNoSnap, .malloc 0 (some (0, 0)), .run 0, .pbufAlloc 0 true,
        .run 0, .run 0] := by
  intro h
  have hok := h.exec rfl
  obtain ⟨xs, _, hnodes, hcount, _⟩ := hok.list
  have hlen : 1 = xs.length := hcount
  cases xs with
  | nil => cases hlen
  | cons a xs =>
    obtain ⟨size, hsize, _⟩ := hnodes a List.mem_cons_self
    have hfreed : Function.update (Function.update (fun _ => none) 0 (some 12)) 0 none a =
      some size := hsize
    rw [Function.update_idem, Function.update_apply] at hfreed
    split at hfreed
    · cases hfreed
    · cases hfreed

end RxQueue
