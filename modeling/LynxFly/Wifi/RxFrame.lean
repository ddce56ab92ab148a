-- SUMMARY: The frame ProcessRxedPacket makes of a received buffer, byte by byte.
import LynxFly.Base.ByteCopy
import LynxFly.Wifi.RxQueue

/-!
# One received buffer

`ProcessRxedPacket` (`wlan_rx.c`) on the bytes of its buffer: it cuts an LLC/SNAP header
out by moving the addresses up in place, and copies the frame into a pbuf. What becomes of
the queue when threads interleave is a matter of `RxQueue`.
-/

open Buffers Buffers.Prog

namespace RxFrame

inductive Buf where
  /-- `data`, and the memory behind it. -/
  | data
  /-- The payload of the pbuf. -/
  | pbuf
  deriving DecidableEq

/-- Which of the allocations succeed. -/
structure Allocs where
  rtMalloc : Bool
  pbufAlloc : Bool

/-- What the call leaves in the queue. -/
inductive Outcome where
  | dropped
  /-- A pbuf of this `tot_len`, in a node that is allocated or has been freed. -/
  | queued (tot_len : ℕ) (allocated : Bool)
  deriving DecidableEq

def rfc1042_eth_hdr : List UInt8 := [0xaa, 0xaa, 0x03, 0x00, 0x00, 0x00]

/-! ## The code -/

section Code

/-- `pRxPD->PktOffset`. -/
def pktOffset : Prog Buf UInt8 ℕ := do
  let b0 ← rd .data 8
  let b1 ← rd .data 9
  let b2 ← rd .data 10
  let b3 ← rd .data 11
  pure (b0.toNat + b1.toNat * 2 ^ 8 + b2.toNat * 2 ^ 16 + b3.toNat * 2 ^ 24)

/-- `rt_memcmp(data + ptr, bs, ..) == 0`, up to the first difference. -/
def rtMemcmp (ptr : ℕ) : List UInt8 → Prog Buf UInt8 Bool
  | [] => pure true
  | b :: bs => do
    let x ← rd .data (ptr : ℤ)
    if x = b then rtMemcmp (ptr + 1) bs else pure false

/-- `8 + 4 + PktOffset`, as the `u32` it is compared as. -/
def minlen (PktOffset : ℕ) : ℕ := (8 + 4 + PktOffset) % 2 ^ 32

/-- What becomes of the header; the result is `hdrChop`. -/
def replaceHeader (PktOffset : ℕ) (snap : Bool) : Prog Buf UInt8 ℕ :=
  if snap then do
    copy .data (PktOffset + 14) .data (PktOffset + 6) 6
    copy .data (PktOffset + 8) .data PktOffset 6
    pure (PktOffset + 8)
  -- the node is freed here
  else pure PktOffset

/-- `len - hdrChop`, but at least 100. -/
def pbuflen (len hdrChop : ℕ) : ℕ :=
  let pbuflen := (len + 2 ^ 32 - hdrChop % 2 ^ 32) % 2 ^ 32
  if pbuflen < 100 then 100 else pbuflen

/-- `ProcessRxedPacket`. `pbuf_alloc` takes the length as a `u16`. -/
def processRxedPacket (allocs : Allocs) (len : ℕ) : Prog Buf UInt8 Outcome :=
  if allocs.rtMalloc then do
    let PktOffset ← pktOffset
    if len < minlen PktOffset then pure .dropped
    else do
      let snap ← rtMemcmp (PktOffset + 14) rfc1042_eth_hdr
      let hdrChop ← replaceHeader PktOffset snap
      if allocs.pbufAlloc then do
        copy .pbuf 0 .data hdrChop (pbuflen len hdrChop)
        pure (.queued (pbuflen len hdrChop % 2 ^ 16) snap)
      else pure .dropped
  else pure .dropped

end Code

/-! ## The frame -/

section Frame

variable (c : Cells Buf UInt8) (len : ℕ)

def PktOffset : ℕ := pktOffset.result c

/-- Behind the 802.3 header comes the RFC 1042 SNAP header. -/
def IsSnap : Prop := slice c .data (PktOffset c + 14) 6 = rfc1042_eth_hdr

instance : Decidable (IsSnap c) := inferInstanceAs (Decidable (_ = _))

/-- What the stack is to get: of a SNAP frame the addresses, and everything from the SNAP
    type on; of any other frame everything. -/
def frame : List UInt8 :=
  if IsSnap c then
    slice c .data (PktOffset c) 12 ++ slice c .data (PktOffset c + 20) (len - (PktOffset c + 20))
  else slice c .data (PktOffset c) (len - PktOffset c)

/-- With both allocations successful, nothing behind the buffer is read, a buffer without
    the header that is compared is dropped, and any other is queued in an allocated node
    as the frame it holds. -/
structure RxOk : Prop where
  inside : ∀ i : ℤ, .read .data i ∈ (processRxedPacket ⟨true, true⟩ len).accesses c → i < len
  short : len < PktOffset c + 20 → (processRxedPacket ⟨true, true⟩ len).result c = .dropped
  whole : PktOffset c + 20 ≤ len →
    ∃ tot_len, (processRxedPacket ⟨true, true⟩ len).result c = .queued tot_len true ∧
      slice ((processRxedPacket ⟨true, true⟩ len).exec c) .pbuf 0 tot_len = frame c len

end Frame

section Steps

variable {c : Cells Buf UInt8} {len ptr P n : ℕ} {bs : List UInt8} {snap : Bool}

theorem exec_pktOffset : pktOffset.exec c = c := rfl

/-- Comparing stops at the first difference, and tells whether all bytes are the same. -/
theorem result_rtMemcmp :
    (rtMemcmp ptr bs).result c = decide (slice c .data ptr bs.length = bs) := by
  induction bs generalizing ptr with
  | nil => rfl
  | cons b bs ih =>
    rw [rtMemcmp, result_bind, result_rd, List.length_cons, slice_succ]
    by_cases hb : c .data (ptr : ℤ) = b
    · rw [if_pos hb, exec_rd, ih]
      simp [hb]
    · rw [if_neg hb, result_pure]
      simp [hb]

theorem exec_rtMemcmp : (rtMemcmp ptr bs).exec c = c := by
  induction bs generalizing ptr with
  | nil => rfl
  | cons b bs ih =>
    rw [rtMemcmp, exec_bind, exec_rd]
    split
    case isTrue => exact ih
    case isFalse => rfl

theorem accesses_rtMemcmp {e : Access Buf UInt8} (he : e ∈ (rtMemcmp ptr bs).accesses c) :
    ∃ i < bs.length, e = .read .data ((ptr + i : ℕ) : ℤ) := by
  induction bs generalizing ptr with
  | nil => cases he
  | cons b bs ih =>
    rw [rtMemcmp, accesses_bind, accesses_rd, exec_rd, List.mem_append, List.mem_singleton] at he
    rcases he with rfl | he
    · exact ⟨0, Nat.succ_pos _, rfl⟩
    · split at he
      case isTrue =>
        obtain ⟨i, hi, rfl⟩ := ih he
        exact ⟨i + 1, Nat.succ_lt_succ hi, by rw [Nat.add_right_comm, Nat.add_assoc]⟩
      case isFalse => cases he

theorem apart_data (d s m : ℕ) (h : d + m ≤ s ∨ s + m ≤ d) : Apart Buf.data d .data s m := .inr h

theorem apart_pbuf (d s m : ℕ) : Apart Buf.pbuf d .data s m := .inl nofun

/-- Behind the bytes cut off, a SNAP frame has its addresses, then its type and the rest. -/
theorem slice_replaceHeader_snap (r : ℕ) :
    slice ((replaceHeader P true).exec c) .data (P + 8) (12 + r) =
      slice c .data P 12 ++ slice c .data (P + 20) r := by
  have hsrc := apart_data (P + 14) (P + 6) 6 (by omega)
  have hdst := apart_data (P + 8) P 6 (by omega)
  rw [replaceHeader, if_pos rfl]
  simp only [exec_bind, exec_pure]
  rw [slice_add, show 12 = 6 + 6 from rfl, slice_add, slice_add, slice_copy hdst,
    slice_copy_of_apart hsrc (.inl (by omega)), slice_copy_of_apart hdst (.inr (by omega)),
    slice_copy_of_apart hdst (.inr (by omega)), slice_copy hsrc,
    slice_copy_of_apart hsrc (.inr (by omega))]

theorem result_replaceHeader : (replaceHeader P snap).result c = if snap then P + 8 else P := by
  cases snap with
  | true => rfl
  | false => rfl

theorem read_replaceHeader {i : ℤ}
    (hi : .read .data i ∈ (replaceHeader P snap).accesses c) : i < P + 12 := by
  unfold replaceHeader at hi
  split at hi
  case isTrue =>
    simp only [accesses_bind, accesses_pure, List.append_nil, List.mem_append,
      mem_accesses_copy] at hi
    rcases hi with ⟨j, hj, hread | hwrite⟩ | ⟨j, hj, hread | hwrite⟩
    · cases hread
      omega
    · cases hwrite
    · cases hread
      omega
    · cases hwrite
  case isFalse => cases hi

/-! The call, once the buffer has passed the check -/

variable (c len) in
/-- What is cut off the front. -/
def hdrChop : ℕ := if IsSnap c then PktOffset c + 8 else PktOffset c

theorem hdrChop_eq : (if decide (IsSnap c) then PktOffset c + 8 else PktOffset c) = hdrChop c := by
  simp only [decide_eq_true_eq]
  rfl

variable (h14 : PktOffset c + 14 ≤ len) (hlen : len < 2 ^ 32)

include h14 hlen

theorem not_lt_minlen : ¬ len < minlen (PktOffset c) := by
  rw [minlen]
  omega

theorem result_processRxedPacket : (processRxedPacket ⟨true, true⟩ len).result c =
    .queued (pbuflen len (hdrChop c) % 2 ^ 16) (IsSnap c) := by
  have hcheck : ¬ len < minlen (pktOffset.result c) := not_lt_minlen h14 hlen
  rw [processRxedPacket, if_pos rfl]
  simp only [result_bind, exec_pktOffset]
  rw [if_neg hcheck]
  simp only [result_bind, exec_rtMemcmp, result_rtMemcmp, if_true, result_pure,
    result_replaceHeader]
  exact congrArg (fun chop => Outcome.queued (pbuflen len chop % 2 ^ 16) _) hdrChop_eq

theorem exec_processRxedPacket : (processRxedPacket ⟨true, true⟩ len).exec c =
    (copy .pbuf 0 .data (hdrChop c) (pbuflen len (hdrChop c))).exec
      ((replaceHeader (PktOffset c) (IsSnap c)).exec c) := by
  have hcheck : ¬ len < minlen (pktOffset.result c) := not_lt_minlen h14 hlen
  rw [processRxedPacket, if_pos rfl]
  simp only [exec_bind, exec_pktOffset]
  rw [if_neg hcheck]
  simp only [exec_bind, exec_rtMemcmp, result_rtMemcmp, if_true, exec_pure,
    result_replaceHeader]
  exact congrArg (fun chop => (copy Buf.pbuf 0 .data chop (pbuflen len chop)).exec _) hdrChop_eq

theorem accesses_processRxedPacket : (processRxedPacket ⟨true, true⟩ len).accesses c =
    pktOffset.accesses c ++ ((rtMemcmp (PktOffset c + 14) rfc1042_eth_hdr).accesses c ++
      ((replaceHeader (PktOffset c) (IsSnap c)).accesses c ++
        (copy .pbuf 0 .data (hdrChop c) (pbuflen len (hdrChop c))).accesses
          ((replaceHeader (PktOffset c) (IsSnap c)).exec c))) := by
  have hcheck : ¬ len < minlen (pktOffset.result c) := not_lt_minlen h14 hlen
  rw [processRxedPacket, if_pos rfl]
  simp only [accesses_bind, exec_pktOffset]
  rw [if_neg hcheck]
  simp only [accesses_bind, exec_rtMemcmp, result_rtMemcmp, if_true, accesses_pure,
    result_replaceHeader, List.append_nil]
  refine congrArg _ (congrArg _ (congrArg _ ?_))
  exact congrArg (fun chop => (copy Buf.pbuf 0 .data chop (pbuflen len chop)).accesses _)
    hdrChop_eq

omit hlen in
theorem hdrChop_le : hdrChop c ≤ len := by
  unfold hdrChop
  split
  · omega
  · omega

theorem pbuflen_eq : pbuflen len (hdrChop c) = max (len - hdrChop c) 100 := by
  have hchop := hdrChop_le h14
  have hdiff : (len + 2 ^ 32 - hdrChop c % 2 ^ 32) % 2 ^ 32 = len - hdrChop c := by omega
  simp only [pbuflen, hdiff]
  split
  · omega
  · omega

/-! The queue's model of a frame -/

variable (c len) in
/-- The buffer, as the queue has it. -/
def toFrame : RxQueue.Frame := ⟨fun i => c .data (i : ℤ), len⟩

omit h14 hlen in
theorem isSnap_toFrame : (toFrame c len).IsSnap ↔ IsSnap c := Iff.rfl

omit h14 hlen in
theorem exec_replaceHeader (i : ℕ) : (replaceHeader P true).exec c .data ((P + 8 + i : ℕ) : ℤ) =
    if i < 12 then c .data ((P + i : ℕ) : ℤ) else c .data ((P + 8 + i : ℕ) : ℤ) := by
  have hsrc := apart_data (P + 14) (P + 6) 6 (by omega)
  have hdst := apart_data (P + 8) P 6 (by omega)
  rw [replaceHeader, if_pos rfl]
  simp only [exec_bind, exec_pure]
  rw [exec_copy hdst, exec_copy hsrc, exec_copy hsrc]
  by_cases h6 : i < 6
  · rw [if_pos ⟨rfl, by omega, by omega⟩, if_neg (by omega), if_pos (by omega)]
    refine congrArg _ ?_
    omega
  · rw [if_neg (by omega)]
    by_cases h12 : i < 12
    · rw [if_pos ⟨rfl, by omega, by omega⟩, if_pos h12]
      refine congrArg _ ?_
      omega
    · rw [if_neg (by omega), if_neg h12]

/-- What is copied into the pbuf is the payload the queue has for the frame. -/
theorem pbuf_eq_payload {i : ℕ} (hi : i < pbuflen len (hdrChop c)) :
    (processRxedPacket ⟨true, true⟩ len).exec c .pbuf (i : ℤ) = (toFrame c len).payload i := by
  rw [exec_processRxedPacket h14 hlen, exec_copy (apart_pbuf _ _ _),
    if_pos ⟨rfl, by omega, by omega⟩]
  by_cases hsnap : IsSnap c
  · have hchop : hdrChop c = PktOffset c + 8 := if_pos hsnap
    have hindex : ((hdrChop c : ℕ) : ℤ) + ((i : ℤ) - (0 : ℕ)) =
        ((PktOffset c + 8 + i : ℕ) : ℤ) := by omega
    rw [decide_eq_true hsnap, hindex, exec_replaceHeader, RxQueue.Frame.payload,
      if_pos (isSnap_toFrame.mpr hsnap)]
    by_cases h12 : i < 12
    · rw [if_pos h12, if_pos h12]
      rfl
    · rw [if_neg h12, if_neg h12]
      exact congrArg (fun j : ℕ => c .data (j : ℤ)) (by rw [Nat.add_assoc]; rfl)
  · have hchop : hdrChop c = PktOffset c := if_neg hsnap
    rw [decide_eq_false hsnap, RxQueue.Frame.payload, if_neg (mt isSnap_toFrame.mp hsnap), hchop]
    change c .data _ = c .data ((PktOffset c + i : ℕ) : ℤ)
    refine congrArg _ ?_
    omega

/-- Of a buffer with the header that is compared, nothing behind the end is read exactly when
    what is copied into the pbuf ends there. -/
theorem reads_inside_iff (hwhole : PktOffset c + 20 ≤ len) :
    (∀ i : ℤ, .read .data i ∈ (processRxedPacket ⟨true, true⟩ len).accesses c → i < len) ↔
      hdrChop c + pbuflen len (hdrChop c) ≤ len := by
  have hpbuf := pbuflen_eq h14 hlen
  rw [accesses_processRxedPacket h14 hlen]
  constructor
  · intro h
    have hlast : ((hdrChop c + (pbuflen len (hdrChop c) - 1) : ℕ) : ℤ) < len := by
      refine h _ (List.mem_append_right _ (List.mem_append_right _ (List.mem_append_right _ ?_)))
      exact mem_accesses_copy.mpr ⟨pbuflen len (hdrChop c) - 1, by omega, .inl rfl⟩
    omega
  · intro hfits i hi
    rw [List.mem_append, List.mem_append, List.mem_append] at hi
    rcases hi with hi | hi | hi | hi
    · have hoffset : i = 8 ∨ i = 9 ∨ i = 10 ∨ i = 11 := by
        simpa [pktOffset] using hi
      omega
    · obtain ⟨j, hj, heq⟩ := accesses_rtMemcmp hi
      have hj : j < 6 := hj
      cases heq
      omega
    · have hlt := read_replaceHeader hi
      omega
    · obtain ⟨j, hj, hread | hwrite⟩ := mem_accesses_copy.mp hi
      · cases hread
        omega
      · cases hwrite

/-- The pbuf has the frame when it has as many bytes. -/
theorem slice_pbuf (hsnap : IsSnap c)
    (htot : pbuflen len (hdrChop c) = 12 + (len - (PktOffset c + 20))) :
    slice ((processRxedPacket ⟨true, true⟩ len).exec c) .pbuf 0
      (12 + (len - (PktOffset c + 20))) = frame c len := by
  have hchop : hdrChop c = PktOffset c + 8 := if_pos hsnap
  rw [exec_processRxedPacket h14 hlen, htot, slice_copy (apart_pbuf _ _ _), hchop,
    decide_eq_true hsnap, slice_replaceHeader_snap, frame, if_pos hsnap]

end Steps

/-- A buffer becomes the frame it holds exactly when that is a SNAP frame of at least 100
    bytes, and of no more than a pbuf holds: the node of any other frame is freed, a
    shorter one is read past its end, and of a longer one the pbuf has a part. -/
theorem rxOk_iff (c : Cells Buf UInt8) (len : UInt32) (h14 : PktOffset c + 14 ≤ len.toNat) :
    RxOk c len.toNat ↔ IsSnap c ∧ PktOffset c + 8 + 100 ≤ len.toNat ∧
      len.toNat < PktOffset c + 8 + 2 ^ 16 := by
  have hlen := len.toNat_lt
  generalize len.toNat = len at h14 hlen ⊢
  have hresult := result_processRxedPacket h14 hlen
  have hpbuf := pbuflen_eq h14 hlen
  constructor
  · intro h
    have hwhole : PktOffset c + 20 ≤ len := by
      by_contra hshort
      have hdropped := h.short (by omega)
      rw [hresult] at hdropped
      cases hdropped
    obtain ⟨tot_len, hqueued, hframe⟩ := h.whole hwhole
    rw [hresult, Outcome.queued.injEq, decide_eq_true_eq] at hqueued
    obtain ⟨htot, hsnap⟩ := hqueued
    have hchop : hdrChop c = PktOffset c + 8 := if_pos hsnap
    have hfits := (reads_inside_iff h14 hlen hwhole).mp h.inside
    have hlength := congrArg List.length hframe
    rw [length_slice, frame, if_pos hsnap, List.length_append, length_slice,
      length_slice] at hlength
    exact ⟨hsnap, by omega, by omega⟩
  · rintro ⟨hsnap, h100, hmax⟩
    have hchop : hdrChop c = PktOffset c + 8 := if_pos hsnap
    have htot : pbuflen len (hdrChop c) = 12 + (len - (PktOffset c + 20)) := by omega
    have hfits : hdrChop c + pbuflen len (hdrChop c) ≤ len := by omega
    refine ⟨(reads_inside_iff h14 hlen (by omega)).mpr hfits, fun hshort => by omega, fun _ => ?_⟩
    refine ⟨12 + (len - (PktOffset c + 20)), ?_, slice_pbuf h14 hlen hsnap htot⟩
    rw [hresult, htot, Nat.mod_eq_of_lt (by omega), decide_eq_true hsnap]

/-- A SNAP frame of 200 bytes, behind a descriptor of 20. -/
def snapBuffer : Cells Buf UInt8 := fun _ i =>
  if i = 8 then 20 else if i = 34 ∨ i = 35 then 0xaa else if i = 36 then 0x03 else 0

theorem snapBuffer_rxOk : RxOk snapBuffer 220 ↔ IsSnap snapBuffer ∧
    PktOffset snapBuffer + 8 + 100 ≤ 220 ∧ 220 < PktOffset snapBuffer + 8 + 2 ^ 16 :=
  rxOk_iff snapBuffer 220 (by decide)

/-- A SNAP frame of 60 bytes is filled up from behind the buffer. -/
theorem shortFrame_not_rxOk : PktOffset snapBuffer + 14 ≤ 80 ∧ ¬ RxOk snapBuffer 80 := by
  refine ⟨by decide, fun h => ?_⟩
  have hread := h.inside 127 ?_
  · exact absurd hread (by decide)
  · rw [accesses_processRxedPacket (by decide) (by decide)]
    refine List.mem_append_right _ (List.mem_append_right _ (List.mem_append_right _ ?_))
    exact mem_accesses_copy.mpr ⟨99, by decide, .inl (by decide)⟩

end RxFrame
