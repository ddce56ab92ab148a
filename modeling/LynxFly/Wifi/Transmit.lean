-- SUMMARY: Sending a packet: rt_wlan_dev_tx and SendSinglePacket over any chain of pbufs.
import LynxFly.Base.ByteCopy
import LynxFly.Kernel.Config
import LynxFly.Wifi.Card

/-!
# Transmitting

`rt_wlan_dev_tx` (`rt_wlan_dev.c`) hands a chain of pbufs to `SendSinglePacket`
(`wlan_tx.c`), which puts a `TxPD` and the segments of the packet together in `TmpTxBuf`
and gives them to `sbi_host_to_card`.
-/

open Buffers Buffers.Prog
open Kernel (RT_EOK)

namespace Wlan

namespace Transmit

/-- A chain of pbufs: the segments of the first packet, whose lengths add up to its
    `tot_len`, and those of further packets of a queue. -/
structure Pbuf where
  packet : List UInt16
  queue : List UInt16
  nonempty : packet ≠ []
  tot_len_lt : (packet.map UInt16.toNat).sum < 2 ^ 16

namespace Pbuf

/-- `tot_len` of the first pbuf. -/
def tot_len (p : Pbuf) : ℕ := (p.packet.map UInt16.toNat).sum

/-- `len` of each pbuf of the chain. -/
def len (p : Pbuf) : List UInt16 := p.packet ++ p.queue

end Pbuf

inductive Buf where
  | TmpTxBuf
  /-- The payload of pbuf `k` of the chain, and the memory behind it. -/
  | payload (k : ℕ)
  deriving DecidableEq

structure TxPD where
  TxStatus : UInt32
  TxControl : UInt32
  TxPacketLocation : UInt32
  TxPacketLength : UInt16
  /-- `TxDestAddrHigh`, and `TxDestAddrLow` behind it. -/
  TxDestAddr : Vector UInt8 6
  Priority : UInt8
  Flags : UInt8
  PktDelay_2ms : UInt8
  Reserved1 : UInt8

def le16 (x : UInt16) : List UInt8 := [x.toUInt8, (x >>> 8).toUInt8]

def le32 (x : UInt32) : List UInt8 :=
  [x.toUInt8, (x >>> 8).toUInt8, (x >>> 16).toUInt8, (x >>> 24).toUInt8]

/-- The bytes of the structure. -/
def TxPD.bytes (t : TxPD) : List UInt8 :=
  le32 t.TxStatus ++ le32 t.TxControl ++ le32 t.TxPacketLocation ++ le16 t.TxPacketLength ++
    t.TxDestAddr.toList ++ [t.Priority, t.Flags, t.PktDelay_2ms, t.Reserved1]

/-- What the functions read of `WlanCard`. -/
structure TxCard where
  MediaConnectStatus : MediaState
  PktTxCtrl : UInt32

/-! ## The code -/

section Code

/-- Six bytes of the payload, which may be shorter. -/
def destAddr : Prog Buf UInt8 (Vector UInt8 6) := do
  let b0 ← rd (.payload 0) 0
  let b1 ← rd (.payload 0) 1
  let b2 ← rd (.payload 0) 2
  let b3 ← rd (.payload 0) 3
  let b4 ← rd (.payload 0) 4
  let b5 ← rd (.payload 0) 5
  pure #v[b0, b1, b2, b3, b4, b5]

/-- `LocalTxPD`, which starts as zeros. -/
def localTxPD (card : TxCard) (tot_len : ℕ) (dest : Vector UInt8 6) : TxPD where
  TxStatus := 0
  TxControl := card.PktTxCtrl
  TxPacketLocation := 24
  TxPacketLength := UInt16.ofNat tot_len
  TxDestAddr := dest
  Priority := 0
  Flags := 0
  PktDelay_2ms := 0
  Reserved1 := 0

/-- `while (phead != RT_NULL && curlen < totle_len)`, from pbuf `k` on. -/
def copySegments (totle_len : ℕ) : ℕ → List UInt16 → ℕ → Prog Buf UInt8 Unit
  | _, [], _ => pure ()
  | k, len :: next, curlen =>
    if curlen < totle_len then do
      copy .TmpTxBuf (sizeofTxPD + curlen) (.payload k) 0 len.toNat
      copySegments totle_len (k + 1) next (curlen + len.toNat)
    else pure ()

/-- The call of `sbi_host_to_card`, as the bytes it is given. -/
def sbiHostToCard (nb : ℕ) : Prog Buf UInt8 (List UInt8) := fun c => (slice c .TmpTxBuf 0 nb, c, [])

/-- `SendSinglePacket`, and what `sbi_host_to_card` was called with, when that function
    returns `transport`. -/
def sendSinglePacket (card : TxCard) (packet : Pbuf) (transport : ℤ) :
    Prog Buf UInt8 (ℤ × List (List UInt8)) :=
  if card.MediaConnectStatus = .Disconnected then pure (-1, [])
  else do
    let dest ← destAddr
    store .TmpTxBuf 0 (localTxPD card packet.tot_len dest).bytes
    -- the status is still `WLAN_STATUS_SUCCESS`
    if 2048 ≤ packet.tot_len then pure (WLAN_STATUS_SUCCESS, [])
    else do
      copySegments packet.tot_len 0 packet.len 0
      let sent ← sbiHostToCard ((packet.tot_len + sizeofTxPD) % 2 ^ 16)
      pure (transport, [sent])

/-- `rt_wlan_dev_tx` drops the status. -/
def rtWlanDevTx (card : TxCard) (packet : Pbuf) (transport : ℤ) :
    Prog Buf UInt8 (ℤ × List (List UInt8)) := do
  let (_, sent) ← sendSinglePacket card packet transport
  pure (RT_EOK, sent)

end Code

/-! ## The segments -/

section Segments

variable {c : Cells Buf UInt8}

/-- The segments from pbuf `k` on, put together. -/
def segments (c : Cells Buf UInt8) : ℕ → List UInt16 → List UInt8
  | _, [] => []
  | k, len :: next => slice c (.payload k) 0 len.toNat ++ segments c (k + 1) next

theorem length_segments (k : ℕ) (lens : List UInt16) :
    (segments c k lens).length = (lens.map UInt16.toNat).sum := by
  induction lens generalizing k with
  | nil => rfl
  | cons len next ih =>
    rw [segments, List.length_append, length_slice, ih, List.map_cons, List.sum_cons]

theorem segments_append (k : ℕ) (lens next : List UInt16) :
    segments c k (lens ++ next) = segments c k lens ++ segments c (k + lens.length) next := by
  induction lens generalizing k with
  | nil => rfl
  | cons len lens ih =>
    rw [List.cons_append, segments, ih, segments, List.append_assoc, List.length_cons,
      Nat.add_right_comm, Nat.add_assoc]

theorem segments_congr {c' : Cells Buf UInt8} (h : ∀ k, c' (.payload k) = c (.payload k)) (k : ℕ)
    (lens : List UInt16) : segments c' k lens = segments c k lens := by
  induction lens generalizing k with
  | nil => rfl
  | cons len next ih =>
    rw [segments, ih, segments, slice_congr fun i _ _ => congrFun (h k) i]

/-- The first `tot_len` bytes of the chain are those of the packet. -/
theorem take_segments (p : Pbuf) :
    (segments c 0 p.len).take p.tot_len = segments c 0 p.packet := by
  have hlen : (segments c 0 p.packet).length = p.tot_len := length_segments 0 p.packet
  rw [Pbuf.len, segments_append, ← hlen]
  exact List.take_left

end Segments

/-! ## The loop -/

section Loop

variable {c : Cells Buf UInt8} {totle_len : ℕ}

theorem payload_ne (k : ℕ) : Buf.payload k ≠ .TmpTxBuf := nofun

theorem apart_payload (d k n : ℕ) : Apart Buf.TmpTxBuf d (.payload k) 0 n :=
  .inl (payload_ne k).symm

/-- What the buffer holds before the place of the next segment stays. -/
theorem copySegments_before (k curlen : ℕ) (lens : List UInt16) {t m : ℕ}
    (h : t + m ≤ sizeofTxPD + curlen) :
    slice ((copySegments totle_len k lens curlen).exec c) .TmpTxBuf t m =
      slice c .TmpTxBuf t m := by
  induction lens generalizing k curlen c with
  | nil => rfl
  | cons len next ih =>
    rw [copySegments]
    split
    case isTrue =>
      rw [exec_bind, ih _ _ (by omega), slice_copy_of_apart (apart_payload _ _ _) (.inl h)]
    case isFalse => rfl

/-- The segments of the packet arrive one behind the other, and those of the queue are
    not looked at. -/
theorem copySegments_segments (k curlen : ℕ) (lens queue : List UInt16)
    (hsum : curlen + (lens.map UInt16.toNat).sum = totle_len) :
    slice ((copySegments totle_len k (lens ++ queue) curlen).exec c) .TmpTxBuf
      (sizeofTxPD + curlen) (totle_len - curlen) = segments c k lens := by
  induction lens generalizing k curlen c with
  | nil =>
    rw [List.map_nil, List.sum_nil, Nat.add_zero] at hsum
    rw [hsum, Nat.sub_self]
    rfl
  | cons len next ih =>
    rw [List.map_cons, List.sum_cons] at hsum
    by_cases hcur : curlen < totle_len
    · have hkeep : ∀ j, ((copy .TmpTxBuf (sizeofTxPD + curlen) (.payload k) 0 len.toNat).exec c)
          (.payload j) = c (.payload j) := fun j => by
        funext i
        rw [exec_copy (apart_payload _ _ _), if_neg fun h => payload_ne j h.1]
      rw [List.cons_append, copySegments, if_pos hcur, exec_bind, segments,
        show totle_len - curlen = len.toNat + (totle_len - (curlen + len.toNat)) by omega,
        slice_add, copySegments_before _ _ _ (by omega), slice_copy (apart_payload _ _ _),
        Nat.add_assoc, ih _ _ (by omega), segments_congr hkeep]
    · have hempty : (segments c k (len :: next)).length = 0 := by
        rw [length_segments, List.map_cons, List.sum_cons]
        omega
      rw [show totle_len - curlen = 0 by omega, slice_zero, List.eq_nil_of_length_eq_zero hempty]

/-- Copying never goes past the end of the packet. -/
theorem within_copySegments (k curlen : ℕ) (lens queue : List UInt16)
    (hsum : curlen + (lens.map UInt16.toNat).sum = totle_len) :
    ∀ i : ℤ, .write .TmpTxBuf i ∈ (copySegments totle_len k (lens ++ queue) curlen).accesses c →
      0 ≤ i ∧ i < sizeofTxPD + totle_len := by
  induction lens generalizing k curlen c with
  | nil =>
    intro i hi
    rw [List.map_nil, List.sum_nil, Nat.add_zero] at hsum
    rw [List.nil_append] at hi
    cases queue with
    | nil => cases hi
    | cons len next =>
      rw [copySegments, if_neg (by omega)] at hi
      cases hi
  | cons len next ih =>
    rw [List.map_cons, List.sum_cons] at hsum
    intro i hi
    rw [List.cons_append, copySegments] at hi
    split at hi
    case isTrue =>
      rw [accesses_bind, List.mem_append, mem_accesses_copy] at hi
      rcases hi with ⟨j, hj, hread | hwrite⟩ | hi
      · cases hread
      · cases hwrite
        omega
      · exact ih _ _ (by omega) i hi
    case isFalse => cases hi

end Loop

/-! ## The packet -/

section Packet

variable (card : TxCard) (packet : Pbuf) (transport : ℤ) (c : Cells Buf UInt8)

/-- What the card is to get: the `TxPD`, and the packet. -/
def expected : List UInt8 :=
  (localTxPD card packet.tot_len (destAddr.result c)).bytes ++
    (segments c 0 packet.len).take packet.tot_len

/-- The status tells whether the packet has been handed over as a whole, and the buffer
    holds it. -/
structure TxOk : Prop where
  sent : ((rtWlanDevTx card packet transport).result c).1 = RT_EOK →
    transport = WLAN_STATUS_SUCCESS ∧
      ((rtWlanDevTx card packet transport).result c).2 = [expected card packet c]
  length : (localTxPD card packet.tot_len (destAddr.result c)).TxPacketLength.toNat = packet.tot_len
  inside : ∀ i : ℤ, .write .TmpTxBuf i ∈ (rtWlanDevTx card packet transport).accesses c →
    0 ≤ i ∧ i < WLAN_UPLD_SIZE
  refused : card.MediaConnectStatus = .Disconnected ∨ 2048 ≤ packet.tot_len ∨
      transport ≠ WLAN_STATUS_SUCCESS →
    ((rtWlanDevTx card packet transport).result c).1 ≠ RT_EOK ∧
      ((rtWlanDevTx card packet transport).result c).2 = []

variable {card packet transport c}

theorem length_bytes (t : TxPD) : t.bytes.length = sizeofTxPD := by
  simp [TxPD.bytes, le32, le16, sizeofTxPD]

theorem exec_destAddr : destAddr.exec c = c := rfl

/-- Reading the address writes nothing. -/
theorem write_notMem_destAddr (b : Buf) (i : ℤ) : Access.write b i ∉ destAddr.accesses c := by
  unfold destAddr
  simp

theorem segments_store (bs : List UInt8) (k : ℕ) (lens : List UInt16) :
    segments ((store .TmpTxBuf 0 bs).exec c) k lens = segments c k lens := by
  refine segments_congr (fun j => ?_) k lens
  exact keeps_store (payload_ne j) 0 bs c

/-- What `sbi_host_to_card` is given by a connected card. -/
theorem result_sendSinglePacket (hconn : card.MediaConnectStatus ≠ .Disconnected)
    (hlen : packet.tot_len < 2048) :
    (sendSinglePacket card packet transport).result c = (transport, [expected card packet c]) := by
  have hnb : (packet.tot_len + sizeofTxPD) % 2 ^ 16 = sizeofTxPD + packet.tot_len := by
    rw [sizeofTxPD]
    omega
  have hsegments := copySegments_segments (c := (store .TmpTxBuf 0
    (localTxPD card packet.tot_len (destAddr.result c)).bytes).exec c) 0 0 packet.packet
    packet.queue (Nat.zero_add packet.tot_len)
  have hslice : slice ((store Buf.TmpTxBuf 0
      (localTxPD card packet.tot_len (destAddr.result c)).bytes).exec c) .TmpTxBuf 0 sizeofTxPD =
      (localTxPD card packet.tot_len (destAddr.result c)).bytes := by
    rw [← length_bytes (localTxPD card packet.tot_len (destAddr.result c)), slice_store]
  rw [segments_store] at hsegments
  unfold sendSinglePacket
  rw [if_neg hconn]
  simp only [result_bind, exec_destAddr]
  rw [if_neg (by omega)]
  simp only [result_bind, result_pure, hnb]
  rw [expected, take_segments]
  refine congrArg _ (congrArg (List.cons · _) ?_)
  change slice _ _ 0 (sizeofTxPD + packet.tot_len) = _
  rw [slice_add, copySegments_before _ _ _ (by omega), hslice, Nat.zero_add]
  exact congrArg _ hsegments

theorem write_mem_sendSinglePacket {i : ℤ}
    (hi : .write .TmpTxBuf i ∈ (sendSinglePacket card packet transport).accesses c) :
    0 ≤ i ∧ i < WLAN_UPLD_SIZE := by
  have hstore : ∀ c : Cells Buf UInt8, .write .TmpTxBuf i ∈ (store .TmpTxBuf 0
      (localTxPD card packet.tot_len (destAddr.result c)).bytes).accesses c →
        0 ≤ i ∧ i < WLAN_UPLD_SIZE := by
    intro c hi
    obtain ⟨j, hj, heq⟩ := mem_accesses_store.mp hi
    rw [length_bytes, sizeofTxPD] at hj
    cases heq
    rw [WLAN_UPLD_SIZE]
    omega
  unfold sendSinglePacket at hi
  split at hi
  case isTrue => cases hi
  case isFalse =>
    simp only [accesses_bind, exec_destAddr, List.mem_append] at hi
    rcases hi with hi | hi | hi
    · exact absurd hi (write_notMem_destAddr _ _)
    · exact hstore c hi
    · split at hi
      case isTrue => cases hi
      case isFalse hlen =>
        simp only [accesses_bind, List.mem_append, accesses_pure, List.append_nil] at hi
        rcases hi with hi | hi
        · obtain ⟨h0, hlt⟩ := within_copySegments 0 0 packet.packet packet.queue
            (Nat.zero_add packet.tot_len) i hi
          refine ⟨h0, hlt.trans_le ?_⟩
          rw [sizeofTxPD, WLAN_UPLD_SIZE]
          omega
        · cases hi

/-- Sending is in order exactly for a connected card, a packet that is not too long, and
    a transport that succeeds: `RT_EOK` is returned in any case. -/
theorem rtWlanDevTx_ok_iff : TxOk card packet transport c ↔
    card.MediaConnectStatus ≠ .Disconnected ∧ packet.tot_len < 2048 ∧
      transport = WLAN_STATUS_SUCCESS := by
  constructor
  · intro h
    have hstatus : ¬ (card.MediaConnectStatus = .Disconnected ∨ 2048 ≤ packet.tot_len ∨
        transport ≠ WLAN_STATUS_SUCCESS) := fun hfail => (h.refused hfail).1 rfl
    refine ⟨fun hconn => hstatus (.inl hconn), ?_, ?_⟩
    · exact Nat.lt_of_not_le fun hlen => hstatus (.inr (.inl hlen))
    · exact not_not.mp fun htransport => hstatus (.inr (.inr htransport))
  · rintro ⟨hconn, hlen, htransport⟩
    refine ⟨fun _ => ⟨htransport, ?_⟩, ?_, fun i hi => ?_, fun hfail => ?_⟩
    · rw [rtWlanDevTx, result_bind, result_sendSinglePacket hconn hlen]
      rfl
    · exact UInt16.toNat_ofNat_of_lt packet.tot_len_lt
    · rw [rtWlanDevTx, accesses_bind, List.mem_append] at hi
      rcases hi with hi | hi
      · exact write_mem_sendSinglePacket hi
      · cases hi
    · rcases hfail with hfail | hfail | hfail
      · exact absurd hfail hconn
      · exact absurd hfail (by omega)
      · exact absurd htransport hfail

end Packet

/-- A packet of one segment. -/
def onePbuf : Pbuf := ⟨[60], [], by decide, by decide⟩

/-- The card is not connected, and `RT_EOK` is returned. -/
theorem disconnected_not_ok :
    ¬ TxOk ⟨.Disconnected, 0⟩ onePbuf WLAN_STATUS_SUCCESS fun _ _ => 0 := by
  intro h
  exact (h.refused (.inl rfl)).1 rfl

end Transmit

end Wlan
